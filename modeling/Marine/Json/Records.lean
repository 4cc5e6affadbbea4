import Marine.Generator.Dangling
import Marine.Json.RoundTrip

/-!
# Generated records in JSON

The generator names the fields of a record, an unnamed field by the empty
string, and the converters use these names as the keys of one JSON object.

* `jsonMapToIvalues_names`: reading takes every key out exactly once.
* `record_roundTrips_iff`: a value of a record comes back exactly when the names
  of the fields are distinct.
* `record_survives_iff`: the same for the record that `generate_it` registers.
-/

namespace Marine.Json

open Marine.Runtime Marine.Generator

/-! ## Keys -/

theorem mem_insertEntry_keys {entries : List (String × JValue)} {key name : String}
    {value : JValue} : name ∈ (insertEntry entries key value).map Prod.fst ↔
      name = key ∨ name ∈ entries.map Prod.fst := by
  induction entries with
  | nil => simp [insertEntry]
  | cons p entries ih =>
    obtain ⟨key', value'⟩ := p
    unfold insertEntry
    by_cases hkey : key' = key
    · simp [hkey]
    · rw [if_neg hkey]
      simp only [List.map_cons, List.mem_cons, ih]
      tauto

theorem nodup_insertEntry {entries : List (String × JValue)}
    (h : (entries.map Prod.fst).Nodup) (key : String) (value : JValue) :
    ((insertEntry entries key value).map Prod.fst).Nodup := by
  induction entries with
  | nil => simp [insertEntry]
  | cons p entries ih =>
    obtain ⟨key', value'⟩ := p
    rw [List.map_cons, List.nodup_cons] at h
    unfold insertEntry
    by_cases hkey : key' = key
    · rw [if_pos hkey]
      exact List.nodup_cons.mpr h
    · rw [if_neg hkey]
      refine List.nodup_cons.mpr ⟨fun hmem => ?_, ih h.2⟩
      rcases mem_insertEntry_keys.mp hmem with hsame | hmem
      · exact hkey hsame
      · exact h.1 hmem

theorem removeEntry_keys {entries rest : List (String × JValue)} {key : String} {value : JValue}
    (h : removeEntry entries key = some (value, rest)) :
    (entries.map Prod.fst).Perm (key :: rest.map Prod.fst) := by
  induction entries generalizing rest with
  | nil => cases h
  | cons p entries ih =>
    obtain ⟨key', value'⟩ := p
    unfold removeEntry at h
    by_cases hkey : key' = key
    · rw [if_pos hkey] at h
      cases h
      rw [List.map_cons, hkey]
    · rw [if_neg hkey] at h
      obtain ⟨⟨v, r⟩, hrest, heq⟩ := Option.map_eq_some_iff.mp h
      cases heq
      exact ((ih hrest).cons key').trans (List.Perm.swap ..)

section Records

variable {serde : SerdeJson} {recordTypes : RecordTypes}

/-- The keys of a JSON object are distinct. -/
theorem fieldsToJson_nodup {vs : List IValue} {fields : List IRecordFieldType}
    {result entries : List (String × JValue)} (hresult : (result.map Prod.fst).Nodup)
    (h : fieldsToJson serde recordTypes vs fields result = .ok entries) :
    (entries.map Prod.fst).Nodup := by
  induction vs generalizing fields result with
  | nil =>
    cases h
    exact hresult
  | cons v vs ih =>
    cases fields with
    | nil =>
      cases h
      exact hresult
    | cons field fields =>
      obtain ⟨j, -, h⟩ := Fallible.bind_eq_ok_iff.mp h
      exact ih (nodup_insertEntry hresult field.name j) h

/-- **Reading empties the map.**  Each argument takes the key of its name. -/
theorem jsonMapToIvalues_names {jsonMap : List (String × JValue)} {argTypes : List FunctionArg}
    {done : Nat} {vs : List IValue}
    (h : jsonMapToIvalues serde recordTypes jsonMap argTypes done = .ok vs) :
    (jsonMap.map Prod.fst).Perm (argTypes.map FunctionArg.name) := by
  induction argTypes generalizing jsonMap done vs with
  | nil =>
    obtain ⟨rfl, -⟩ := jsonMapToIvalues_nil_ok h
    exact .refl _
  | cons arg argTypes ih =>
    obtain ⟨jsonValue, rest, v, vs', hremove, -, hvs', -⟩ := jsonMapToIvalues_cons_ok h
    exact (removeEntry_keys hremove).trans ((ih hvs').cons arg.name)

/-! ## Records -/

/-- What comes back out of an object has distinct names. -/
theorem nodup_of_survives {id : Nat} {recordType : IRecordType} {v : IValue} {j : JValue}
    (hrecord : recordTypes.lookup id = some recordType) (hv : v.HasType recordTypes (.record id))
    (h : Survives serde recordTypes v (.record id) j) :
    (recordType.fields.map IRecordFieldType.name).Nodup := by
  obtain ⟨hto, hof⟩ := h
  cases hv with
  | @record vs _ recordType' hrecord' hlen _ =>
    rw [hrecord] at hrecord'
    cases hrecord'
    rw [ivalueToJson_record serde hrecord hlen] at hto
    obtain ⟨entries, hentries, hto⟩ := Fallible.bind_eq_ok_iff.mp hto
    cases hto
    rw [jvalueToIvalue_object serde hrecord] at hof
    obtain ⟨iargs, hiargs, -⟩ := Fallible.bind_eq_ok_iff.mp hof
    have hstart : (([] : List (String × JValue)).map Prod.fst).Nodup := List.nodup_nil
    have hkeys := fieldsToJson_nodup hstart hentries
    have hperm := jsonMapToIvalues_names hiargs
    rw [List.map_map] at hperm
    exact hperm.nodup_iff.mp hkeys

/-- **Records come back** exactly when no two fields have the same name. -/
theorem record_roundTrips_iff {id : Nat} {recordType : IRecordType} {v : IValue}
    (hrecord : recordTypes.lookup id = some recordType) (hne : recordType.fields ≠ [])
    (hfields : ∀ field ∈ recordType.fields, Reversible recordTypes field.ty)
    (hv : v.HasType recordTypes (.record id)) :
    RoundTrips serde recordTypes v (.record id) ↔
      (recordType.fields.map IRecordFieldType.name).Nodup := by
  rw [roundTrips_iff]
  constructor
  · rintro ⟨j, h⟩
    exact nodup_of_survives hrecord hv h
  · intro hnames
    have hty := (reversible_record_iff hrecord).mpr ⟨⟨hne, hnames⟩, hfields⟩
    exact ivalueToJson_roundTrip serde hv hty

end Records

/-! ## Records of the generator -/

/-- Integers, Booleans, strings and byte arrays. -/
def isPlain : ParsedType → Bool
  | .f32 | .f64 | .record _ => false
  | .vector elem => elem = .u8
  | _ => true

theorem reversible_plain {r : ITResolver} {ty : ParsedType} {t : IType} (hplain : isPlain ty)
    (h : ptypeToItypeChecked r ty = .ok t) (recordTypes : RecordTypes) :
    Reversible recordTypes t := by
  have hleaf : ∀ t, IsReversible recordTypes t → Loader.innerTypes recordTypes t = [] →
      Reversible recordTypes t := by
    intro t ht hinner
    refine reversible_iff.mpr ⟨ht, fun inner w hmem => ?_⟩
    rw [hinner] at hmem
    cases hmem
  cases ty with
  | f32 => cases hplain
  | f64 => cases hplain
  | record name => cases hplain
  | vector elem =>
    have helem : elem = .u8 := of_decide_eq_true hplain
    subst helem
    cases h
    exact hleaf .byteArray trivial rfl
  | _ =>
    cases h
    exact hleaf _ trivial rfl

/-- **Records of every accepted shape** survive JSON exactly when the names of
their fields are distinct; the name of every unnamed field is empty. -/
theorem record_survives_iff {deps : Externals} {done : List RecordType} {r r' : ITResolver}
    {record : RecordType} {fields : List RecordField} {id : Nat} {recordType : IRecordType}
    (hrun : done.foldlM (generateRecord deps) apiResolver = .ok r)
    (hgen : generateRecord deps r record = .ok r')
    (hlist : RecordFields.list record.fields = some fields)
    (hplain : ∀ field ∈ fields, isPlain field.ty)
    (hid : r'.types.lookup record.name = some id)
    (htype : r'.interfaces.types[id]? = some (.record recordType))
    (serde : SerdeJson) {recordTypes : RecordTypes}
    (hrecord : recordTypes.lookup id = some recordType) {v : IValue}
    (hv : v.HasType recordTypes (.record id)) :
    RoundTrips serde recordTypes v (.record id) ↔
      (fields.map fun field => field.name.getD "").Nodup := by
  obtain ⟨recordType', hrecordOf, hbuilt⟩ :=
    generateRecord_builtFrom (recordsMatch_records hrun) hlist hgen
  obtain ⟨id', hid', htype'⟩ := ITResolver.recordOf_eq_some_iff.mp hrecordOf
  rw [hid] at hid'
  cases hid'
  rw [htype] at htype'
  cases htype'
  obtain ⟨fields', hlist', hnames, hmatch⟩ := hbuilt.fields
  rw [hlist] at hlist'
  cases hlist'
  obtain ⟨hsome, -⟩ := (generateRecord_eq_ok_iff hlist).mp hgen
  have hne : recordType.fields ≠ [] := by
    intro hnil
    rw [hnil, List.map_nil] at hnames
    exact hsome (List.map_eq_nil_iff.mp hnames.symm)
  rw [← hnames]
  refine record_roundTrips_iff hrecord hne (fun itField hmem => ?_) hv
  obtain ⟨field, hfield, hchecked⟩ := Fallible.exists_left_of_mem hmatch hmem
  exact reversible_plain (hplain field hfield) hchecked recordTypes

/-- `struct Blob { tag: String, data: Vec<u8> }`. -/
def blobRecord : RecordType :=
  ⟨"Blob", .named [⟨some "tag", .utf8String⟩, ⟨some "data", .vector .u8⟩]⟩

theorem record_survives_blob :
    RoundTrips plainSerde blobTypes (.record [.string "a", .byteArray [1, 2]]) (.record 6) ↔
      ["tag", "data"].Nodup := by
  refine @record_survives_iff crateExternals [] apiResolver _ blobRecord _ 6 _ rfl rfl rfl
    (by decide) rfl rfl plainSerde blobTypes rfl _ ?_
  refine .record rfl rfl fun i v f hv hf => ?_
  rcases i with _ | _ | i
  · cases hv
    cases hf
    exact .string
  · cases hv
    cases hf
    exact .byteArray
  · cases hv

/-- `struct Pair(u8, u8)`. -/
def pairRecord : RecordType := ⟨"Pair", .unnamed [⟨none, .u8⟩, ⟨none, .u8⟩]⟩

/-- The table with the record that the generator makes of it. -/
def pairTypes : RecordTypes := (∅ : RecordTypes).insert 6 ⟨"Pair", [⟨"", .u8⟩, ⟨"", .u8⟩]⟩

/-- Both fields go under the empty name: the second one replaces the first, and
reading misses an argument. -/
theorem pair_loses_field : ∃ r recordType,
    generateRecord crateExternals apiResolver pairRecord = .ok r ∧
    r.types.lookup pairRecord.name = some 6 ∧
    r.interfaces.types[6]? = some (.record recordType) ∧
    pairTypes.lookup 6 = some recordType ∧
    IValue.HasType pairTypes (.record [.u8 1, .u8 2]) (.record 6) ∧
    ivaluesToJson plainSerde [.record [.u8 1, .u8 2]] [.record 6] pairTypes =
      .ok (.object [("", .number (.posInt 2))]) ∧
    ¬ RoundTrips plainSerde pairTypes (.record [.u8 1, .u8 2]) (.record 6) := by
  have hv : IValue.HasType pairTypes (.record [.u8 1, .u8 2]) (.record 6) := by
    refine .record rfl rfl fun i v f hv hf => ?_
    rcases i with _ | _ | i
    · cases hv
      cases hf
      exact .u8
    · cases hv
      cases hf
      exact .u8
    · cases hv
  refine ⟨_, ⟨"Pair", [⟨"", .u8⟩, ⟨"", .u8⟩]⟩, rfl, rfl, rfl, rfl, hv, rfl, fun h => ?_⟩
  obtain ⟨j, hj⟩ := roundTrips_iff.mp h
  exact absurd (nodup_of_survives rfl hv hj) (by decide)

end Marine.Json
