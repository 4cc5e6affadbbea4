import Marine.Json.Soundness
import Marine.Loader.ItInterface

/-!
# The JSON round trip

A value without floats comes back from its JSON form, with its byte arrays
unpacked.

* `scalar_roundTrip`: Booleans, integers and strings.
* `elements_roundTrip`, `fields_roundTrip`: the two loops; the second needs the
  names of the fields to be distinct.
* `ivalueToJson_roundTrip`: one value, by induction on its typing.
* `json_roundTrip`: the result of a call as the argument of another.
-/

namespace Marine.Json

open Marine.Runtime

/-! ## Values and types -/

mutual

/-- Every `ByteArray` in a value as the array of its bytes. -/
def unpacked : IValue → IValue
  | .byteArray bytes => .array (bytes.map .u8)
  | .array values => .array (unpackedAll values)
  | .record fieldValues => .record (unpackedAll fieldValues)
  | value => value

def unpackedAll : List IValue → List IValue
  | [] => []
  | value :: values => unpacked value :: unpackedAll values

end

/-- No float lies in a type or in the records it leads to. -/
def NoFloats (recordTypes : RecordTypes) (ty : IType) : Prop :=
  ∀ n inner, Walks.Path (Loader.innerTypes recordTypes) ty n inner → inner ≠ .f32 ∧ inner ≠ .f64

/-- The fields of a record: some, as the type `NEVec` says, and of distinct names. -/
def HasDistinctFields (r : IRecordType) : Prop :=
  r.fields ≠ [] ∧ (r.fields.map IRecordFieldType.name).Nodup

/-- What the conversion needs of one type. -/
def IsReversible (recordTypes : RecordTypes) : IType → Prop
  | .f32 | .f64 => False
  | .record id => ∀ r, recordTypes.lookup id = some r → HasDistinctFields r
  | _ => True

/-- What it needs of a type and of all that lies in it. -/
def Reversible (recordTypes : RecordTypes) (ty : IType) : Prop :=
  ∀ n inner, Walks.Path (Loader.innerTypes recordTypes) ty n inner →
    IsReversible recordTypes inner

section Reversible

variable {recordTypes : RecordTypes}

theorem Reversible.self {ty : IType} (h : Reversible recordTypes ty) :
    IsReversible recordTypes ty :=
  h 0 ty (.here ty)

theorem reversible_iff {ty : IType} : Reversible recordTypes ty ↔ IsReversible recordTypes ty ∧
    ∀ inner w, (inner, w) ∈ Loader.innerTypes recordTypes ty → Reversible recordTypes inner := by
  unfold Reversible
  rw [Walks.Path.forall_iff]

theorem Reversible.elem {ty : IType} (h : Reversible recordTypes (.array ty)) :
    Reversible recordTypes ty :=
  (reversible_iff.mp h).2 ty 1 (List.mem_singleton.mpr rfl)

theorem reversible_record_iff {id : Nat} {r : IRecordType}
    (hrecord : recordTypes.lookup id = some r) : Reversible recordTypes (.record id) ↔
      HasDistinctFields r ∧ ∀ field ∈ r.fields, Reversible recordTypes field.ty := by
  rw [reversible_iff]
  simp only [IsReversible, Loader.innerTypes, hrecord, Option.elim_some, Option.some.injEq,
    forall_eq', List.mem_map, Prod.mk.injEq]
  refine and_congr_right fun _ => ⟨fun h field hfield => ?_, ?_⟩
  · exact h field.ty 2 ⟨field, hfield, rfl, rfl⟩
  · rintro h inner w ⟨field, hfield, rfl, -⟩
    exact h field hfield

theorem reversible_of_noFloats {ty : IType}
    (hrecords : ∀ id r, recordTypes.lookup id = some r → HasDistinctFields r)
    (hfloat : NoFloats recordTypes ty) : Reversible recordTypes ty := by
  intro n inner hp
  have hno := hfloat n inner hp
  cases inner with
  | record id => exact hrecords id
  | f32 => exact absurd rfl hno.1
  | f64 => exact absurd rfl hno.2
  | _ => trivial

theorem reversible_u8 : Reversible recordTypes .u8 :=
  reversible_iff.mpr ⟨trivial, fun _ _ h => absurd h List.not_mem_nil⟩

end Reversible

section RoundTrip

variable {serde : SerdeJson} {recordTypes : RecordTypes}

/-! ## Scalars -/

/-- An integer in the bounds of its type. -/
theorem toIvalue_ofInt {ty : IType} {lo hi i : Int} {make : Int → IValue} {v : IValue}
    (hty : intType ty = some (lo, hi, make))
    (hlo : lo ≤ i) (hhi : i < hi + 1) (hmin : -2 ^ 63 ≤ lo) (hmax : hi < 2 ^ 64)
    (hmake : make i = v) : toIvalue serde ty (.number (.ofInt i)) = .ok v := by
  have hvalue : serde.fromValue ty (.number (.ofInt i)) = some v := by
    rw [SerdeJson.fromValue_int hty, Number.intIn_ofInt hlo (by omega) hmin hmax,
      Option.map_some, hmake]
  simp only [toIvalue, flattened, hvalue]

variable (serde) in
/-- **Scalars come back.** -/
theorem scalar_roundTrip {v : IValue} {ty : IType} (h : v.HasType recordTypes ty)
    (hscalar : isScalarType ty) (hty : IsReversible recordTypes ty) :
    ∃ j, scalarToJson serde v ty = .ok j ∧ toIvalue serde ty j = .ok (unpacked v) := by
  cases h with
  | boolean => exact ⟨_, rfl, by simp only [toIvalue, flattened, SerdeJson.fromValue_boolean, unpacked]⟩
  | string => exact ⟨_, rfl, by simp only [toIvalue, flattened, SerdeJson.fromValue_string, unpacked]⟩
  | @s8 v =>
    have hback : Int8.ofInt v.toInt = v := Int8.ofInt_toInt v
    exact ⟨_, rfl, toIvalue_ofInt rfl v.le_toInt v.toInt_lt (by omega) (by omega)
      (congrArg IValue.s8 hback)⟩
  | @s16 v =>
    have hback : Int16.ofInt v.toInt = v := Int16.ofInt_toInt v
    exact ⟨_, rfl, toIvalue_ofInt rfl v.le_toInt v.toInt_lt (by omega) (by omega)
      (congrArg IValue.s16 hback)⟩
  | @s32 v =>
    have hback : Int32.ofInt v.toInt = v := Int32.ofInt_toInt v
    exact ⟨_, rfl, toIvalue_ofInt rfl v.le_toInt v.toInt_lt (by omega) (by omega)
      (congrArg IValue.s32 hback)⟩
  | @s64 v =>
    have hback : Int64.ofInt v.toInt = v := Int64.ofInt_toInt v
    exact ⟨_, rfl, toIvalue_ofInt rfl v.le_toInt v.toInt_lt (by omega) (by omega)
      (congrArg IValue.s64 hback)⟩
  | @i32 v =>
    have hback : Int32.ofInt v.toInt = v := Int32.ofInt_toInt v
    exact ⟨_, rfl, toIvalue_ofInt rfl v.le_toInt v.toInt_lt (by omega) (by omega)
      (congrArg IValue.i32 hback)⟩
  | @i64 v =>
    have hback : Int64.ofInt v.toInt = v := Int64.ofInt_toInt v
    exact ⟨_, rfl, toIvalue_ofInt rfl v.le_toInt v.toInt_lt (by omega) (by omega)
      (congrArg IValue.i64 hback)⟩
  | @u8 v =>
    have hback : UInt8.ofNat v.toNat = v := UInt8.ofNat_toNat
    have hlt := v.toNat_lt
    exact ⟨_, rfl, toIvalue_ofInt rfl (by omega) (by omega) (by omega) (by omega)
      (congrArg IValue.u8 hback)⟩
  | @u16 v =>
    have hback : UInt16.ofNat v.toNat = v := UInt16.ofNat_toNat
    have hlt := v.toNat_lt
    exact ⟨_, rfl, toIvalue_ofInt rfl (by omega) (by omega) (by omega) (by omega)
      (congrArg IValue.u16 hback)⟩
  | @u32 v =>
    have hback : UInt32.ofNat v.toNat = v := UInt32.ofNat_toNat
    have hlt := v.toNat_lt
    exact ⟨_, rfl, toIvalue_ofInt rfl (by omega) (by omega) (by omega) (by omega)
      (congrArg IValue.u32 hback)⟩
  | @u64 v =>
    have hback : UInt64.ofNat v.toNat = v := UInt64.ofNat_toNat
    have hlt := v.toNat_lt
    exact ⟨_, rfl, toIvalue_ofInt rfl (by omega) (by omega) (by omega) (by omega)
      (congrArg IValue.u64 hback)⟩
  | f32 => cases hty
  | f64 => cases hty
  | _ => cases hscalar

/-! ## Lists -/

/-- A value and its JSON form at a type. -/
def Survives (serde : SerdeJson) (recordTypes : RecordTypes) (v : IValue) (ty : IType)
    (j : JValue) : Prop :=
  ivalueToJson serde recordTypes v ty = .ok j ∧
    jvalueToIvalue serde recordTypes j ty = .ok (unpacked v)

theorem elements_roundTrip {vs : List IValue} {ty : IType}
    (h : ∀ v ∈ vs, ∃ j, Survives serde recordTypes v ty j) :
    ∃ js, arrayToJson serde recordTypes vs ty = .ok js ∧
      elementsToIvalues serde recordTypes js ty = .ok (unpackedAll vs) := by
  induction vs with
  | nil =>
    refine ⟨[], rfl, ?_⟩
    rw [elementsToIvalues]
    rfl
  | cons v vs ih =>
    obtain ⟨j, hto, hof⟩ := h v (List.mem_cons_self ..)
    obtain ⟨js, htos, hofs⟩ := ih fun v' hv' => h v' (List.mem_cons_of_mem v hv')
    refine ⟨j :: js, ?_, ?_⟩
    · exact Fallible.bind_eq_ok_iff.mpr ⟨j, hto, Fallible.bind_eq_ok_iff.mpr ⟨js, htos, rfl⟩⟩
    · rw [elementsToIvalues]
      exact Fallible.bind_eq_ok_iff.mpr ⟨_, hof, Fallible.bind_eq_ok_iff.mpr ⟨_, hofs, rfl⟩⟩

theorem removeEntry_head (key : String) (value : JValue) (rest : List (String × JValue)) :
    removeEntry ((key, value) :: rest) key = some (value, rest) := by
  simp [removeEntry]

/-- **Record loop.**  Fields of distinct names are appended to the map so far,
and taken out in the same order. -/
theorem fields_roundTrip {vs : List IValue} {fields : List IRecordFieldType}
    (hlen : vs.length = fields.length) (hnames : (fields.map IRecordFieldType.name).Nodup)
    (h : ∀ (i : Nat) v (f : IRecordFieldType), vs[i]? = some v → fields[i]? = some f →
      ∃ j, Survives serde recordTypes v f.ty j)
    {result : List (String × JValue)}
    (hfresh : ∀ f ∈ fields, f.name ∉ result.map Prod.fst) :
    ∃ entries, fieldsToJson serde recordTypes vs fields result = .ok (result ++ entries) ∧
      ∀ done, jsonMapToIvalues serde recordTypes entries
        (fields.map fun field => ⟨field.name, field.ty⟩) done = .ok (unpackedAll vs) := by
  induction fields generalizing vs result with
  | nil =>
    have hnil : vs = [] := List.eq_nil_of_length_eq_zero hlen
    subst hnil
    refine ⟨[], by rw [List.append_nil]; rfl, fun done => ?_⟩
    rw [List.map_nil, jsonMapToIvalues, if_pos rfl]
    rfl
  | cons field fields ih =>
    cases vs with
    | nil => cases hlen
    | cons v vs =>
      rw [List.map_cons, List.nodup_cons] at hnames
      obtain ⟨j, hto, hof⟩ := h 0 v field rfl rfl
      have hhead : field.name ∉ result.map Prod.fst := hfresh field (List.mem_cons_self ..)
      have htail : ∀ f ∈ fields, f.name ∉ (result ++ [(field.name, j)]).map Prod.fst := by
        intro f hf hmem
        rw [List.map_append, List.mem_append] at hmem
        rcases hmem with hmem | hmem
        · exact hfresh f (List.mem_cons_of_mem field hf) hmem
        · have hname : f.name = field.name := List.mem_singleton.mp hmem
          exact hnames.1 (hname ▸ List.mem_map_of_mem hf)
      obtain ⟨entries, hentries, hback⟩ := ih (Nat.succ.inj hlen) hnames.2
        (fun i v' f hv hf => h (i + 1) v' f hv hf) htail
      refine ⟨(field.name, j) :: entries, ?_, fun done => ?_⟩
      · refine Fallible.bind_eq_ok_iff.mpr ⟨j, hto, ?_⟩
        rw [insertEntry_new hhead, hentries, List.append_assoc]
        rfl
      · let arg : FunctionArg := ⟨field.name, field.ty⟩
        have hremove : removeEntry ((arg.name, j) :: entries) arg.name = some (j, entries) :=
          removeEntry_head ..
        rw [List.map_cons, jsonMapToIvalues_cons hremove]
        exact Fallible.bind_eq_ok_iff.mpr
          ⟨_, hof, Fallible.bind_eq_ok_iff.mpr ⟨_, hback (done + 1), rfl⟩⟩

/-! ## One value -/

/-- The bytes of a byte array, at `U8`. -/
theorem bytes_roundTrip (bytes : List UInt8) :
    elementsToIvalues serde recordTypes (bytes.map fun b => .number (.ofInt b.toNat)) .u8 =
      .ok (bytes.map .u8) := by
  induction bytes with
  | nil =>
    rw [List.map_nil, elementsToIvalues]
    rfl
  | cons b bytes ih =>
    have htyped : IValue.HasType recordTypes (.u8 b) .u8 := .u8
    obtain ⟨j, hto, hof⟩ := scalar_roundTrip serde htyped rfl trivial
    cases hto
    rw [List.map_cons, elementsToIvalues, jvalueToIvalue_scalar serde recordTypes _ rfl, hof, ih]
    rfl

theorem record_roundTrip {id : Nat} {r : IRecordType} {vs : List IValue}
    (hrecord : recordTypes.lookup id = some r) (hlen : vs.length = r.fields.length)
    (hfields : HasDistinctFields r)
    (h : ∀ (i : Nat) v (f : IRecordFieldType), vs[i]? = some v → r.fields[i]? = some f →
      ∃ j, Survives serde recordTypes v f.ty j) :
    ∃ j, Survives serde recordTypes (.record vs) (.record id) j := by
  have hfresh : ∀ f ∈ r.fields, f.name ∉ ([] : List (String × JValue)).map Prod.fst :=
    fun f _ => List.not_mem_nil
  obtain ⟨entries, hto, hof⟩ := fields_roundTrip hlen hfields.2 h hfresh
  refine ⟨.object entries, ?_, ?_⟩
  · rw [ivalueToJson_record serde hrecord hlen]
    exact Fallible.bind_eq_ok_iff.mpr ⟨entries, hto, rfl⟩
  · rw [jvalueToIvalue_object serde hrecord]
    refine Fallible.bind_eq_ok_iff.mpr ⟨_, hof 0, ?_⟩
    cases vs with
    | nil => exact absurd (List.eq_nil_of_length_eq_zero hlen.symm) hfields.1
    | cons v vs => rfl

variable (serde) in
/-- **One value comes back.**  The induction is on its typing. -/
theorem ivalueToJson_roundTrip {v : IValue} {ty : IType} (h : v.HasType recordTypes ty)
    (hty : Reversible recordTypes ty) :
    ∃ j, Survives serde recordTypes v ty j := by
  have hscalar : ∀ {v ty}, isScalarType ty → v.HasType recordTypes ty →
      IsReversible recordTypes ty → ∃ j, Survives serde recordTypes v ty j := by
    intro v ty hscalar h hty
    obtain ⟨j, hto, hof⟩ := scalar_roundTrip serde h hscalar hty
    refine ⟨j, ?_, ?_⟩
    · rw [ivalueToJson_scalar serde recordTypes hscalar, hto]
    · rw [jvalueToIvalue_scalar serde recordTypes j hscalar, hof]
  induction h with
  | @byteArray bytes =>
    refine ⟨_, rfl, ?_⟩
    rw [jvalueToIvalue_byteArray, bytes_roundTrip]
    rfl
  | @u8Bytes bytes =>
    refine ⟨.array (bytes.map fun b => .number (.ofInt b.toNat)), ?_, ?_⟩
    · refine Fallible.bind_eq_ok_iff.mpr ⟨_, Fallible.mapM_eq_ok_iff.mpr ?_, rfl⟩
      rw [List.forall₂_map_right_iff, List.forall₂_same]
      exact fun b _ => rfl
    · rw [jvalueToIvalue_array, bytes_roundTrip]
      rfl
  | bytesU8 _ ih =>
    obtain ⟨js, hto, hof⟩ := elements_roundTrip fun v hv => ih v hv reversible_u8
    refine ⟨.array js, Fallible.bind_eq_ok_iff.mpr ⟨js, hto, rfl⟩, ?_⟩
    rw [jvalueToIvalue_byteArray, hof]
    rfl
  | array _ ih =>
    obtain ⟨js, hto, hof⟩ := elements_roundTrip fun v hv => ih v hv hty.elem
    refine ⟨.array js, Fallible.bind_eq_ok_iff.mpr ⟨js, hto, rfl⟩, ?_⟩
    rw [jvalueToIvalue_array, hof]
    rfl
  | record hrecord hlen _ ih =>
    obtain ⟨hdistinct, hfields⟩ := (reversible_record_iff hrecord).mp hty
    refine record_roundTrip hrecord hlen hdistinct fun i v f hv hf => ?_
    exact ih i v f hv hf (hfields f (List.mem_of_getElem? hf))
  | _ => exact hscalar rfl (by constructor) hty.self

variable (serde recordTypes) in
/-- The JSON form of a result, given as the only positional argument of the
same type, is read as the same value with its byte arrays unpacked. -/
def RoundTrips (v : IValue) (ty : IType) : Prop :=
  ∃ j, ivaluesToJson serde [v] [ty] recordTypes = .ok j ∧
    ∀ name, jsonToIvalues serde (.array [j]) [⟨name, ty⟩] recordTypes = .ok [unpacked v]

theorem jsonToIvalues_one (j : JValue) (name : String) (ty : IType) :
    jsonToIvalues serde (.array [j]) [⟨name, ty⟩] recordTypes =
      (jvalueToIvalue serde recordTypes j ty >>= fun v => .ok [v]) := by
  show jsonArrayToIvalues serde recordTypes [j] [ty] = _
  rw [jsonArrayToIvalues, if_neg (by simp), zippedToIvalues, zippedToIvalues]
  · rfl
  · simp

theorem roundTrips_iff {v : IValue} {ty : IType} :
    RoundTrips serde recordTypes v ty ↔ ∃ j, Survives serde recordTypes v ty j := by
  simp only [RoundTrips, Survives, jsonToIvalues_one]
  refine exists_congr fun j => and_congr_right fun _ => ⟨fun h => ?_, fun h _ => ?_⟩
  · obtain ⟨v', hv', heq⟩ := Fallible.bind_eq_ok_iff.mp (h "")
    cases heq
    exact hv'
  · rw [h]
    rfl

variable (serde) in
/-- **JSON round trip.** -/
theorem json_roundTrip {v : IValue} {ty : IType}
    (hrecords : ∀ id r, recordTypes.lookup id = some r → HasDistinctFields r)
    (h : v.HasType recordTypes ty) (hfloat : NoFloats recordTypes ty) :
    RoundTrips serde recordTypes v ty :=
  roundTrips_iff.mpr (ivalueToJson_roundTrip serde h (reversible_of_noFloats hrecords hfloat))

end RoundTrip

/-- `struct Blob { tag: string, data: []u8 }`. -/
def blobTypes : RecordTypes :=
  (∅ : RecordTypes).insert 6 ⟨"Blob", [⟨"tag", .string⟩, ⟨"data", .byteArray⟩]⟩

theorem blobTypes_lookup {id : Nat} {r : IRecordType} (h : blobTypes.lookup id = some r) :
    r = ⟨"Blob", [⟨"tag", .string⟩, ⟨"data", .byteArray⟩]⟩ := by
  by_cases hid : id = 6
  · subst hid
    rw [blobTypes, AList.lookup_insert] at h
    exact (Option.some.inj h).symm
  · rw [blobTypes, AList.lookup_insert_ne hid] at h
    cases h

theorem blobTypes_noFloats : NoFloats blobTypes (.array (.record 6)) := by
  have hleaf : ∀ ty : IType, Loader.innerTypes blobTypes ty = [] → ty ≠ .f32 ∧ ty ≠ .f64 →
      NoFloats blobTypes ty := by
    intro ty hnone hno n inner hp
    cases hp with
    | here => exact hno
    | step hinner =>
      rw [hnone] at hinner
      cases hinner
  have hfields : Loader.innerTypes blobTypes (.record 6) = [(.string, 2), (.byteArray, 2)] := rfl
  have hrecord : NoFloats blobTypes (.record 6) := by
    refine Walks.Path.forall_iff.mpr ⟨by decide, fun inner w hinner n c hp => ?_⟩
    rw [hfields] at hinner
    simp only [List.mem_cons, List.not_mem_nil, or_false, Prod.mk.injEq] at hinner
    rcases hinner with ⟨rfl, rfl⟩ | ⟨rfl, rfl⟩
    · exact hleaf .string rfl (by decide) n c hp
    · exact hleaf .byteArray rfl (by decide) n c hp
  refine Walks.Path.forall_iff.mpr ⟨by decide, fun inner w hinner n c hp => ?_⟩
  cases List.mem_singleton.mp hinner
  exact hrecord n c hp

theorem json_roundTrip_blobs :
    RoundTrips plainSerde blobTypes (.array [.record [.string "a", .byteArray [1, 2]]])
      (.array (.record 6)) := by
  refine json_roundTrip plainSerde (fun id r h => ?_) ?_ blobTypes_noFloats
  · rw [blobTypes_lookup h]
    exact ⟨by simp, by simp⟩
  · refine .array fun v hv => ?_
    cases List.mem_singleton.mp hv
    refine .record rfl rfl fun i v f hv hf => ?_
    rcases i with _ | _ | i
    · cases hv
      cases hf
      exact .string
    · cases hv
      cases hf
      exact .byteArray
    · cases hv

end Marine.Json
