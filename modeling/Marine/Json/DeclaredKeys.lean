import Marine.Json.Panics
import Marine.Json.Records

/-!
# Objects with declared keys

`json_to_ivalues` takes the arguments of a call, and the fields of a record, out
of an object by their names.

* `members_converted`: every declared member is converted, whatever the order of
  the keys.
* `jsonToIvalues_names`: no object of an accepted value has a key too few or too
  many.
-/

namespace Marine.Json

open Marine.Runtime

/-! ## Objects of named values -/

/-- The fields of a record as they are looked up in an object. -/
def fieldArgs (recordType : IRecordType) : List FunctionArg :=
  recordType.fields.map fun field => ⟨field.name, field.ty⟩

theorem map_ty_fieldArgs (recordType : IRecordType) :
    (fieldArgs recordType).map FunctionArg.ty = recordType.fields.map IRecordFieldType.ty := by
  rw [fieldArgs, List.map_map]
  rfl

def argNames (args : List FunctionArg) : List String := args.map FunctionArg.name

/-- A map has each key once; its keys are the declared ones. -/
def HasDeclaredKeys (jsonMap : List (String × JValue)) (args : List FunctionArg) : Prop :=
  (jsonMap.map Prod.fst).Nodup ∧ ∀ name, name ∈ jsonMap.map Prod.fst ↔ name ∈ argNames args

/-- A declared key is missing, or there is another one. -/
def HasOtherKeys (jsonMap : List (String × JValue)) (args : List FunctionArg) : Prop :=
  (∃ name ∈ argNames args, name ∉ jsonMap.map Prod.fst) ∨
    ∃ name ∈ jsonMap.map Prod.fst, name ∉ argNames args

mutual

/-- The object `jsonMap` stands, inside a value of a type, where the fields
`args` are looked up. -/
inductive Stands (recordTypes : RecordTypes) :
    JValue → IType → List (String × JValue) → List FunctionArg → Prop
  | record {j : JValue} {id : Nat} {recordType : IRecordType} {jsonMap : List (String × JValue)}
      {args : List FunctionArg} : recordTypes.lookup id = some recordType →
      StandsInArgs recordTypes j (fieldArgs recordType) jsonMap args →
      Stands recordTypes j (.record id) jsonMap args
  | element {js : List JValue} {j : JValue} {ty : IType} {jsonMap : List (String × JValue)}
      {args : List FunctionArg} : j ∈ js → Stands recordTypes j ty jsonMap args →
      Stands recordTypes (.array js) (.array ty) jsonMap args

/-- The same inside an argument list. -/
inductive StandsInArgs (recordTypes : RecordTypes) :
    JValue → List FunctionArg → List (String × JValue) → List FunctionArg → Prop
  | here (jsonMap : List (String × JValue)) (args : List FunctionArg) :
      StandsInArgs recordTypes (.object jsonMap) args jsonMap args
  | named {entries : List (String × JValue)} {declared : List FunctionArg} {arg : FunctionArg}
      {j : JValue} {jsonMap : List (String × JValue)} {args : List FunctionArg} :
      arg ∈ declared → entries.lookup arg.name = some j →
      Stands recordTypes j arg.ty jsonMap args →
      StandsInArgs recordTypes (.object entries) declared jsonMap args
  | positional {js : List JValue} {declared : List FunctionArg} {arg : FunctionArg} {j : JValue}
      {jsonMap : List (String × JValue)} {args : List FunctionArg} :
      (j, arg) ∈ js.zip declared → Stands recordTypes j arg.ty jsonMap args →
      StandsInArgs recordTypes (.array js) declared jsonMap args

end

theorem lookup_sizeOf {entries : List (String × JValue)} {name : String} {j : JValue}
    (h : entries.lookup name = some j) : sizeOf j < sizeOf entries := by
  induction entries with
  | nil => cases h
  | cons p entries ih =>
    obtain ⟨key, value⟩ := p
    rw [List.lookup_cons] at h
    split at h
    · cases h
      simp
      omega
    · have hlt := ih h
      simp
      omega

/-! ## Taking members out of an object -/

theorem removeEntry_isSome_iff {entries : List (String × JValue)} {key : String} :
    (removeEntry entries key).isSome ↔ key ∈ entries.map Prod.fst := by
  induction entries with
  | nil => simp [removeEntry]
  | cons p entries ih =>
    obtain ⟨key', value⟩ := p
    unfold removeEntry
    by_cases hkey : key' = key
    · simp [hkey]
    · rw [if_neg hkey]
      simp [ih, Ne.symm hkey]

theorem lookup_of_removeEntry {entries rest : List (String × JValue)} {key : String} {j : JValue}
    (h : removeEntry entries key = some (j, rest)) : entries.lookup key = some j := by
  induction entries generalizing rest with
  | nil => cases h
  | cons p entries ih =>
    obtain ⟨key', value⟩ := p
    unfold removeEntry at h
    by_cases hkey : key' = key
    · rw [if_pos hkey] at h
      cases h
      simp [hkey]
    · rw [if_neg hkey] at h
      obtain ⟨⟨v, r⟩, hrest, heq⟩ := Option.map_eq_some_iff.mp h
      cases heq
      have hother : (key == key') = false := beq_eq_false_iff_ne.mpr (Ne.symm hkey)
      rw [List.lookup_cons, hother]
      exact ih hrest

theorem lookup_rest {entries rest : List (String × JValue)} {key name : String} {j : JValue}
    (h : removeEntry entries key = some (j, rest)) (hname : name ≠ key) :
    rest.lookup name = entries.lookup name := by
  induction entries generalizing rest with
  | nil => cases h
  | cons p entries ih =>
    obtain ⟨key', value⟩ := p
    unfold removeEntry at h
    by_cases hkey : key' = key
    · rw [if_pos hkey] at h
      cases h
      have hother : (name == key') = false := beq_eq_false_iff_ne.mpr (hkey ▸ hname)
      rw [List.lookup_cons, hother]
    · rw [if_neg hkey] at h
      obtain ⟨⟨v, r⟩, hrest, heq⟩ := Option.map_eq_some_iff.mp h
      cases heq
      rw [List.lookup_cons, List.lookup_cons, ih hrest]

/-! ## What is accepted has the declared keys -/

def DistinctNames (args : List FunctionArg) : Prop := (argNames args).Nodup

/-- No record has two fields of one name. -/
def DistinctFields (recordTypes : RecordTypes) : Prop :=
  ∀ id recordType, recordTypes.lookup id = some recordType → DistinctNames (fieldArgs recordType)

section Accepted

variable {serde : SerdeJson} {recordTypes : RecordTypes}

theorem not_hasOtherKeys_of_ok {jsonMap : List (String × JValue)} {args : List FunctionArg}
    {done : Nat} {vs : List IValue}
    (h : jsonMapToIvalues serde recordTypes jsonMap args done = .ok vs) :
    ¬ HasOtherKeys jsonMap args := by
  have hperm := jsonMapToIvalues_names h
  rintro (⟨name, hdeclared, hmissing⟩ | ⟨name, hkey, hextra⟩)
  · exact hmissing (hperm.mem_iff.mpr hdeclared)
  · exact hextra (hperm.mem_iff.mp hkey)

/-- **Map loop.**  Every declared member is converted. -/
theorem members_converted {jsonMap : List (String × JValue)} {args : List FunctionArg}
    {done : Nat} {vs : List IValue} (hnames : DistinctNames args)
    (h : jsonMapToIvalues serde recordTypes jsonMap args done = .ok vs) :
    ∀ arg ∈ args, ∀ j, jsonMap.lookup arg.name = some j →
      ∃ v, jvalueToIvalue serde recordTypes j arg.ty = .ok v := by
  induction args generalizing jsonMap done vs with
  | nil =>
    intro arg harg
    cases harg
  | cons arg args ih =>
    obtain ⟨jsonValue, rest, v, vs', hremove, hv, hvs', -⟩ := jsonMapToIvalues_cons_ok h
    obtain ⟨hnew, hnames⟩ := List.nodup_cons.mp hnames
    intro arg' harg' j hj
    rcases List.mem_cons.mp harg' with rfl | harg'
    · rw [lookup_of_removeEntry hremove] at hj
      cases hj
      exact ⟨v, hv⟩
    · have hne : arg'.name ≠ arg.name := by
        intro hsame
        exact hnew (hsame ▸ List.mem_map_of_mem harg')
      rw [← lookup_rest hremove hne] at hj
      exact ih hnames hvs' arg' harg' j hj

/-- **Array loop.** -/
theorem elements_converted {js : List JValue} {args : List FunctionArg} {vs : List IValue}
    (h : zippedToIvalues serde recordTypes js (args.map FunctionArg.ty) = .ok vs) :
    ∀ p ∈ js.zip args, ∃ v, jvalueToIvalue serde recordTypes p.1 p.2.ty = .ok v := by
  induction js generalizing args vs with
  | nil =>
    intro p hp
    cases hp
  | cons j js ih =>
    cases args with
    | nil =>
      intro p hp
      cases hp
    | cons arg args =>
      rw [List.map_cons, zippedToIvalues] at h
      obtain ⟨v, hv, h⟩ := Fallible.bind_eq_ok_iff.mp h
      obtain ⟨vs', hvs', -⟩ := Fallible.bind_eq_ok_iff.mp h
      intro p hp
      rcases List.mem_cons.mp hp with rfl | hp
      · exact ⟨v, hv⟩
      · exact ih hvs' p hp

/-- What converts has the declared keys in all of its objects. -/
def KeysMatch (serde : SerdeJson) (recordTypes : RecordTypes) (j : JValue) : Prop :=
  ∀ ty v jsonMap args, jvalueToIvalue serde recordTypes j ty = .ok v →
    Stands recordTypes j ty jsonMap args → ¬ HasOtherKeys jsonMap args

theorem keysMatch_object {entries : List (String × JValue)} {declared : List FunctionArg}
    {done : Nat} {vs : List IValue} (hnames : DistinctNames declared)
    (hinner : ∀ j, sizeOf j < sizeOf (JValue.object entries) → KeysMatch serde recordTypes j)
    (h : jsonMapToIvalues serde recordTypes entries declared done = .ok vs)
    {jsonMap : List (String × JValue)} {args : List FunctionArg}
    (hstands : StandsInArgs recordTypes (.object entries) declared jsonMap args) :
    ¬ HasOtherKeys jsonMap args := by
  cases hstands with
  | here => exact not_hasOtherKeys_of_ok h
  | @named _ _ arg j _ _ harg hmember hstands =>
    obtain ⟨v, hv⟩ := members_converted hnames h arg harg j hmember
    have hlt : sizeOf j < sizeOf (JValue.object entries) := by
      have hmember := lookup_sizeOf hmember
      simp
      omega
    exact hinner j hlt arg.ty v _ _ hv hstands

theorem keysMatch_array {js : List JValue} {declared : List FunctionArg} {vs : List IValue}
    (hinner : ∀ j, sizeOf j < sizeOf (JValue.array js) → KeysMatch serde recordTypes j)
    (h : jsonArrayToIvalues serde recordTypes js (declared.map FunctionArg.ty) = .ok vs)
    {jsonMap : List (String × JValue)} {args : List FunctionArg}
    (hstands : StandsInArgs recordTypes (.array js) declared jsonMap args) :
    ¬ HasOtherKeys jsonMap args := by
  cases hstands with
  | @positional _ _ arg j _ _ hmem hstands =>
    rw [jsonArrayToIvalues] at h
    split at h
    · cases h
    · obtain ⟨v, hv⟩ := elements_converted h (j, arg) hmem
      have hlt : sizeOf j < sizeOf (JValue.array js) := by
        have hlt := List.sizeOf_lt_of_mem (List.of_mem_zip hmem).1
        simp
        omega
      exact hinner j hlt arg.ty v _ _ hv hstands

/-- **One value.**  The induction is on the size of the JSON value. -/
theorem keysMatch (hfields : DistinctFields recordTypes) (j : JValue) :
    KeysMatch serde recordTypes j := by
  induction hsize : sizeOf j using Nat.strongRecOn generalizing j with
  | _ n ih =>
    have hinner : ∀ j', sizeOf j' < sizeOf j → KeysMatch serde recordTypes j' :=
      fun j' hlt => ih (sizeOf j') (hsize ▸ hlt) j' rfl
    intro ty v jsonMap args hv hstands
    cases hstands with
    | @element js j' elem _ _ hmem hstands =>
      rw [jvalueToIvalue_array, elementsToIvalues_eq] at hv
      obtain ⟨vs, hvs, -⟩ := Fallible.bind_eq_ok_iff.mp hv
      obtain ⟨v', -, hv'⟩ := Fallible.exists_right_of_mem (Fallible.mapM_eq_ok_iff.mp hvs) hmem
      have hlt : sizeOf j' < sizeOf (JValue.array js) := by
        have hlt := List.sizeOf_lt_of_mem hmem
        simp
        omega
      exact hinner j' hlt elem v' _ _ hv' hstands
    | @record _ id recordType _ _ hrecord hstands =>
      cases j with
      | object entries =>
        rw [jvalueToIvalue_object serde hrecord] at hv
        obtain ⟨vs, hvs, -⟩ := Fallible.bind_eq_ok_iff.mp hv
        exact keysMatch_object (hfields id recordType hrecord) hinner hvs hstands
      | array js =>
        rw [jvalueToIvalue_fieldArray serde hrecord] at hv
        obtain ⟨vs, hvs, -⟩ := Fallible.bind_eq_ok_iff.mp hv
        rw [← map_ty_fieldArgs] at hvs
        exact keysMatch_array hinner hvs hstands
      | _ => cases hstands

/-- **Accepted arguments.** -/
theorem jsonToIvalues_names (hfields : DistinctFields recordTypes) {j : JValue}
    {args : List FunctionArg} (hnames : DistinctNames args) {vs : List IValue}
    (h : jsonToIvalues serde j args recordTypes = .ok vs)
    {jsonMap : List (String × JValue)} {args' : List FunctionArg}
    (hstands : StandsInArgs recordTypes j args jsonMap args') : ¬ HasOtherKeys jsonMap args' := by
  cases j with
  | object entries => exact keysMatch_object hnames (fun j _ => keysMatch hfields j) h hstands
  | array js => exact keysMatch_array (fun j _ => keysMatch hfields j) h hstands
  | _ => cases hstands

end Accepted

end Marine.Json
