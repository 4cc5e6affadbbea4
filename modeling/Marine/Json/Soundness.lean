import Marine.Json.Converters
import Marine.Lib.Fallible

/-!
# Type soundness of JSON arguments

Every value that `json_to_ivalues` makes has the type it was asked for, and can
be converted back.

* `jvalueToIvalue_typed`: one value; the induction is on the size of the JSON.
* `ivalueToJson_ok`: a value of a type has a JSON form.
* `json_args_typed`: the arguments of a call.
-/

namespace Marine.Json

open Marine.Runtime

section Soundness

variable {serde : SerdeJson} {recordTypes : RecordTypes}

/-! ## One value -/

theorem intType_typed {ty : IType} {lo hi : Int} {make : Int → IValue}
    (h : intType ty = some (lo, hi, make)) (i : Int) : (make i).HasType recordTypes ty := by
  cases ty <;> cases h <;> constructor

theorem fromValue_typed {ty : IType} {j : JValue} {v : IValue}
    (h : serde.fromValue ty j = some v) : v.HasType recordTypes ty := by
  unfold SerdeJson.fromValue at h
  split at h
  · obtain ⟨b, -, rfl⟩ := Option.map_eq_some_iff.mp h
    exact .boolean
  · obtain ⟨bits, -, rfl⟩ := Option.map_eq_some_iff.mp h
    exact .f32
  · obtain ⟨bits, -, rfl⟩ := Option.map_eq_some_iff.mp h
    exact .f64
  · obtain ⟨s, -, rfl⟩ := Option.map_eq_some_iff.mp h
    exact .string
  · obtain ⟨⟨lo, hi, make⟩, hint, h⟩ := Option.bind_eq_some_iff.mp h
    obtain ⟨i, -, rfl⟩ := Option.map_eq_some_iff.mp h
    exact intType_typed hint i

theorem toIvalue_typed {ty : IType} {j : JValue} {v : IValue} (h : toIvalue serde ty j = .ok v) :
    v.HasType recordTypes ty := by
  unfold toIvalue at h
  split at h
  · rename_i value hvalue
    cases h
    exact fromValue_typed hvalue
  · cases h

theorem recordOfFields_ok {vs : List IValue} {v : IValue} (h : recordOfFields vs = .ok v) :
    v = .record vs := by
  cases vs with
  | nil => cases h
  | cons a vs =>
    cases h
    rfl

theorem hasType_record {id : Nat} {recordType : IRecordType} {vs : List IValue}
    (hrecord : recordTypes.lookup id = some recordType)
    (h : List.Forall₂ (fun (field : IRecordFieldType) v => IValue.HasType recordTypes v field.ty)
      recordType.fields vs) : IValue.HasType recordTypes (.record vs) (.record id) := by
  refine .record hrecord h.length_eq.symm fun i v field hv hfield => ?_
  obtain ⟨hi, hvi⟩ := List.getElem?_eq_some_iff.mp hv
  obtain ⟨hi', hfi⟩ := List.getElem?_eq_some_iff.mp hfield
  have hat := List.Forall₂.get h hi' hi
  simp only [List.get_eq_getElem, hvi, hfi] at hat
  exact hat

/-- **Map loop.**  What is taken out of the map is converted at the types of the arguments. -/
theorem jsonMapToIvalues_typed {jsonMap : List (String × JValue)} {argTypes : List FunctionArg}
    {done : Nat} {vs : List IValue}
    (hconv : ∀ p ∈ jsonMap, ∀ ty v, jvalueToIvalue serde recordTypes p.2 ty = .ok v →
      v.HasType recordTypes ty)
    (h : jsonMapToIvalues serde recordTypes jsonMap argTypes done = .ok vs) :
    List.Forall₂ (fun arg v => IValue.HasType recordTypes v arg.ty) argTypes vs := by
  induction argTypes generalizing jsonMap done vs with
  | nil =>
    obtain ⟨-, rfl⟩ := jsonMapToIvalues_nil_ok h
    exact .nil
  | cons arg argTypes ih =>
    obtain ⟨jsonValue, rest, v, vs', hremove, hv, hvs', rfl⟩ := jsonMapToIvalues_cons_ok h
    obtain ⟨hmem, hrest⟩ := removeEntry_mem hremove
    exact .cons (hconv _ hmem _ _ hv) (ih (fun p hp => hconv p (hrest p hp)) hvs')

/-- **Array loop.** -/
theorem jsonArrayToIvalues_typed {jsonArray : List JValue} {argTypes : List IType}
    {vs : List IValue}
    (hconv : ∀ j ∈ jsonArray, ∀ ty v, jvalueToIvalue serde recordTypes j ty = .ok v →
      v.HasType recordTypes ty)
    (h : jsonArrayToIvalues serde recordTypes jsonArray argTypes = .ok vs) :
    List.Forall₂ (fun ty v => IValue.HasType recordTypes v ty) argTypes vs := by
  rw [jsonArrayToIvalues] at h
  split at h
  · cases h
  · rename_i hlen
    have hlen' : jsonArray.length = argTypes.length := not_not.mp hlen
    clear hlen
    induction argTypes generalizing jsonArray vs with
    | nil =>
      have hnil := List.eq_nil_of_length_eq_zero hlen'
      subst hnil
      rw [zippedToIvalues.eq_def] at h
      cases h
      exact .nil
    | cons ty argTypes ih =>
      cases jsonArray with
      | nil => cases hlen'
      | cons j jsonArray =>
        rw [zippedToIvalues] at h
        obtain ⟨v, hv, h⟩ := Fallible.bind_eq_ok_iff.mp h
        obtain ⟨vs', hvs', h⟩ := Fallible.bind_eq_ok_iff.mp h
        cases h
        exact .cons (hconv j (List.mem_cons_self ..) ty v hv)
          (ih (fun j' hj' => hconv j' (List.mem_cons_of_mem j hj')) hvs' (Nat.succ.inj hlen'))

theorem elementsToIvalues_typed {js : List JValue} {ty : IType} {vs : List IValue}
    (hconv : ∀ j ∈ js, ∀ v, jvalueToIvalue serde recordTypes j ty = .ok v →
      v.HasType recordTypes ty)
    (h : elementsToIvalues serde recordTypes js ty = .ok vs) :
    ∀ v ∈ vs, v.HasType recordTypes ty := by
  intro v hv
  rw [elementsToIvalues_eq] at h
  obtain ⟨j, hj, hvalue⟩ := Fallible.exists_of_mem_mapM h hv
  exact hconv j hj v hvalue

/-- **Records.**  They come from an object or from an array of the fields. -/
theorem recordFromJson_typed {j : JValue} {id : Nat} {v : IValue}
    (hconv : ∀ j', sizeOf j' < sizeOf j → ∀ ty v, jvalueToIvalue serde recordTypes j' ty = .ok v →
      v.HasType recordTypes ty)
    (h : jvalueToIvalue serde recordTypes j (.record id) = .ok v) :
    v.HasType recordTypes (.record id) := by
  cases hrecord : recordTypes.lookup id with
  | none =>
    rw [jvalueToIvalue] at h
    simp only [hrecord] at h
    cases h
  | some recordType =>
    cases j with
    | object jsonMap =>
      rw [jvalueToIvalue_object serde hrecord] at h
      obtain ⟨vs, hvs, h⟩ := Fallible.bind_eq_ok_iff.mp h
      rw [recordOfFields_ok h]
      have hall := jsonMapToIvalues_typed (fun p hp => by
        have hlt := List.sizeOf_lt_of_mem hp
        apply hconv
        obtain ⟨key, value⟩ := p
        simp at hlt ⊢
        omega) hvs
      rw [List.forall₂_map_left_iff] at hall
      exact hasType_record hrecord hall
    | array js =>
      rw [jvalueToIvalue_fieldArray serde hrecord] at h
      obtain ⟨vs, hvs, h⟩ := Fallible.bind_eq_ok_iff.mp h
      rw [recordOfFields_ok h]
      have hall := jsonArrayToIvalues_typed (fun j' hj' => by
        have hlt := List.sizeOf_lt_of_mem hj'
        apply hconv
        simp
        omega) hvs
      rw [List.forall₂_map_left_iff] at hall
      exact hasType_record hrecord hall
    | _ =>
      rw [jvalueToIvalue.eq_def] at h
      simp only [hrecord] at h
      cases h

/-- **Soundness of one value.**  The induction is on the size of the JSON value. -/
theorem jvalueToIvalue_typed {j : JValue} {ty : IType} {v : IValue}
    (h : jvalueToIvalue serde recordTypes j ty = .ok v) : v.HasType recordTypes ty := by
  induction hsize : sizeOf j using Nat.strongRecOn generalizing j ty v with
  | _ n ih =>
    have hinner : ∀ j', sizeOf j' < sizeOf j → ∀ ty v,
        jvalueToIvalue serde recordTypes j' ty = .ok v → v.HasType recordTypes ty := by
      intro j' hlt ty' v' hv'
      exact ih (sizeOf j') (hsize ▸ hlt) hv' rfl
    have helems : ∀ js ty vs, j = .array js → elementsToIvalues serde recordTypes js ty = .ok vs →
        ∀ v ∈ vs, v.HasType recordTypes ty := by
      rintro js ty vs rfl hvs
      refine elementsToIvalues_typed (fun j' hj' => hinner j' ?_ ty) hvs
      have hlt := List.sizeOf_lt_of_mem hj'
      simp
      omega
    by_cases hscalar : isScalarType ty
    · rw [jvalueToIvalue_scalar serde recordTypes j hscalar] at h
      exact toIvalue_typed h
    · cases ty with
      | byteArray =>
        cases j with
        | array js =>
          rw [jvalueToIvalue_byteArray] at h
          obtain ⟨vs, hvs, h⟩ := Fallible.bind_eq_ok_iff.mp h
          cases h
          exact .bytesU8 (helems js .u8 vs rfl hvs)
        | _ =>
          rw [jvalueToIvalue.eq_def] at h
          cases h
      | array elem =>
        cases j with
        | array js =>
          rw [jvalueToIvalue_array] at h
          obtain ⟨vs, hvs, h⟩ := Fallible.bind_eq_ok_iff.mp h
          cases h
          exact .array (helems js elem vs rfl hvs)
        | _ =>
          rw [jvalueToIvalue.eq_def] at h
          cases h
      | record id => exact recordFromJson_typed hinner h
      | _ => exact absurd rfl hscalar

/-! ## And back -/

theorem arrayToJson_ok {vs : List IValue} {ty : IType}
    (h : ∀ v ∈ vs, ∃ j, ivalueToJson serde recordTypes v ty = .ok j) :
    ∃ js, arrayToJson serde recordTypes vs ty = .ok js := by
  rw [arrayToJson_eq]
  exact Fallible.exists_mapM_ok h

theorem fieldsToJson_ok {vs : List IValue} {fields : List IRecordFieldType}
    (h : ∀ (i : Nat) v (f : IRecordFieldType), vs[i]? = some v → fields[i]? = some f →
      ∃ j, ivalueToJson serde recordTypes v f.ty = .ok j) (result : List (String × JValue)) :
    ∃ entries, fieldsToJson serde recordTypes vs fields result = .ok entries := by
  induction vs generalizing fields result with
  | nil => exact ⟨result, rfl⟩
  | cons v vs ih =>
    cases fields with
    | nil => exact ⟨result, rfl⟩
    | cons field fields =>
      obtain ⟨j, hj⟩ := h 0 v field rfl rfl
      obtain ⟨entries, hentries⟩ := ih (fun i v f hv hf => h (i + 1) v f hv hf)
        (insertEntry result field.name j)
      exact ⟨entries, Fallible.bind_eq_ok_iff.mpr ⟨j, hj, hentries⟩⟩

/-- **Values of a type have a JSON form.** -/
theorem ivalueToJson_ok {v : IValue} {ty : IType} (h : v.HasType recordTypes ty) :
    ∃ j, ivalueToJson serde recordTypes v ty = .ok j := by
  induction h with
  | byteArray => exact ⟨_, rfl⟩
  | @u8Bytes v =>
    obtain ⟨js, hjs⟩ := Fallible.exists_mapM_ok (l := v)
      (f := fun b => scalarToJson serde (.u8 b) .u8) fun b _ => ⟨_, rfl⟩
    exact ⟨.array js, Fallible.bind_eq_ok_iff.mpr ⟨js, hjs, rfl⟩⟩
  | bytesU8 _ ih =>
    obtain ⟨js, hjs⟩ := arrayToJson_ok ih
    exact ⟨.array js, Fallible.bind_eq_ok_iff.mpr ⟨js, hjs, rfl⟩⟩
  | array _ ih =>
    obtain ⟨js, hjs⟩ := arrayToJson_ok ih
    exact ⟨.array js, Fallible.bind_eq_ok_iff.mpr ⟨js, hjs, rfl⟩⟩
  | @record fields id r hrecord hlen _ ih =>
    obtain ⟨entries, hentries⟩ := fieldsToJson_ok ih []
    refine ⟨.object entries, ?_⟩
    rw [ivalueToJson_record serde hrecord hlen]
    exact Fallible.bind_eq_ok_iff.mpr ⟨entries, hentries, rfl⟩
  | _ => exact ⟨_, rfl⟩

/-! ## The arguments of a call -/

/-- More records give no fewer values. -/
theorem hasType_mono {recordTypes' : RecordTypes}
    (hmono : ∀ id r, recordTypes.lookup id = some r → recordTypes'.lookup id = some r)
    {v : IValue} {ty : IType} (h : v.HasType recordTypes ty) : v.HasType recordTypes' ty := by
  induction h with
  | bytesU8 _ ih => exact .bytesU8 ih
  | array _ ih => exact .array ih
  | record hrecord hlen _ ih => exact .record (hmono _ _ hrecord) hlen ih
  | _ => constructor

/-- **Type soundness.**  Where the conversion of JSON arguments succeeds, it
gives one value for each argument, in their order and of their types, and each
value can be converted back. -/
theorem json_args_typed {j : JValue} {argTypes : List FunctionArg} {vs : List IValue}
    (h : jsonToIvalues serde j argTypes recordTypes = .ok vs) :
    List.Forall₂ (fun arg v => IValue.HasType recordTypes v arg.ty ∧
      ∃ j', ivalueToJson serde recordTypes v arg.ty = .ok j') argTypes vs := by
  have hscalar : ∀ j, jsonValueToIvalues serde j argTypes = .ok vs →
      List.Forall₂ (fun arg v => IValue.HasType recordTypes v arg.ty) argTypes vs := by
    intro j h
    unfold jsonValueToIvalues at h
    split at h
    · obtain ⟨v, hv, h⟩ := Fallible.bind_eq_ok_iff.mp h
      cases h
      -- no record of the empty table is lost
      exact .cons (hasType_mono (fun id r hr => by cases hr) (jvalueToIvalue_typed hv)) .nil
    · cases h
  have htyped : List.Forall₂ (fun arg v => IValue.HasType recordTypes v arg.ty) argTypes vs := by
    unfold jsonToIvalues at h
    split at h
    · exact jsonMapToIvalues_typed (fun _ _ _ _ hv => jvalueToIvalue_typed hv) h
    · have hall := jsonArrayToIvalues_typed (fun _ _ _ _ hv => jvalueToIvalue_typed hv) h
      rwa [List.forall₂_map_left_iff] at hall
    · unfold jsonNullToIvalues at h
      split at h
      · cases h
        exact .nil
      · cases h
    · exact hscalar _ h
  exact htyped.imp fun arg v hv => ⟨hv, ivalueToJson_ok hv⟩

end Soundness

variable {recordTypes : RecordTypes}

/-- Texts and floats that play no part: floats are read as zero. -/
def plainSerde : SerdeJson where
  f32ToJson _ := .null
  f64ToJson _ := .null
  boolFromValue
    | .bool b => some b
    | _ => none
  intFromValue lo hi
    | .number n => n.intIn lo hi
    | _ => none
  f32FromValue
    | .number _ => some 0
    | _ => none
  f64FromValue
    | .number _ => some 0
    | _ => none
  stringFromValue
    | .string s => some s
    | _ => none
  fromValueError _ _ := ""
  debugJson _ := ""
  debugArgs _ := ""
  debugType _ := ""
  debugTypes _ := ""
  debugFields _ := ""
  debugValue _ := ""
  debugValues _ := ""
  boolFromValue_bool _ := rfl
  intFromValue_number _ _ _ := rfl
  stringFromValue_string _ := rfl

/-- `{"flags": [true, [false]], "size": [7]}` for arguments `flags: []bool` and `size: u8`. -/
def flagsArgs : JValue :=
  .object [("flags", .array [.bool true, .array [.bool false]]),
    ("size", .array [.number (.posInt 7)])]

theorem json_args_typed_flags :
    jsonToIvalues plainSerde flagsArgs [⟨"flags", .array .boolean⟩, ⟨"size", .u8⟩] ∅ =
      .ok [.array [.boolean true, .boolean false], .u8 7] ∧
    List.Forall₂ (fun (arg : FunctionArg) v => IValue.HasType ∅ v arg.ty ∧
      ∃ j', ivalueToJson plainSerde ∅ v arg.ty = .ok j')
      [⟨"flags", .array .boolean⟩, ⟨"size", .u8⟩]
      [.array [.boolean true, .boolean false], .u8 7] := by
  have h : jsonToIvalues plainSerde flagsArgs [⟨"flags", .array .boolean⟩, ⟨"size", .u8⟩] ∅ =
      .ok [.array [.boolean true, .boolean false], .u8 7] := by
    rw [flagsArgs, jsonToIvalues, jsonMapToIvalues_cons rfl, jsonMapToIvalues_cons rfl]
    simp only [jvalueToIvalue, elementsToIvalues, jsonMapToIvalues]
    rfl
  exact ⟨h, json_args_typed h⟩

end Marine.Json
