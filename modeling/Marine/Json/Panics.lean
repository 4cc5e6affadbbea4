import Marine.Json.Soundness
import Marine.Loader.InterfaceClosure

/-!
# When the converters panic

Both converters have branches that panic.  Those of `json_to_ivalues` are out of
reach where every record has a field; `unimplemented!` of `ivalues_to_json` is
reached by a signature with several outputs, and the loader reads such
signatures.

* `jsonToIvalues_ne_panicked`: arguments.
* `ivaluesToJson_ne_panicked_iff`: results.
* `conversion_returns_iff`: both, for an interface that was read.
-/

namespace Marine.Json

open Marine.Runtime
open Marine.Loader

/-- `NEVec`: every record has a field. -/
def NonEmptyRecords (recordTypes : RecordTypes) : Prop :=
  ∀ id recordType, recordTypes.lookup id = some recordType → recordType.fields ≠ []

theorem ok_ne_panicked {α : Type} (a : α) : (.ok a : JsonResult α) ≠ .error .panicked := by
  intro h
  cases h

theorem De_ne_panicked {α : Type} (text : String) :
    (De text : JsonResult α) ≠ .error .panicked := by
  intro h
  cases h

theorem Se_ne_panicked {α : Type} (text : String) :
    (Se text : JsonResult α) ≠ .error .panicked := by
  intro h
  cases h

theorem bind_ok_ne_panicked {α β : Type} {x : JsonResult α} {f : α → β}
    (h : x ≠ .error .panicked) : (x >>= fun a => .ok (f a)) ≠ .error .panicked :=
  Fallible.bind_ne_error_iff.mpr ⟨h, fun a _ => ok_ne_panicked (f a)⟩

/-- One round of a loop. -/
theorem cons_ne_panicked {α : Type} {x : JsonResult α} {xs : JsonResult (List α)}
    (h : x ≠ .error .panicked) (hs : xs ≠ .error .panicked) :
    (x >>= fun a => xs >>= fun as => .ok (a :: as)) ≠ .error .panicked :=
  Fallible.bind_ne_error_iff.mpr ⟨h, fun _ _ => bind_ok_ne_panicked hs⟩

theorem mapM_ne_panicked {α β : Type} {f : α → JsonResult β} {l : List α}
    (h : ∀ a ∈ l, f a ≠ .error .panicked) : l.mapM f ≠ .error .panicked := by
  induction l with
  | nil => exact ok_ne_panicked _
  | cons a l ih =>
    rw [List.mapM_cons]
    exact cons_ne_panicked (h a List.mem_cons_self) (ih fun b hb => h b (List.mem_cons_of_mem a hb))

/-! ## Arguments -/

section Arguments

variable {serde : SerdeJson} {recordTypes : RecordTypes}

theorem toIvalue_ne_panicked (ty : IType) (j : JValue) :
    toIvalue serde ty j ≠ .error .panicked := by
  unfold toIvalue
  split
  · exact ok_ne_panicked _
  · exact De_ne_panicked _

/-- **Map loop.** -/
theorem jsonMapToIvalues_ne_panicked {jsonMap : List (String × JValue)}
    {argTypes : List FunctionArg} {done : Nat}
    (hconv : ∀ p ∈ jsonMap, ∀ ty, jvalueToIvalue serde recordTypes p.2 ty ≠ .error .panicked) :
    jsonMapToIvalues serde recordTypes jsonMap argTypes done ≠ .error .panicked := by
  induction argTypes generalizing jsonMap done with
  | nil =>
    rw [jsonMapToIvalues]
    split
    · exact ok_ne_panicked _
    · exact De_ne_panicked _
  | cons arg argTypes ih =>
    cases hremove : removeEntry jsonMap arg.name with
    | none =>
      rw [jsonMapToIvalues_missing hremove]
      exact De_ne_panicked _
    | some p =>
      obtain ⟨hmem, hrest⟩ := removeEntry_mem hremove
      rw [jsonMapToIvalues_cons hremove]
      exact cons_ne_panicked (hconv _ hmem arg.ty) (ih fun q hq => hconv q (hrest q hq))

/-- **Array loop.** -/
theorem jsonArrayToIvalues_ne_panicked {js : List JValue} {argTypes : List IType}
    (hconv : ∀ j ∈ js, ∀ ty, jvalueToIvalue serde recordTypes j ty ≠ .error .panicked) :
    jsonArrayToIvalues serde recordTypes js argTypes ≠ .error .panicked := by
  have hzipped : zippedToIvalues serde recordTypes js argTypes ≠ .error .panicked := by
    induction js generalizing argTypes with
    | nil =>
      rw [zippedToIvalues.eq_def]
      exact ok_ne_panicked _
    | cons j js ih =>
      cases argTypes with
      | nil =>
        rw [zippedToIvalues.eq_def]
        exact ok_ne_panicked _
      | cons ty argTypes =>
        rw [zippedToIvalues]
        exact cons_ne_panicked (hconv j List.mem_cons_self ty)
          (ih fun j' hj' => hconv j' (List.mem_cons_of_mem j hj'))
  rw [jsonArrayToIvalues]
  split
  · exact De_ne_panicked _
  · exact hzipped

/-- A record has a value for each of its fields. -/
theorem recordOfFields_ne_panicked {fields : List IRecordFieldType} {x : JsonResult (List IValue)}
    (hfields : fields ≠ []) (hx : x ≠ .error .panicked)
    (hlength : ∀ vs, x = .ok vs → fields.length = vs.length) :
    (x >>= recordOfFields) ≠ .error .panicked := by
  refine Fallible.bind_ne_error_iff.mpr ⟨hx, fun vs hvs => ?_⟩
  cases vs with
  | nil => exact absurd (List.eq_nil_of_length_eq_zero (hlength [] hvs)) hfields
  | cons v vs => exact ok_ne_panicked _

theorem recordFromJson_ne_panicked (hne : NonEmptyRecords recordTypes) {j : JValue} {id : Nat}
    (hconv : ∀ j', sizeOf j' < sizeOf j → ∀ ty,
      jvalueToIvalue serde recordTypes j' ty ≠ .error .panicked) :
    jvalueToIvalue serde recordTypes j (.record id) ≠ .error .panicked := by
  cases hrecord : recordTypes.lookup id with
  | none =>
    rw [jvalueToIvalue]
    simp only [hrecord]
    exact De_ne_panicked _
  | some recordType =>
    cases j with
    | object jsonMap =>
      rw [jvalueToIvalue_object serde hrecord]
      refine recordOfFields_ne_panicked (hne id recordType hrecord)
        (jsonMapToIvalues_ne_panicked fun p hp => ?_) fun vs hvs => ?_
      · have hlt := List.sizeOf_lt_of_mem hp
        apply hconv
        obtain ⟨key, value⟩ := p
        simp at hlt ⊢
        omega
      · have htyped := jsonMapToIvalues_typed (fun _ _ _ _ => jvalueToIvalue_typed) hvs
        exact (List.forall₂_map_left_iff.mp htyped).length_eq
    | array js =>
      rw [jvalueToIvalue_fieldArray serde hrecord]
      refine recordOfFields_ne_panicked (hne id recordType hrecord)
        (jsonArrayToIvalues_ne_panicked fun j' hj' => ?_) fun vs hvs => ?_
      · have hlt := List.sizeOf_lt_of_mem hj'
        apply hconv
        simp
        omega
      · have htyped := jsonArrayToIvalues_typed (fun _ _ _ _ => jvalueToIvalue_typed) hvs
        exact (List.forall₂_map_left_iff.mp htyped).length_eq
    | _ =>
      rw [jvalueToIvalue.eq_def]
      simp only [hrecord]
      exact De_ne_panicked _

/-- **One value.**  The induction is on the size of the JSON value. -/
theorem jvalueToIvalue_ne_panicked (hne : NonEmptyRecords recordTypes) (j : JValue) (ty : IType) :
    jvalueToIvalue serde recordTypes j ty ≠ .error .panicked := by
  induction hsize : sizeOf j using Nat.strongRecOn generalizing j ty with
  | _ n ih =>
    have hinner : ∀ j', sizeOf j' < sizeOf j → ∀ ty,
        jvalueToIvalue serde recordTypes j' ty ≠ .error .panicked := by
      intro j' hlt ty'
      exact ih (sizeOf j') (hsize ▸ hlt) j' ty' rfl
    have helems : ∀ js ty, j = .array js →
        elementsToIvalues serde recordTypes js ty ≠ .error .panicked := by
      rintro js ty rfl
      rw [elementsToIvalues_eq]
      refine mapM_ne_panicked fun j' hj' => hinner j' ?_ ty
      have hlt := List.sizeOf_lt_of_mem hj'
      simp
      omega
    by_cases hscalar : isScalarType ty
    · rw [jvalueToIvalue_scalar serde recordTypes j hscalar]
      exact toIvalue_ne_panicked ty j
    · cases ty with
      | byteArray =>
        cases j with
        | array js =>
          rw [jvalueToIvalue_byteArray]
          exact bind_ok_ne_panicked (helems js .u8 rfl)
        | _ =>
          rw [jvalueToIvalue.eq_def]
          exact De_ne_panicked _
      | array elem =>
        cases j with
        | array js =>
          rw [jvalueToIvalue_array]
          exact bind_ok_ne_panicked (helems js elem rfl)
        | _ =>
          rw [jvalueToIvalue.eq_def]
          exact De_ne_panicked _
      | record id => exact recordFromJson_ne_panicked hne hinner
      | _ => exact absurd rfl hscalar

/-- **Arguments** never panic. -/
theorem jsonToIvalues_ne_panicked (hne : NonEmptyRecords recordTypes) (jsonArgs : JValue)
    (argTypes : List FunctionArg) :
    jsonToIvalues serde jsonArgs argTypes recordTypes ≠ .error .panicked := by
  -- a single argument meets no records at all
  have hnone : NonEmptyRecords ∅ := by
    intro id recordType h
    cases h
  have hvalue : jsonValueToIvalues serde jsonArgs argTypes ≠ .error .panicked := by
    unfold jsonValueToIvalues
    split
    · exact bind_ok_ne_panicked (jvalueToIvalue_ne_panicked hnone _ _)
    · exact De_ne_panicked _
  cases jsonArgs with
  | object jsonMap =>
    exact jsonMapToIvalues_ne_panicked fun p _ ty => jvalueToIvalue_ne_panicked hne p.2 ty
  | array js =>
    exact jsonArrayToIvalues_ne_panicked fun j _ ty => jvalueToIvalue_ne_panicked hne j ty
  | null =>
    cases argTypes with
    | nil => exact ok_ne_panicked _
    | cons arg argTypes => exact De_ne_panicked _
  | _ => exact hvalue

end Arguments

/-! ## Results -/

section Results

variable {serde : SerdeJson} {recordTypes : RecordTypes}

theorem scalarToJson_ne_panicked (v : IValue) (ty : IType) :
    scalarToJson serde v ty ≠ .error .panicked := by
  unfold scalarToJson
  split <;> first | exact ok_ne_panicked _ | exact Se_ne_panicked _

theorem fieldsToJson_ne_panicked {vs : List IValue} {fields : List IRecordFieldType}
    {entries : List (String × JValue)}
    (h : ∀ v ∈ vs, ∀ ty, ivalueToJson serde recordTypes v ty ≠ .error .panicked) :
    fieldsToJson serde recordTypes vs fields entries ≠ .error .panicked := by
  induction vs generalizing fields entries with
  | nil => exact ok_ne_panicked _
  | cons v vs ih =>
    cases fields with
    | nil => exact ok_ne_panicked _
    | cons field fields =>
      rw [fieldsToJson, Fallible.bind_ne_error_iff]
      exact ⟨h v List.mem_cons_self field.ty,
        fun _ _ => ih fun v' hv' => h v' (List.mem_cons_of_mem v hv')⟩

/-- **One value.**  The induction is on the size of the value. -/
theorem ivalueToJson_ne_panicked (v : IValue) (ty : IType) :
    ivalueToJson serde recordTypes v ty ≠ .error .panicked := by
  induction hsize : sizeOf v using Nat.strongRecOn generalizing v ty with
  | _ n ih =>
    have hinner : ∀ vs : List IValue, sizeOf vs < sizeOf v → ∀ v' ∈ vs, ∀ ty,
        ivalueToJson serde recordTypes v' ty ≠ .error .panicked := by
      intro vs hvs v' hv' ty'
      have hlt := List.sizeOf_lt_of_mem hv'
      exact ih (sizeOf v') (by omega) v' ty' rfl
    rw [ivalueToJson.eq_def]
    split
    · exact ok_ne_panicked _
    · rename_i vs
      rw [arrayToJson_eq]
      exact bind_ok_ne_panicked (mapM_ne_panicked fun v' hv' => hinner vs (by simp) v' hv' .u8)
    · exact bind_ok_ne_panicked (mapM_ne_panicked fun v' _ => scalarToJson_ne_panicked _ _)
    · rename_i vs elem
      rw [arrayToJson_eq]
      exact bind_ok_ne_panicked (mapM_ne_panicked fun v' hv' => hinner vs (by simp) v' hv' elem)
    · rename_i vs id
      split
      · exact Se_ne_panicked _
      · split
        · exact Se_ne_panicked _
        · exact bind_ok_ne_panicked (fieldsToJson_ne_panicked (hinner vs (by simp)))
    · exact scalarToJson_ne_panicked _ _

/-- **Results** panic exactly when there are several, as many as outputs. -/
theorem ivaluesToJson_ne_panicked_iff {vs : List IValue} {outputs : List IType} :
    ivaluesToJson serde vs outputs recordTypes ≠ .error .panicked ↔
      vs.length ≠ outputs.length ∨ vs.length ≤ 1 := by
  unfold ivaluesToJson
  by_cases hlength : outputs.length = vs.length
  · rw [if_neg (not_not.mpr hlength)]
    cases vs with
    | nil => simp
    | cons v vs =>
      cases outputs with
      | nil => cases hlength
      | cons output outputs =>
        cases vs with
        | nil => simp [ivalueToJson_ne_panicked]
        | cons v' vs =>
          simp only [List.length_cons] at hlength ⊢
          simp [hlength]
  · rw [if_pos hlength]
    simp [Se_ne_panicked, Ne.symm hlength]

end Results

/-! ## The interface of a module -/

/-- The exported records are records of the section. -/
theorem nonEmptyRecords_of_getInterface {mit : MITInterfaces} {iface : IModuleInterface}
    (hfields : ∀ recordType, AstType.record recordType ∈ mit.types → recordType.fields ≠ [])
    (h : getInterface mit = .ok iface) : NonEmptyRecords iface.exportRecordTypes := by
  intro id recordType hlookup
  have htype := (getInterface_closure h id).2 recordType hlookup
  exact hfields recordType (List.mem_of_getElem? htype)

/-- **Conversions of a loaded module.**  For every exported function both
converters return exactly when the results are not several, as many as the
declared outputs. -/
theorem conversion_returns_iff {serde : SerdeJson} {mit : MITInterfaces}
    {iface : IModuleInterface}
    (hfields : ∀ recordType, AstType.record recordType ∈ mit.types → recordType.fields ≠ [])
    (h : getInterface mit = .ok iface) :
    ∀ s ∈ iface.functionSignatures, ∀ (jsonArgs : JValue) (ivalues : List IValue),
      (jsonToIvalues serde jsonArgs s.arguments iface.exportRecordTypes ≠ .error .panicked ∧
        ivaluesToJson serde ivalues s.outputs iface.exportRecordTypes ≠ .error .panicked) ↔
      ivalues.length ≠ s.outputs.length ∨ ivalues.length ≤ 1 := by
  intro s _ jsonArgs ivalues
  have hargs : jsonToIvalues serde jsonArgs s.arguments iface.exportRecordTypes ≠
      .error .panicked :=
    jsonToIvalues_ne_panicked (nonEmptyRecords_of_getInterface hfields h) jsonArgs s.arguments
  rw [ivaluesToJson_ne_panicked_iff]
  exact and_iff_right hargs

/-- A section with an exported function of two outputs. -/
def pairInterfaces : Interfaces where
  types := [.function [] [.u8, .u8]]
  imports := []
  adapters := []
  exports := [⟨"pair", 0⟩]
  implementations := [⟨0, 0⟩]

def pairSignature : IFunctionSignature := ⟨"pair", [], [.u8, .u8], 0⟩

theorem pairInterfaces_read :
    getInterface (MITInterfaces.new pairInterfaces) = .ok ⟨∅, ∅, [pairSignature]⟩ := by
  have hu8 : ∀ all exported : RecordTypes, handleItype .u8 all exported 0 = .ok exported := by
    intro all exported
    rw [handleItype.eq_def]
    rfl
  have hrecords : getRecordTypes (MITInterfaces.new pairInterfaces) [pairSignature] =
      .ok ⟨∅, ∅⟩ := by
    simp only [getRecordTypes, pairSignature, IFunctionSignature.itypes, List.flatMap_cons,
      List.flatMap_nil, List.map_nil, List.nil_append, List.append_nil, List.foldlM_cons,
      List.foldlM_nil, hu8]
    rfl
  refine Fallible.bind_eq_ok_iff.mpr ⟨[pairSignature], rfl, ?_⟩
  exact Fallible.bind_eq_ok_iff.mpr ⟨_, hrecords, rfl⟩

theorem conversion_returns_pair :
    jsonToIvalues plainSerde .null [] ∅ ≠ .error .panicked ∧
      ivaluesToJson plainSerde [.u8 1] [.u8, .u8] ∅ ≠ .error .panicked :=
  (conversion_returns_iff (by simp [MITInterfaces.new, pairInterfaces]) pairInterfaces_read
    pairSignature List.mem_cons_self .null [.u8 1]).mpr (by decide)

/-- Two results of two outputs reach `unimplemented!`. -/
theorem pair_result_panics :
    getInterface (MITInterfaces.new pairInterfaces) = .ok ⟨∅, ∅, [pairSignature]⟩ ∧
      ivaluesToJson plainSerde [.u8 1, .u8 2] pairSignature.outputs ∅ = .error .panicked :=
  ⟨pairInterfaces_read, rfl⟩

end Marine.Json
