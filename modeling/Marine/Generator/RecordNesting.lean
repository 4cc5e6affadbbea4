import Marine.Generator.Dangling
import Marine.Lib.Walks

/-!
# What the validation of records accepts

`validate_records` follows the fields that are records by value, and its level
counter ends the recursion on cyclic records.

* `validateRecordType_iff`: one record passes at a level exactly when no path of
  nestings goes further than the limit from there.
* `validateRecords_failure`: the only failures are the count and the level.
* `validateRecords_exact`: what passes for the records of a module.
-/

namespace Marine.Generator

open Walks

/-- The ids of the records that a type contains by value. -/
def byValue : AstType → List Nat
  | .function _ _ => []
  | .record recordType => recordType.fields.filterMap fun field =>
    match field.ty with
    | .record recordTypeId => some recordTypeId
    | _ => none

/-- The records right inside a record of the section, each one level lower. -/
def nested (r : ITResolver) (id : Nat) : List (Nat × Nat) :=
  (r.interfaces.types[id]?.elim [] byValue).map fun inner => (inner, 1)

def IsRecord (r : ITResolver) (id : Nat) : Prop :=
  ∃ recordType, r.interfaces.types[id]? = some (.record recordType)

/-- Records contain records only. -/
def Closed (r : ITResolver) : Prop :=
  ∀ id inner, (inner, 1) ∈ nested r id → IsRecord r inner

theorem mem_byValue_record {recordType : IRecordType} {id : Nat} :
    id ∈ byValue (.record recordType) ↔ ∃ field ∈ recordType.fields, field.ty = .record id := by
  simp only [byValue, List.mem_filterMap]
  apply exists_congr
  intro field
  apply and_congr_right
  intro _
  cases field.ty <;> simp

theorem nested_unit (r : ITResolver) : ∀ id inner w, (inner, w) ∈ nested r id → w = 1 := by
  intro id inner w h
  obtain ⟨_, -, hpair⟩ := List.mem_map.mp h
  cases hpair
  rfl

theorem mem_nested_iff {r : ITResolver} {id inner : Nat} :
    (inner, 1) ∈ nested r id ↔
      ∃ recordType, r.interfaces.types[id]? = some (.record recordType) ∧
        ∃ field ∈ recordType.fields, field.ty = .record inner := by
  have hmap : (inner, 1) ∈ nested r id ↔ inner ∈ r.interfaces.types[id]?.elim [] byValue := by
    simp [nested]
  rw [hmap]
  cases r.interfaces.types[id]? with
  | none => simp
  | some ty =>
    cases ty with
    | function arguments outputTypes => simp [byValue]
    | record recordType =>
      simp only [Option.elim_some, mem_byValue_record, Option.some.injEq, AstType.record.injEq,
        exists_eq_left']

/-! ## One record -/

section Level

variable {r : ITResolver}

/-- What the recursion does with the id of a field. -/
def validateInner (r : ITResolver) (id recursionLevel : Nat) : Except ITGeneratorError Unit := do
  let innerRecordType ← r.getRecordType id
  validateRecordType r innerRecordType recursionLevel

theorem getRecordType_of_isRecord {id : Nat} {recordType : IRecordType}
    (h : r.interfaces.types[id]? = some (.record recordType)) :
    r.getRecordType id = .ok recordType := by
  unfold ITResolver.getRecordType
  rw [h]

theorem validateRecordType_eq {recordType : IRecordType} {level : Nat}
    (h : ¬ typeResolveRecursionLimit ≤ level) :
    validateRecordType r recordType level = recordType.fields.forM fun field =>
      match field.ty with
      | .record recordTypeId => validateInner r recordTypeId (level + 1)
      | _ => .ok () := by
  rw [validateRecordType, dif_neg h]
  rfl

/-- **Step lemma.** -/
theorem validateRecordType_step {recordType : IRecordType} {level : Nat}
    (h : ¬ typeResolveRecursionLimit ≤ level) :
    validateRecordType r recordType level = .ok () ↔
      ∀ inner ∈ byValue (.record recordType), validateInner r inner (level + 1) = .ok () := by
  rw [validateRecordType_eq h, Fallible.forM_eq_ok_iff]
  constructor
  · intro hall inner hinner
    obtain ⟨field, hfield, hty⟩ := mem_byValue_record.mp hinner
    have hone := hall field hfield
    rwa [hty] at hone
  · intro hall field hfield
    split
    · rename_i inner hty
      exact hall inner (mem_byValue_record.mpr ⟨field, hfield, hty⟩)
    · rfl

theorem validateInner_iff {id : Nat} {recordType : IRecordType}
    (h : r.interfaces.types[id]? = some (.record recordType)) (level : Nat) :
    validateInner r id level = .ok () ↔ validateRecordType r recordType level = .ok () := by
  rw [validateInner, getRecordType_of_isRecord h]
  rfl

theorem not_validateInner_of_limit {id level : Nat} (h : typeResolveRecursionLimit ≤ level) :
    ¬ validateInner r id level = .ok () := by
  intro hok
  obtain ⟨recordType, -, hvalid⟩ := Fallible.bind_eq_ok_iff.mp hok
  rw [validateRecordType, dif_pos h] at hvalid
  cases hvalid

theorem isRecord_of_validateInner {id level : Nat} (h : validateInner r id level = .ok ()) :
    IsRecord r id := by
  obtain ⟨recordType, hget, -⟩ := Fallible.bind_eq_ok_iff.mp h
  unfold ITResolver.getRecordType at hget
  split at hget
  · cases hget
  · cases hget
  · rename_i recordType' htype
    exact ⟨recordType', htype⟩

theorem validateInner_step {id level : Nat} (h : ¬ typeResolveRecursionLimit ≤ level) :
    validateInner r id level = .ok () ↔
      IsRecord r id ∧ ∀ inner w, (inner, w) ∈ nested r id →
        validateInner r inner (level + w) = .ok () := by
  constructor
  · intro hok
    obtain ⟨recordType, htype⟩ := isRecord_of_validateInner hok
    rw [validateInner_iff htype, validateRecordType_step h] at hok
    refine ⟨⟨recordType, htype⟩, fun inner w hinner => ?_⟩
    obtain rfl := nested_unit r id inner w hinner
    obtain ⟨recordType', htype', hfield⟩ := mem_nested_iff.mp hinner
    rw [htype] at htype'
    cases htype'
    exact hok inner (mem_byValue_record.mpr hfield)
  · rintro ⟨⟨recordType, htype⟩, hinner⟩
    rw [validateInner_iff htype, validateRecordType_step h]
    intro inner hmem
    have hnested : (inner, 1) ∈ nested r id :=
      mem_nested_iff.mpr ⟨recordType, htype, mem_byValue_record.mp hmem⟩
    exact hinner inner 1 hnested

theorem isRecord_of_path (hclosed : Closed r) {id inner n : Nat} (hid : IsRecord r id)
    (h : Path (nested r) id n inner) : IsRecord r inner := by
  induction h with
  | here => exact hid
  | @step id next inner w n hnext _ ih =>
    obtain rfl := nested_unit r id next w hnext
    exact ih (hclosed id next hnext)

/-- **Exactness for one record.** -/
theorem validateInner_paths (hclosed : Closed r) {id : Nat} (hid : IsRecord r id) :
    validateInner r id 0 = .ok () ↔
      ∀ inner, ¬ Path (nested r) id typeResolveRecursionLimit inner := by
  have hpos : ∀ id inner w, (inner, w) ∈ nested r id → 0 < w := by
    intro id inner w h
    rw [nested_unit r id inner w h]
    exact Nat.one_pos
  have hstep : ∀ id level, level ≤ 1023 → (validateInner r id level = .ok () ↔
      IsRecord r id ∧ ∀ inner w, (inner, w) ∈ nested r id → ∀ _ : Unit,
        validateInner r inner (level + w) = .ok ()) := by
    intro id level h
    rw [validateInner_step (by unfold typeResolveRecursionLimit; omega)]
    simp only [forall_const]
  have hcheck : validateInner r id 0 = .ok () ↔
      ∀ n inner, Path (nested r) id n inner → 0 + n ≤ 1023 ∧ IsRecord r inner :=
    check_iff (c := fun (_ : Unit) id level => validateInner r id level = .ok ()) hpos
      (fun _ _ _ h => not_validateInner_of_limit h) (fun _ id level h _ => hstep id level h) () id 0
  rw [hcheck]
  constructor
  · intro hall inner hpath
    have hle := (hall _ _ hpath).1
    unfold typeResolveRecursionLimit at hle
    omega
  · intro hno n inner hpath
    refine ⟨?_, isRecord_of_path hclosed hid hpath⟩
    by_contra hlong
    obtain ⟨b, hb⟩ := hpath.truncate (nested_unit r)
      (show typeResolveRecursionLimit ≤ n by unfold typeResolveRecursionLimit; omega)
    exact hno b hb

/-- The failure at the level limit. -/
def tooManyLevels : ITGeneratorError := .corruptedRecord "too many inner structures level"

theorem validateRecordType_failsOnly (hclosed : Closed r) {recordType : IRecordType}
    (h : ∀ inner ∈ byValue (.record recordType), IsRecord r inner) (level : Nat) :
    Fallible.FailsOnly tooManyLevels (validateRecordType r recordType level) := by
  induction hleft : typeResolveRecursionLimit - level generalizing recordType level with
  | zero =>
    rw [validateRecordType, dif_pos (by omega)]
    intro e he
    cases he
    rfl
  | succ left ih =>
    rw [validateRecordType_eq (by omega)]
    apply Fallible.FailsOnly.forM
    intro field hfield
    split
    · rename_i inner hty
      obtain ⟨innerType, htype⟩ := h inner (mem_byValue_record.mpr ⟨field, hfield, hty⟩)
      rw [validateInner, getRecordType_of_isRecord htype]
      apply ih _ _ (by omega)
      intro id hid
      exact hclosed inner id (mem_nested_iff.mpr ⟨innerType, htype, mem_byValue_record.mp hid⟩)
    · intro e he
      cases he

/-! ## All records -/

theorem validateRecords_eq_ok_iff :
    validateRecords r = .ok () ↔ r.unresolvedTypesCount = 0 ∧
      ∀ id recordType, r.interfaces.types[id]? = some (.record recordType) →
        validateInner r id 0 = .ok () := by
  unfold validateRecords
  by_cases hcount : r.unresolvedTypesCount = 0
  · rw [if_neg (not_not.mpr hcount), Fallible.forM_eq_ok_iff]
    simp only [hcount, true_and]
    constructor
    · intro hall id recordType htype
      rw [validateInner_iff htype]
      exact hall _ (List.mem_of_getElem? htype)
    · intro hall ty hty
      cases ty with
      | function arguments outputTypes => rfl
      | record recordType =>
        obtain ⟨id, htype⟩ := List.mem_iff_getElem?.mp hty
        exact (validateInner_iff htype 0).mp (hall id recordType htype)
  · rw [if_pos hcount]
    simp [hcount]

/-- The failure of a count that is not zero. -/
def typesUnresolved (r : ITResolver) : ITGeneratorError :=
  .corruptedRecord (toString r.unresolvedTypesCount ++ " types unresolved")

/-- **Failures.**  Only the count and the level limit are reported. -/
theorem validateRecords_failure (hclosed : Closed r) {e : ITGeneratorError}
    (h : validateRecords r = .error e) :
    r.unresolvedTypesCount ≠ 0 ∧ e = typesUnresolved r ∨
      r.unresolvedTypesCount = 0 ∧ e = tooManyLevels := by
  unfold validateRecords at h
  by_cases hcount : r.unresolvedTypesCount = 0
  · rw [if_neg (not_not.mpr hcount)] at h
    refine .inr ⟨hcount, ?_⟩
    refine Fallible.FailsOnly.forM (fun ty hty => ?_) e h
    cases ty with
    | function arguments outputTypes =>
      intro e' he
      cases he
    | record recordType =>
      obtain ⟨id, htype⟩ := List.mem_iff_getElem?.mp hty
      apply validateRecordType_failsOnly hclosed
      intro inner hinner
      exact hclosed id inner (mem_nested_iff.mpr ⟨recordType, htype, mem_byValue_record.mp hinner⟩)
  · rw [if_pos hcount] at h
    cases h
    exact .inl ⟨hcount, rfl⟩

end Level

/-! ## The records of a module -/

section Module

variable {deps : Externals} {records : List RecordType} {r : ITResolver}

/-- A record that contains records has a name. -/
theorem lookup_of_nested (hplaced : Placed r) {id inner : Nat} (h : (inner, 1) ∈ nested r id) :
    ∃ name, r.types.lookup name = some id := by
  obtain ⟨recordType, htype, field, hfield, hty⟩ := mem_nested_iff.mp h
  rcases hplaced id _ htype with hname | hnone
  · exact hname
  · have hscalar := hnone field.ty (List.mem_map.mpr ⟨field, hfield, rfl⟩)
    rw [hty] at hscalar
    cases hscalar

/-- The default record mentions no record, so every field that is a record by
value comes from a description. -/
theorem closed_records (hdefault : ∀ field ∈ deps.defaultRecord.fields, field.mentioned = none)
    (h : records.foldlM (generateRecord deps) apiResolver = .ok r) : Closed r := by
  have hmatch := recordsMatch_records h
  intro id inner hnested
  obtain ⟨name, hname⟩ := lookup_of_nested (placed_records h) hnested
  obtain ⟨recordType, htype, field, hfield, hty⟩ := mem_nested_iff.mp hnested
  have hholds := hmatch.holds name recordType
    (ITResolver.recordOf_eq_some_iff.mpr ⟨id, hname, htype⟩)
  have hmentioned : field.ty.mentioned = some inner := by
    rw [hty]
    rfl
  unfold Holds at hholds
  cases hdescribed : (described records).lookup name with
  | none =>
    rw [hdescribed] at hholds
    obtain rfl : recordType = deps.defaultRecord := hholds
    have hscalar : field.ty.mentioned = none := hdefault field hfield
    rw [hscalar] at hmentioned
    cases hmentioned
  | some fields =>
    rw [hdescribed] at hholds
    obtain ⟨described, -, hchecked⟩ := Fallible.exists_left_of_mem hholds hfield
    obtain ⟨innerName, hinner⟩ := lookup_of_mentioned hchecked hmentioned
    exact hmatch.wellNamed.record innerName inner hinner

theorem validateRecords_paths (hclosed : Closed r) (hnamed : r.WellNamed) (hplaced : Placed r) :
    validateRecords r = .ok () ↔ r.unresolvedTypesCount = 0 ∧
      ∀ name id, r.types.lookup name = some id →
        ∀ inner, ¬ Path (nested r) id typeResolveRecursionLimit inner := by
  rw [validateRecords_eq_ok_iff]
  apply and_congr_right
  intro _
  constructor
  · intro hall name id hname
    obtain ⟨recordType, htype⟩ := hnamed.record name id hname
    exact (validateInner_paths hclosed ⟨recordType, htype⟩).mp (hall id recordType htype)
  · intro hall id recordType htype
    rw [validateInner_paths hclosed ⟨recordType, htype⟩]
    intro inner hpath
    obtain ⟨next, w, hnext⟩ := hpath.exists_edge (by decide)
    obtain rfl := nested_unit r id next w hnext
    obtain ⟨name, hname⟩ := lookup_of_nested hplaced hnext
    exact hall name id hname inner hpath

end Module

/-- **Validation.**  It never asks for a function type, and it accepts the
records of a module exactly when no stub is counted and no registered record
starts 1024 nestings; a record that contains itself is never accepted. -/
theorem validateRecords_exact {deps : Externals} {records : List RecordType} {r : ITResolver}
    (hdefault : ∀ field ∈ deps.defaultRecord.fields, field.mentioned = none)
    (hrun : records.foldlM (generateRecord deps) apiResolver = .ok r) :
    validateRecords r ≠ .error .panicked ∧
    (validateRecords r = .ok () ↔ r.unresolvedTypesCount = 0 ∧
      ∀ name id, r.types.lookup name = some id →
        ∀ inner, ¬ Path (nested r) id typeResolveRecursionLimit inner) ∧
    ∀ name id n, r.types.lookup name = some id → 0 < n → Path (nested r) id n id →
      validateRecords r ≠ .ok () := by
  have hclosed := closed_records hdefault hrun
  have hexact := validateRecords_paths hclosed (recordsMatch_records hrun).wellNamed
    (placed_records hrun)
  refine ⟨fun hpanic => ?_, hexact, fun name id n hname hn hcycle hok => ?_⟩
  · rcases validateRecords_failure hclosed hpanic with ⟨-, h⟩ | ⟨-, h⟩
    · cases h
    · cases h
  · obtain ⟨inner, hinner⟩ := hcycle.exists_of_cycle (nested_unit r) hn typeResolveRecursionLimit
    exact (hexact.mp hok).2 name id hname inner hinner

/-- `struct Loop { inner: Loop }`. -/
def loopRecords : List RecordType := [⟨"Loop", .named [⟨some "inner", .record "Loop"⟩]⟩]

theorem validateRecords_exact_loop :
    ∃ r, loopRecords.foldlM (generateRecord crateExternals) apiResolver = .ok r ∧
      validateRecords r ≠ .ok () := by
  have hrun : ∃ r, loopRecords.foldlM (generateRecord crateExternals) apiResolver = .ok r ∧
      r.types.lookup "Loop" = some 6 ∧
      r.interfaces.types[6]? = some (.record ⟨"Loop", [⟨"inner", .record 6⟩]⟩) :=
    ⟨_, rfl, rfl, rfl⟩
  obtain ⟨r, hrun, hname, htype⟩ := hrun
  have hnested : (6, 1) ∈ nested r 6 :=
    mem_nested_iff.mpr ⟨_, htype, ⟨"inner", .record 6⟩, by simp, rfl⟩
  exact ⟨r, hrun, (validateRecords_exact (by decide) hrun).2.2 "Loop" 6 1 hname Nat.one_pos
    (.step hnested (.here 6))⟩

end Marine.Generator
