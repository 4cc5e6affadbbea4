import Marine.Generator.Records
import Mathlib.Algebra.Ring.Nat

/-!
# Stubs of records

`unresolved_types_count` is kept beside the names of the resolver: up by one
when a name gets a stub, down by one when a definition comes for a name that is
known.  The second step does not ask whether the known name still has a stub.

* `counted_records`: what the count is while no name is defined twice.
* `countsStubs_iff`: the count is right in all states exactly when no name is
  defined twice.
-/

namespace Marine.Generator

/-! ## The states while records are processed -/

/-- The states of the resolver, with the records that are done: behind a record,
or behind some fields of the next one. -/
inductive Midway (deps : Externals) (records : List RecordType) :
    List RecordType → ITResolver → Prop
  | record {k : Nat} {r : ITResolver} :
      (records.take k).foldlM (generateRecord deps) apiResolver = .ok r →
      Midway deps records (records.take k) r
  | field {k : Nat} {r : ITResolver} {record : RecordType} {fields : List RecordField} (j : Nat) :
      (records.take k).foldlM (generateRecord deps) apiResolver = .ok r →
      records[k]? = some record → RecordFields.list record.fields = some fields →
      Midway deps records (records.take k) (generateFields deps r (fields.take j)).2

/-- The registered names whose type is still the default stub. -/
def stubs (deps : Externals) (done : List RecordType) (r : ITResolver) : List String :=
  r.types.keys.filter fun name =>
    decide (r.recordOf name = some deps.defaultRecord) && ((described done).lookup name).isNone

/-- In every state the count is the number of stubs. -/
def CountsStubs (deps : Externals) (records : List RecordType) : Prop :=
  ∀ done r, Midway deps records done r →
    r.unresolvedTypesCount.toNat = (stubs deps done r).length

/-! ## Names without a definition -/

def pending (done : List RecordType) (r : ITResolver) : List String :=
  r.types.keys.filter fun name => ((described done).lookup name).isNone

theorem mem_keys_iff {r : ITResolver} {name : String} :
    name ∈ r.types.keys ↔ (r.types.lookup name).isSome := by
  rw [AList.lookup_isSome, AList.mem_keys]

@[simp] theorem mem_pending {done : List RecordType} {r : ITResolver} {name : String} :
    name ∈ pending done r ↔
      (r.types.lookup name).isSome ∧ (described done).lookup name = none := by
  simp [pending, mem_keys_iff]

theorem nodup_pending (done : List RecordType) (r : ITResolver) : (pending done r).Nodup :=
  r.types.keys_nodup.filter _

section Steps

variable {deps : Externals} {done : List RecordType} {r : ITResolver}

theorem stubs_eq_pending (h : RecordsMatch deps done r) : stubs deps done r = pending done r := by
  unfold stubs pending
  apply List.filter_congr
  intro name hname
  cases hlookup : (described done).lookup name with
  | some fields => simp
  | none =>
    rw [mem_keys_iff, ← h.wellNamed.recordOf_isSome] at hname
    obtain ⟨recordType, hrecord⟩ := Option.isSome_iff_exists.mp hname
    have hholds := h.holds name recordType hrecord
    unfold Holds at hholds
    rw [hlookup] at hholds
    simp [hrecord, hholds]

/-- A new name without a definition. -/
theorem pending_insert (r' : ITResolver) {name : String} {id : Nat}
    (hnew : r.types.lookup name = none) (hr' : r'.types = r.types.insert name id)
    (hnone : (described done).lookup name = none) :
    pending done r' = name :: pending done r := by
  have hfresh : name ∉ r.types.keys := by
    rw [mem_keys_iff, hnew]
    simp
  unfold pending
  rw [hr', AList.keys_insert, List.erase_of_not_mem hfresh, List.filter_cons]
  simp [hnone]

/-- **Definition lemma.**  What is defined is no longer pending, and nothing else changes. -/
theorem pending_insertRecordType {record : RecordType} {fields : List RecordField}
    (hlist : RecordFields.list record.fields = some fields) (itFields : List IRecordFieldType) :
    pending (done ++ [record]) (r.insertRecordType ⟨record.name, itFields⟩) =
      (pending done r).erase record.name := by
  have hdescribed : ∀ name, ((described (done ++ [record])).lookup name).isNone =
      (name != record.name && ((described done).lookup name).isNone) := by
    intro name
    rw [described_concat, hlist]
    by_cases hname : name = record.name <;> simp [hname]
  have hfilter : (pending done r).erase record.name = r.types.keys.filter
      fun name => name != record.name && ((described done).lookup name).isNone := by
    rw [List.Nodup.erase_eq_filter (nodup_pending done r), pending, List.filter_filter]
  rw [hfilter]
  simp only [pending, hdescribed, ITResolver.insertRecordType]
  cases hpos : r.types.lookup record.name with
  | some pos => rfl
  | none =>
    have hfresh : record.name ∉ r.types.keys := by
      rw [mem_keys_iff, hpos]
      simp
    simp [AList.keys_insert, List.erase_of_not_mem hfresh]

/-! ## The count -/

/-- The count is right, and not above `n`. -/
structure Counted (done : List RecordType) (r : ITResolver) (n : Nat) : Prop where
  count : r.unresolvedTypesCount.toNat = (pending done r).length
  bound : (pending done r).length ≤ n

theorem Counted.mono {n n' : Nat} (h : Counted done r n) (hn : n ≤ n') : Counted done r n' :=
  ⟨h.count, Nat.le_trans h.bound hn⟩

theorem ptypeToItypeUnchecked_counted {n : Nat} (h : RecordsMatch deps done r)
    (hc : Counted done r n) (hn : n + 1 < 2 ^ 64) (ty : ParsedType) :
    Counted done (ptypeToItypeUnchecked deps r ty).2 (n + 1) := by
  rcases ptypeToItypeUnchecked_cases deps r ty with hsame | ⟨name, hnew, hstub⟩
  · rw [hsame]
    exact hc.mono (Nat.le_succ n)
  · have hpending := pending_insert (ptypeToItypeUnchecked deps r ty).2 hnew
      (by rw [hstub]) (h.undescribed hnew)
    have hcount := hc.count
    have hbound := hc.bound
    constructor
    · rw [hpending, List.length_cons, ← hcount, hstub]
      show (r.unresolvedTypesCount + 1).toNat = _
      rw [UInt64.toNat_add, UInt64.toNat_one]
      omega
    · rw [hpending, List.length_cons]
      omega

theorem generateFields_counted {n : Nat} (h : RecordsMatch deps done r) (hc : Counted done r n)
    (fields : List RecordField) (hn : n + fields.length < 2 ^ 64) :
    Counted done (generateFields deps r fields).2 (n + fields.length) := by
  induction fields generalizing r n with
  | nil => exact hc
  | cons field fields ih =>
    rw [List.length_cons] at hn ⊢
    have hmatch := (ptypeToItypeUnchecked_match h field.ty).1
    have hfield := ptypeToItypeUnchecked_counted h hc (by omega) field.ty
    exact (ih hmatch hfield (by omega)).mono (by omega)

/-- **First definition.**  If the name is known, it has a stub. -/
theorem insertRecordType_counted {n : Nat} (hc : Counted done r n) {record : RecordType}
    {fields : List RecordField} (hlist : RecordFields.list record.fields = some fields)
    (hfirst : (described done).lookup record.name = none) (itFields : List IRecordFieldType) :
    Counted (done ++ [record]) (r.insertRecordType ⟨record.name, itFields⟩) n := by
  have hpending := @pending_insertRecordType done r record fields hlist itFields
  have hcount := hc.count
  refine ⟨?_, ?_⟩
  · rw [hpending]
    unfold ITResolver.insertRecordType
    cases hpos : r.types.lookup record.name with
    | some pos =>
      have hmem : record.name ∈ pending done r := by simp [hpos, hfirst]
      have hlen := List.length_pos_of_mem hmem
      rw [List.length_erase_of_mem hmem, ← hcount]
      show (r.unresolvedTypesCount - 1).toNat = _
      have hone : (1 : UInt64) ≤ r.unresolvedTypesCount := by
        rw [UInt64.le_iff_toNat_le, UInt64.toNat_one]
        omega
      rw [UInt64.toNat_sub_of_le _ _ hone, UInt64.toNat_one]
    | none =>
      have hmem : record.name ∉ pending done r := by simp [hpos]
      rw [List.erase_of_not_mem hmem, ← hcount]
      rfl
  · rw [hpending]
    exact Nat.le_trans (List.length_erase_le) hc.bound

/-- **Repeated definition.**  The name has no stub, and the count goes down. -/
theorem insertRecordType_repeated (h : RecordsMatch deps done r) {record : RecordType}
    {fields : List RecordField} (hlist : RecordFields.list record.fields = some fields)
    (hrepeated : ((described done).lookup record.name).isSome)
    (itFields : List IRecordFieldType) :
    pending (done ++ [record]) (r.insertRecordType ⟨record.name, itFields⟩) = pending done r ∧
      (r.insertRecordType ⟨record.name, itFields⟩).unresolvedTypesCount =
        r.unresolvedTypesCount - 1 := by
  have hmem : record.name ∉ pending done r := by
    rw [mem_pending, ← Option.not_isSome_iff_eq_none]
    exact fun hpending => hpending.2 hrepeated
  obtain ⟨pos, hpos⟩ := Option.isSome_iff_exists.mp (h.named record.name hrepeated)
  refine ⟨?_, ?_⟩
  · rw [pending_insertRecordType hlist, List.erase_of_not_mem hmem]
  · rw [ITResolver.insertRecordType, hpos]

end Steps

/-! ## Names that are defined -/

/-- The name a description defines; units define nothing. -/
def definitionName (record : RecordType) : Option String :=
  (RecordFields.list record.fields).map fun _ => record.name

/-- `generate_it` takes it. -/
def hasNoEmptyFields (record : RecordType) : Bool :=
  decide (RecordFields.list record.fields ≠ some [])

/-- The names defined before the first description that is refused. -/
def definedNames (records : List RecordType) : List String :=
  (records.takeWhile hasNoEmptyFields).filterMap definitionName

/-- How many fields a list of descriptions has. -/
def fieldCount (records : List RecordType) : Nat :=
  (records.map fun record => ((RecordFields.list record.fields).getD []).length).sum

theorem fieldCount_take_le (records : List RecordType) (k : Nat) :
    fieldCount (records.take k) ≤ fieldCount records := by
  have hsplit : fieldCount records = fieldCount (records.take k) + fieldCount (records.drop k) := by
    unfold fieldCount
    rw [← List.sum_append, ← List.map_append, List.take_append_drop]
  omega

theorem generateRecord_isOk_iff (deps : Externals) (r : ITResolver) (record : RecordType) :
    (generateRecord deps r record).isOk ↔ hasNoEmptyFields record := by
  unfold hasNoEmptyFields
  cases hlist : RecordFields.list record.fields with
  | none => simp [generateRecord_undescribed hlist]
  | some fields =>
    rw [Fallible.isOk_iff_exists]
    simp [generateRecord_eq_ok_iff hlist]

/-- Which prefixes of a list are processed. -/
theorem foldlM_generateRecord_iff {deps : Externals} {done : List RecordType} {r : ITResolver} :
    (∃ r', done.foldlM (generateRecord deps) r = .ok r') ↔
      ∀ record ∈ done, hasNoEmptyFields record := by
  rw [← Fallible.isOk_iff_exists]
  exact Fallible.foldlM_isOk_iff (fun record _ s => generateRecord_isOk_iff deps s record) r

theorem definedNames_append {done : List RecordType}
    (h : ∀ record ∈ done, hasNoEmptyFields record) (rest : List RecordType) :
    definedNames (done ++ rest) = done.filterMap definitionName ++ definedNames rest := by
  unfold definedNames
  rw [List.takeWhile_append_of_pos h, List.filterMap_append]

/-- A name is described when it is defined. -/
theorem described_isSome_iff {records : List RecordType} {name : String} :
    ((described records).lookup name).isSome ↔ name ∈ records.filterMap definitionName := by
  induction records using List.reverseRecOn with
  | nil => simp [described, Maps.collect]
  | append_singleton records record ih =>
    rw [described_concat, List.filterMap_append, List.mem_append, ← ih]
    cases hlist : RecordFields.list record.fields with
    | none => simp [definitionName, hlist]
    | some fields =>
      by_cases hname : name = record.name
      · simp [definitionName, hlist, hname]
      · simp [definitionName, hlist, hname]

/-! ## Runs -/

section Runs

variable {deps : Externals} {records : List RecordType}

/-- **Step lemma.** -/
theorem generateRecord_counted {done : List RecordType} {r r' : ITResolver} {record : RecordType}
    (h : RecordsMatch deps done r) (hc : Counted done r (fieldCount done))
    (hgen : generateRecord deps r record = .ok r')
    (hfirst : ((done ++ [record]).filterMap definitionName).Nodup)
    (hsize : fieldCount (done ++ [record]) < 2 ^ 64) :
    Counted (done ++ [record]) r' (fieldCount (done ++ [record])) := by
  cases hlist : RecordFields.list record.fields with
  | none =>
    rw [generateRecord_undescribed hlist] at hgen
    cases hgen
    have hsame : ∀ name, (described (done ++ [record])).lookup name =
        (described done).lookup name := by
      intro name
      rw [described_concat, hlist]
    have hpending : pending (done ++ [record]) r = pending done r := by
      simp only [pending, hsame]
    have hcount : fieldCount (done ++ [record]) = fieldCount done := by
      simp [fieldCount, hlist]
    exact ⟨by rw [hpending]; exact hc.count, by rw [hpending, hcount]; exact hc.bound⟩
  | some fields =>
    obtain ⟨-, rfl⟩ := (generateRecord_eq_ok_iff hlist).mp hgen
    have hcount : fieldCount (done ++ [record]) = fieldCount done + fields.length := by
      simp [fieldCount, hlist]
    have hnone : (described done).lookup record.name = none := by
      rw [← Option.not_isSome_iff_eq_none, described_isSome_iff]
      intro hmem
      rw [List.filterMap_append, List.nodup_append] at hfirst
      exact hfirst.2.2 _ hmem record.name (by simp [definitionName, hlist]) rfl
    rw [hcount] at hsize ⊢
    exact insertRecordType_counted (generateFields_counted h hc fields hsize) hlist hnone _

/-- **Run lemma.** -/
theorem counted_records {done : List RecordType} {r : ITResolver}
    (h : done.foldlM (generateRecord deps) apiResolver = .ok r)
    (hfirst : (done.filterMap definitionName).Nodup) (hsize : fieldCount done < 2 ^ 64) :
    Counted done r (fieldCount done) := by
  induction done using List.reverseRecOn generalizing r with
  | nil =>
    cases h
    exact ⟨rfl, Nat.le_refl 0⟩
  | append_singleton done record ih =>
    obtain ⟨r₁, h₁, hgen⟩ := Fallible.foldlM_concat_eq_ok_iff.mp h
    have hbefore : (done.filterMap definitionName).Nodup := by
      rw [List.filterMap_append] at hfirst
      exact (List.nodup_append.mp hfirst).1
    have hle : fieldCount done ≤ fieldCount (done ++ [record]) := by
      simp [fieldCount]
    exact generateRecord_counted (recordsMatch_records h₁) (ih h₁ hbefore (by omega)) hgen hfirst
      hsize

/-- The names of a processed prefix are defined first. -/
theorem nodup_processed {k : Nat} {r : ITResolver} (h : (definedNames records).Nodup)
    (hrun : (records.take k).foldlM (generateRecord deps) apiResolver = .ok r) :
    ((records.take k).filterMap definitionName).Nodup := by
  have haccepted := foldlM_generateRecord_iff.mp ⟨r, hrun⟩
  have hsplit := definedNames_append haccepted (records.drop k)
  rw [List.take_append_drop] at hsplit
  rw [hsplit, List.nodup_append] at h
  exact h.1

/-- **The count is right** when no name is defined twice. -/
theorem countsStubs_of_nodup (h : (definedNames records).Nodup)
    (hsize : fieldCount records < 2 ^ 64) : CountsStubs deps records := by
  intro done r hmidway
  cases hmidway with
  | @record k r hrun =>
    have hle := fieldCount_take_le records k
    have hcounted := counted_records hrun (nodup_processed h hrun) (by omega)
    rw [stubs_eq_pending (recordsMatch_records hrun)]
    exact hcounted.count
  | @field k r record fields j hrun hrecord hlist =>
    have hmatch := recordsMatch_records hrun
    have hle := fieldCount_take_le records (k + 1)
    have hnext : fieldCount (records.take (k + 1)) =
        fieldCount (records.take k) + fields.length := by
      rw [List.take_add_one, hrecord]
      simp [fieldCount, hlist]
    have htake : (fields.take j).length ≤ fields.length := List.length_take_le' j fields
    have hcounted := counted_records hrun (nodup_processed h hrun) (by omega)
    have hfields := generateFields_counted hmatch hcounted (fields.take j) (by omega)
    rw [stubs_eq_pending (generateFields_match hmatch _).1]
    exact hfields.count

/-- A processed definition of a name that is already defined spoils the count. -/
theorem not_repeated_of_countsStubs (h : CountsStubs deps records) {k : Nat} {r : ITResolver}
    (hrun : (records.take k).foldlM (generateRecord deps) apiResolver = .ok r)
    {record : RecordType} (hrecord : records[k]? = some record) {fields : List RecordField}
    (hlist : RecordFields.list record.fields = some fields) (hne : fields ≠ []) :
    record.name ∉ (records.take k).filterMap definitionName := by
  intro hmem
  rw [← described_isSome_iff] at hmem
  have hmatch := (generateFields_match (recordsMatch_records hrun) fields).1
  -- the state behind the fields and the state behind the definition
  have hbefore := h _ _ (.field fields.length hrun hrecord hlist)
  rw [List.take_length, stubs_eq_pending hmatch] at hbefore
  have hgen : (records.take (k + 1)).foldlM (generateRecord deps) apiResolver =
      .ok ((generateFields deps r fields).2.insertRecordType
        ⟨record.name, (generateFields deps r fields).1⟩) := by
    rw [List.take_add_one, hrecord, Option.toList_some]
    exact Fallible.foldlM_concat_eq_ok_iff.mpr
      ⟨r, hrun, (generateRecord_eq_ok_iff hlist).mpr ⟨hne, rfl⟩⟩
  have hafter := h _ _ (.record hgen)
  rw [stubs_eq_pending (recordsMatch_records hgen), List.take_add_one, hrecord] at hafter
  obtain ⟨hpending, hcount⟩ := insertRecordType_repeated hmatch hlist hmem
    (generateFields deps r fields).1
  rw [Option.toList_some, hpending, hcount, ← hbefore] at hafter
  have hsame := UInt64.toNat.inj hafter
  grind

/-- **Exactness.** -/
theorem nodup_of_countsStubs (h : CountsStubs deps records) : (definedNames records).Nodup := by
  have hprocessed : ∀ k ≤ (records.takeWhile hasNoEmptyFields).length,
      ((records.take k).filterMap definitionName).Nodup := by
    intro k hk
    induction k with
    | zero => simp
    | succ k ih =>
      have htaken : records.take (k + 1) = (records.takeWhile hasNoEmptyFields).take (k + 1) := by
        obtain ⟨rest, hrest⟩ := List.takeWhile_prefix hasNoEmptyFields (l := records)
        conv_lhs => rw [← hrest]
        exact List.take_append_of_le_length hk
      have hall : ∀ record ∈ records.take (k + 1), hasNoEmptyFields record := by
        intro record hmem
        rw [htaken] at hmem
        exact List.all_eq_true.mp List.all_takeWhile record (List.mem_of_mem_take hmem)
      cases hrecord : records[k]? with
      | none =>
        rw [List.take_add_one, hrecord]
        simpa using ih (by omega)
      | some record =>
        rw [List.take_add_one, hrecord] at hall ⊢
        rw [Option.toList_some] at hall ⊢
        obtain ⟨r, hrun⟩ : ∃ r, (records.take k).foldlM (generateRecord deps) apiResolver = .ok r :=
          foldlM_generateRecord_iff.mpr fun record' hmem =>
            hall record' (List.mem_append_left _ hmem)
        rw [List.filterMap_append, List.nodup_append]
        refine ⟨ih (by omega), by cases hd : definitionName record <;> simp [hd], ?_⟩
        intro name hname name' hname' heq
        cases hlist : RecordFields.list record.fields with
        | none => simp [definitionName, hlist] at hname'
        | some fields =>
          have hne : fields ≠ [] := by
            have haccepted := hall record (by simp)
            simpa [hasNoEmptyFields, hlist] using haccepted
          simp only [List.filterMap_cons, definitionName, hlist, Option.map_some,
            List.filterMap_nil, List.mem_singleton] at hname'
          rw [heq, hname'] at hname
          exact not_repeated_of_countsStubs h hrun hrecord hlist hne hname
  have hall := hprocessed _ (Nat.le_refl _)
  rwa [← List.prefix_iff_eq_take.mp (List.takeWhile_prefix hasNoEmptyFields)] at hall

theorem countsStubs_iff (hsize : fieldCount records < 2 ^ 64) :
    CountsStubs deps records ↔ (definedNames records).Nodup :=
  ⟨nodup_of_countsStubs, fun h => countsStubs_of_nodup h hsize⟩

end Runs

end Marine.Generator
