import Marine.Interface.PublishedRecords
import Mathlib.Data.String.Basic

/-!
# The order of the published records

`topological_sort` starts from the records in the order of their names, and
records with one name stay in the order of the hash map.

* `transform_eq_listing`: the published records, as a listing of the trees of the
  records.
* `transform_order_iff`: two orders of the map publish the same exactly when
  records with one name are nested.
* `sameNameNested_of_distinct`: they are if there are no two.
-/

namespace Marine.Interface

open Marine.Loader Listings

section Order

variable {recordTypes : RecordTypes}

/-- The records of the map, with their ids. -/
def recordPairs (recordTypes : RecordTypes) : List (Nat × IRecordType) :=
  recordTypes.entries.map fun e => (e.1, e.2)

/-- The records in the tree of a record, each behind those that its fields
mention. -/
def nestedRecords (recordTypes : RecordTypes) (p : Nat × IRecordType) : List Nat :=
  DepthFirst.postorder (mentions recordTypes) (recordTypes.entries.length + 1) p.1

def recordName (p : Nat × IRecordType) : String := p.2.name

/-- Of two records with one name, and without what the records with smaller names
reach, one lists the first records of the other. -/
def SameNameNested (recordTypes : RecordTypes) : Prop :=
  Nested (nestedRecords recordTypes) recordName (recordPairs recordTypes)

theorem mem_recordPairs {p : Nat × IRecordType} :
    p ∈ recordPairs recordTypes ↔ recordTypes.lookup p.1 = some p.2 := by
  unfold recordPairs
  rw [List.mem_map, ← Option.mem_def, AList.mem_lookup_iff]
  constructor
  · rintro ⟨⟨_, _⟩, hmem, rfl⟩
    exact hmem
  · intro hmem
    exact ⟨_, hmem, rfl⟩

theorem sortedByName_perm (order : IterationOrder) :
    (RecordsTransformer.sortedByName order recordTypes).Perm (recordPairs recordTypes) :=
  (List.mergeSort_perm _ _).trans (order.perm _)

theorem sortedByName_sorted (order : IterationOrder) :
    SortedBy recordName (RecordsTransformer.sortedByName order recordTypes) :=
  Sorting.pairwise_mergeSort recordName _

/-- An order that takes one list to a given arrangement. -/
def orderTo {l arranged : List (Nat × IRecordType)} (h : arranged.Perm l) : IterationOrder where
  arrange l' := if l' = l then arranged else l'
  perm l' := by
    split
    · rename_i hl
      rw [hl]
      exact h
    · exact List.Perm.refl l'

/-- A map can be iterated in any order. -/
theorem sortedByName_orderTo {roots : List (Nat × IRecordType)}
    (hperm : roots.Perm (recordPairs recordTypes)) (hsorted : SortedBy recordName roots) :
    RecordsTransformer.sortedByName (orderTo hperm) recordTypes = roots := by
  have harrange : (orderTo hperm).arrange (recordPairs recordTypes) = roots := if_pos rfl
  show ((orderTo hperm).arrange (recordPairs recordTypes)).mergeSort _ = roots
  rw [harrange]
  exact Sorting.mergeSort_of_pairwise hsorted

/-- **Spec of `topological_sort`.**  The records are listed by their trees. -/
theorem topologicalSort_listing (order : IterationOrder) (hclosed : Closed recordTypes)
    {rank : Nat → Nat} (hrank : ∀ id, ∀ c ∈ mentions recordTypes id, rank c < rank id) :
    ∃ t, RecordsTransformer.topologicalSort order recordTypes DepthFirst.State.empty = .ok t ∧
      t.sortedOrder = listing (nestedRecords recordTypes)
        (RecordsTransformer.sortedByName order recordTypes) := by
  obtain ⟨t, ht, -⟩ := topologicalSort_spec order hclosed hrank
  refine ⟨t, ht, ?_⟩
  rw [RecordsTransformer.topologicalSort, foldlM_dfs_eq_visit hclosed _ _ _
    fun p hp => (mem_sortedByName order).mp hp] at ht
  cases hvisit : ((RecordsTransformer.sortedByName order recordTypes).map Prod.fst).foldlM
      (fun t c => DepthFirst.visit (mentions recordTypes) (recordTypes.entries.length + 1) c t)
      DepthFirst.State.empty with
  | none =>
    rw [hvisit] at ht
    cases ht
  | some t' =>
    rw [hvisit] at ht
    cases ht
    rw [DepthFirst.visitAll_listing hrank hvisit, listing, listing, List.flatMap_map]
    rfl

theorem transform_eq_listing (order : IterationOrder) (hclosed : Closed recordTypes)
    {rank : Nat → Nat} (hrank : ∀ id, ∀ c ∈ mentions recordTypes id, rank c < rank id) :
    RecordsTransformer.transform order recordTypes =
      (listing (nestedRecords recordTypes)
        (RecordsTransformer.sortedByName order recordTypes)).mapM
          (RecordsTransformer.intoTransformedRecord recordTypes) := by
  obtain ⟨t, ht, hlisting⟩ := topologicalSort_listing order hclosed hrank
  unfold RecordsTransformer.transform
  rw [ht, ← hlisting]
  rfl

/-- The published records of a closed map determine its listing. -/
theorem listing_of_transform (order : IterationOrder) (hclosed : Closed recordTypes)
    {rank : Nat → Nat} (hrank : ∀ id, ∀ c ∈ mentions recordTypes id, rank c < rank id) :
    ∃ records, RecordsTransformer.transform order recordTypes = .ok records ∧
      records.map RecordType.id = listing (nestedRecords recordTypes)
        (RecordsTransformer.sortedByName order recordTypes) := by
  obtain ⟨t, hsort, -, -, hmem⟩ := topologicalSort_spec order hclosed hrank
  obtain ⟨t', hsort', hlisting⟩ := topologicalSort_listing order hclosed hrank
  cases hsort.symm.trans hsort'
  obtain ⟨records, hrecords⟩ := mapM_intoTransformedRecord_ok hclosed fun id hid =>
    (hmem id).mp hid
  refine ⟨records, Fallible.bind_eq_ok_iff.mpr ⟨t, hsort, hrecords⟩, ?_⟩
  rw [map_id_of_mapM hrecords, hlisting]

/-- **The order of the map does not show** exactly when records with one name are
nested. -/
theorem order_irrelevant_iff (hclosed : Closed recordTypes) {rank : Nat → Nat}
    (hrank : ∀ id, ∀ c ∈ mentions recordTypes id, rank c < rank id) :
    (∀ order order', RecordsTransformer.transform order recordTypes =
      RecordsTransformer.transform order' recordTypes) ↔ SameNameNested recordTypes := by
  unfold SameNameNested
  rw [← listing_eq_iff]
  constructor
  · intro h roots roots' hperm hperm' hsorted hsorted'
    obtain ⟨records, htransform, hids⟩ := listing_of_transform (orderTo hperm) hclosed hrank
    obtain ⟨records', htransform', hids'⟩ := listing_of_transform (orderTo hperm') hclosed hrank
    have hsame := h (orderTo hperm) (orderTo hperm')
    rw [htransform, htransform'] at hsame
    cases hsame
    rw [← sortedByName_orderTo hperm hsorted, ← sortedByName_orderTo hperm' hsorted', ← hids,
      ← hids']
  · intro h order order'
    rw [transform_eq_listing order hclosed hrank, transform_eq_listing order' hclosed hrank,
      h _ _ (sortedByName_perm order) (sortedByName_perm order') (sortedByName_sorted order)
        (sortedByName_sorted order')]

/-- Records with different names are nested. -/
theorem sameNameNested_of_distinct (h : ∀ id id' record record',
    recordTypes.lookup id = some record → recordTypes.lookup id' = some record' →
      record.name = record'.name → id = id') : SameNameNested recordTypes := by
  rintro ⟨id, record⟩ hp ⟨id', record'⟩ hp' hname
  have hid : id = id' :=
    h id id' record record' (mem_recordPairs.mp hp) (mem_recordPairs.mp hp') hname
  subst hid
  exact .inl List.prefix_rfl

end Order

/-- **Published order.**  All orders of the map of the exported records publish
the same exactly when records with one name are nested. -/
theorem transform_order_iff {mit : MITInterfaces} {iface : IModuleInterface}
    (h : Loader.getInterface mit = .ok iface) :
    (∀ order order', RecordsTransformer.transform order iface.exportRecordTypes =
      RecordsTransformer.transform order' iface.exportRecordTypes) ↔
        SameNameNested iface.exportRecordTypes :=
  order_irrelevant_iff (exported_of_mentions h) (height_of_mentions h)

theorem rowSection_names {id : Nat} {record : IRecordType}
    (h : rowSection.types[id]? = some (.record record)) :
    (id = 0 ∧ record.name = "Row") ∨ (id = 1 ∧ record.name = "Cell") := by
  rcases id with _ | _ | _ | _ | id <;> cases h
  · exact .inl ⟨rfl, rfl⟩
  · exact .inr ⟨rfl, rfl⟩

/-- `Row` and `Cell` have different names. -/
theorem transform_order_row : ∃ iface, Loader.getInterface rowSection = .ok iface ∧
    ∀ order order', RecordsTransformer.transform order iface.exportRecordTypes =
      RecordsTransformer.transform order' iface.exportRecordTypes := by
  obtain ⟨iface, hread⟩ := rowSection_read
  refine ⟨iface, hread, (transform_order_iff hread).mpr (sameNameNested_of_distinct ?_)⟩
  intro id id' record record' hrecord hrecord' hname
  have hcase := rowSection_names ((getInterface_closure hread id).2 record hrecord)
  have hcase' := rowSection_names ((getInterface_closure hread id').2 record' hrecord')
  rcases hcase with ⟨rfl, hrow⟩ | ⟨rfl, hcell⟩
  · rcases hcase' with ⟨rfl, -⟩ | ⟨rfl, hcell'⟩
    · rfl
    · simp [hrow, hcell'] at hname
  · rcases hcase' with ⟨rfl, hrow'⟩ | ⟨rfl, -⟩
    · simp [hcell, hrow'] at hname
    · rfl

/-- `fn store(from: Data, to: Data)`, where the two records `Data` come from
different crates. -/
def twinSection : MITInterfaces := MITInterfaces.new {
  types := [.record ⟨"Data", [⟨"id", .u64⟩]⟩, .record ⟨"Data", [⟨"text", .string⟩]⟩,
    .function [⟨"from", .record 0⟩, ⟨"to", .record 1⟩] [],
    .function [⟨"from", .record 0⟩, ⟨"to", .record 1⟩] []]
  imports := []
  adapters := [⟨2, []⟩]
  exports := [⟨"store", 3⟩]
  implementations := [⟨3, 2⟩] }

theorem twinSection_read : ∃ iface, Loader.getInterface twinSection = .ok iface ∧
    iface.functionSignatures =
      [⟨"store", [⟨"from", .record 0⟩, ⟨"to", .record 1⟩], [], 2⟩] := by
  have hfuncs : getExportFuncs twinSection =
    .ok [⟨"store", [⟨"from", .record 0⟩, ⟨"to", .record 1⟩], [], 2⟩] := rfl
  have hfirst : (getAllRecords twinSection).lookup 0 = some ⟨"Data", [⟨"id", .u64⟩]⟩ := rfl
  have hsecond : (getAllRecords twinSection).lookup 1 = some ⟨"Data", [⟨"text", .string⟩]⟩ := rfl
  have hrecords : ∃ full, getRecordTypes twinSection
      [⟨"store", [⟨"from", .record 0⟩, ⟨"to", .record 1⟩], [], 2⟩] = .ok full := by
    simp [getRecordTypes, IFunctionSignature.itypes, handleItype, handleRecordType, hfirst,
      hsecond, typeResolveRecursionLimit]
    exact ⟨_, rfl⟩
  obtain ⟨full, hfull⟩ := hrecords
  exact ⟨_, Fallible.bind_eq_ok_iff.mpr ⟨_, hfuncs,
    Fallible.bind_eq_ok_iff.mpr ⟨full, hfull, rfl⟩⟩, rfl⟩

/-- Both records have one name and stand alone. -/
theorem twinSection_records {id : Nat} {record : IRecordType}
    (h : twinSection.types[id]? = some (.record record)) :
    record.name = "Data" ∧ record.fields.filterMap IRecordFieldType.mentioned = [] := by
  rcases id with _ | _ | _ | _ | id <;> cases h
  · exact ⟨rfl, rfl⟩
  · exact ⟨rfl, rfl⟩

/-- The order of the map shows in the order of the twins. -/
theorem twinSection_order_shows : ∃ iface, Loader.getInterface twinSection = .ok iface ∧
    ¬ ∀ order order', RecordsTransformer.transform order iface.exportRecordTypes =
      RecordsTransformer.transform order' iface.exportRecordTypes := by
  obtain ⟨iface, hread, hfuncs⟩ := twinSection_read
  refine ⟨iface, hread, fun hsame => ?_⟩
  have hnested := (order_irrelevant_iff (exported_of_mentions hread)
    (height_of_mentions hread)).mp hsame
  have hrecord : ∀ {id record}, iface.exportRecordTypes.lookup id = some record →
      record.name = "Data" ∧ record.fields.filterMap IRecordFieldType.mentioned = [] :=
    fun h => twinSection_records ((getInterface_closure hread _).2 _ h)
  have hreached : ∀ id ∈ [0, 1], ∃ record, iface.exportRecordTypes.lookup id = some record := by
    intro id hid
    apply Option.isSome_iff_exists.mp
    refine (getInterface_closure hread id).1.mpr ⟨_, hfuncs ▸ List.mem_singleton_self _,
      .record id, ?_, 0, .here _⟩
    simpa [IFunctionSignature.itypes] using hid
  have htree : ∀ {id record}, iface.exportRecordTypes.lookup id = some record →
      nestedRecords iface.exportRecordTypes (id, record) = [id] := by
    intro id record h
    have hmentions : mentions iface.exportRecordTypes id = [] := by
      rw [mentions, h]
      exact (hrecord h).2
    rw [nestedRecords, DepthFirst.postorder, hmentions]
    rfl
  obtain ⟨first, hfirst⟩ := hreached 0 (by simp)
  obtain ⟨second, hsecond⟩ := hreached 1 (by simp)
  have hnone : earlier (nestedRecords iface.exportRecordTypes) recordName
      (recordPairs iface.exportRecordTypes) (recordName (0, first)) = [] := by
    apply earlier_eq_nil
    intro p hp
    exact le_of_eq ((hrecord hfirst).1.trans (hrecord (mem_recordPairs.mp hp)).1.symm)
  have htwins := hnested (0, first) (mem_recordPairs.mpr hfirst) (1, second)
    (mem_recordPairs.mpr hsecond) ((hrecord hfirst).1.trans (hrecord hsecond).1.symm)
  rw [hnone, htree hfirst, htree hsecond] at htwins
  rcases htwins with h | h
  · exact absurd h (by decide)
  · exact absurd h (by decide)

end Marine.Interface
