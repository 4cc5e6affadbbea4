import Marine.Interface.ModuleInterface

/-!
# The published records

The transformer of the records relies on two things that the loader has made
sure of: the exported records are closed under mention, and no record contains
itself.  The second comes from the level limit of the loader.

* `dfs_eq_visit`: the search of the transformer is the one of the library.
* `topologicalSort_spec`: the order it finds.
* `interface_closed`: the exported records are the reachable ones, and their
  conversion cannot fail.
* `published_sorted`: the order of the published records.
-/

namespace Marine.Interface

open Marine.Loader

/-- The records that the fields of a record mention. -/
def mentions (recordTypes : RecordTypes) (id : Nat) : List Nat :=
  match recordTypes.lookup id with
  | none => []
  | some record => record.fields.filterMap IRecordFieldType.mentioned

/-- What a record of the map mentions is in the map. -/
def Closed (recordTypes : RecordTypes) : Prop :=
  ∀ id, ∀ c ∈ mentions recordTypes id, (recordTypes.lookup c).isSome

/-! ## The search -/

section Search

variable {recordTypes : RecordTypes}

/-- The outcome of a search of the library. -/
def ofVisit (x : Option RecordsTransformer) : Except InterfaceFailure RecordsTransformer :=
  match x with
  | some t => .ok t
  | none => .error .outOfFuel

theorem typeDfs_mentioned
    (dfs : Nat → IRecordType → RecordsTransformer → Except InterfaceFailure RecordsTransformer)
    (t : RecordsTransformer) {ty : IType} {id : Nat} {record : IRecordType}
    (hid : ty.mentioned = some id) (hrecord : recordTypes.lookup id = some record) :
    RecordsTransformer.typeDfs recordTypes dfs t ty = dfs id record t := by
  induction ty with
  | record id' =>
    cases hid
    rw [RecordsTransformer.typeDfs, hrecord]
  | array elem ih => exact ih hid
  | _ => cases hid

theorem typeDfs_none
    (dfs : Nat → IRecordType → RecordsTransformer → Except InterfaceFailure RecordsTransformer)
    (t : RecordsTransformer) {ty : IType} (hid : ty.mentioned = none) :
    RecordsTransformer.typeDfs recordTypes dfs t ty = .ok t := by
  induction ty with
  | record id' => cases hid
  | array elem ih => exact ih hid
  | _ => rfl

/-- The loop over the fields is the loop over what they mention. -/
theorem foldlM_typeDfs_eq_visit
    {dfs : Nat → IRecordType → RecordsTransformer → Except InterfaceFailure RecordsTransformer}
    {visit : Nat → RecordsTransformer → Option RecordsTransformer}
    (hdfs : ∀ id record t, recordTypes.lookup id = some record →
      dfs id record t = ofVisit (visit id t))
    (fields : List IRecordFieldType) (t : RecordsTransformer)
    (hknown : ∀ c ∈ fields.filterMap IRecordFieldType.mentioned, (recordTypes.lookup c).isSome) :
    fields.foldlM (fun t field => RecordsTransformer.typeDfs recordTypes dfs t field.ty) t =
      ofVisit ((fields.filterMap IRecordFieldType.mentioned).foldlM (fun t c => visit c t) t) := by
  induction fields generalizing t with
  | nil => rfl
  | cons field fields ih =>
    rw [List.foldlM_cons]
    cases hid : field.mentioned with
    | none =>
      rw [List.filterMap_cons_none hid] at hknown ⊢
      rw [typeDfs_none _ t hid]
      exact ih t hknown
    | some c =>
      rw [List.filterMap_cons_some hid] at hknown ⊢
      obtain ⟨child, hchild⟩ := Option.isSome_iff_exists.mp (hknown c (List.mem_cons_self ..))
      rw [typeDfs_mentioned _ t hid hchild, hdfs c child t hchild, List.foldlM_cons]
      cases visit c t with
      | none => rfl
      | some t' => exact ih t' fun c' hc' => hknown c' (List.mem_cons_of_mem c hc')

/-- **The two searches agree.** -/
theorem dfs_eq_visit (hclosed : Closed recordTypes) (fuel : Nat) {id : Nat} {record : IRecordType}
    (hrecord : recordTypes.lookup id = some record) (t : RecordsTransformer) :
    RecordsTransformer.dfs recordTypes fuel id record t =
      ofVisit (DepthFirst.visit (mentions recordTypes) fuel id t) := by
  induction fuel generalizing id record t with
  | zero => rfl
  | succ fuel ih =>
    rw [RecordsTransformer.dfs, DepthFirst.visit]
    by_cases hused : id ∈ t.used
    · rw [if_pos hused, if_pos hused]
      rfl
    · rw [if_neg hused, if_neg hused]
      have hmentions : mentions recordTypes id =
          record.fields.filterMap IRecordFieldType.mentioned := by
        rw [mentions, hrecord]
      rw [foldlM_typeDfs_eq_visit (fun _ _ t' hlookup => ih hlookup t') record.fields _
        (hmentions ▸ hclosed id), hmentions]
      cases (record.fields.filterMap IRecordFieldType.mentioned).foldlM
        (fun s c => DepthFirst.visit (mentions recordTypes) fuel c s)
        ({ t with used := id :: t.used } : RecordsTransformer) with
      | none => rfl
      | some s' => rfl

/-- The roots of the search are the records of the map. -/
theorem mem_sortedByName (order : IterationOrder) {id : Nat} {record : IRecordType} :
    (id, record) ∈ RecordsTransformer.sortedByName order recordTypes ↔
      recordTypes.lookup id = some record := by
  unfold RecordsTransformer.sortedByName
  rw [List.mem_mergeSort, (order.perm _).mem_iff, List.mem_map, ← Option.mem_def,
    AList.mem_lookup_iff]
  constructor
  · rintro ⟨⟨_, _⟩, hmem, heq⟩
    cases heq
    exact hmem
  · intro hmem
    exact ⟨_, hmem, rfl⟩

/-- The search from a list of records of the map. -/
theorem foldlM_dfs_eq_visit (hclosed : Closed recordTypes) (fuel : Nat)
    (roots : List (Nat × IRecordType)) (t : RecordsTransformer)
    (hroots : ∀ p ∈ roots, recordTypes.lookup p.1 = some p.2) :
    roots.foldlM (fun t p => RecordsTransformer.dfs recordTypes fuel p.1 p.2 t) t =
      ofVisit ((roots.map Prod.fst).foldlM
        (fun t c => DepthFirst.visit (mentions recordTypes) fuel c t) t) := by
  induction roots generalizing t with
  | nil => rfl
  | cons p roots ih =>
    rw [List.foldlM_cons, dfs_eq_visit hclosed _ (hroots p (List.mem_cons_self ..)), List.map_cons,
      List.foldlM_cons]
    cases DepthFirst.visit (mentions recordTypes) fuel p.1 t with
    | none => rfl
    | some t' => exact ih t' fun q hq => hroots q (List.mem_cons_of_mem p hq)

/-- **Spec of `topological_sort`.** -/
theorem topologicalSort_spec (order : IterationOrder) (hclosed : Closed recordTypes)
    {rank : Nat → Nat} (hrank : ∀ id, ∀ c ∈ mentions recordTypes id, rank c < rank id) :
    ∃ t, RecordsTransformer.topologicalSort order recordTypes DepthFirst.State.empty = .ok t ∧
      t.sortedOrder.Nodup ∧ DepthFirst.Sorted (mentions recordTypes) t.sortedOrder ∧
      ∀ id, id ∈ t.sortedOrder ↔ (recordTypes.lookup id).isSome := by
  have hkeys : ∀ id, id ∈ recordTypes.keys ↔ (recordTypes.lookup id).isSome := by
    intro id
    rw [AList.lookup_isSome, AList.mem_keys]
  have hroots : ∀ id, id ∈ (RecordsTransformer.sortedByName order recordTypes).map Prod.fst ↔
      id ∈ recordTypes.keys := by
    intro id
    rw [hkeys, List.mem_map, Option.isSome_iff_exists]
    constructor
    · rintro ⟨⟨_, record⟩, hmem, rfl⟩
      exact ⟨record, (mem_sortedByName order).mp hmem⟩
    · rintro ⟨record, hrecord⟩
      exact ⟨(id, record), (mem_sortedByName order).mpr hrecord, rfl⟩
  have hfuel : recordTypes.keys.length < recordTypes.entries.length + 1 := by
    simp [AList.keys, List.keys]
  have hnext : ∀ id ∈ recordTypes.keys, ∀ c ∈ mentions recordTypes id, c ∈ recordTypes.keys :=
    fun id _ c hc => (hkeys c).mpr (hclosed id c hc)
  obtain ⟨t, hvisit, hnodup, hsorted, hmem⟩ :=
    DepthFirst.visitAll_spec hnext hroots hrank hfuel
  refine ⟨t, ?_, hnodup, hsorted, fun id => (hmem id).trans (hkeys id)⟩
  unfold DepthFirst.visitAll at hvisit
  rw [RecordsTransformer.topologicalSort, foldlM_dfs_eq_visit hclosed _ _ _
    fun p hp => (mem_sortedByName order).mp hp, hvisit]
  rfl

/-- The conversion of a closed map. -/
theorem intoTransformedRecord_ok (hclosed : Closed recordTypes) {id : Nat} {record : IRecordType}
    (hrecord : recordTypes.lookup id = some record) :
    ∃ published, RecordsTransformer.intoTransformedRecord recordTypes id = .ok published ∧
      published.id = id := by
  have hfield : ∀ field ∈ record.fields, ∃ converted : RecordField,
      (itypeTextView recordTypes field.ty >>= fun ty =>
        (pure ⟨field.name, ty⟩ : Except InterfaceFailure RecordField)) = .ok converted := by
    intro field hfield
    have hknown : ∀ c, field.ty.mentioned = some c → (recordTypes.lookup c).isSome := by
      intro c hc
      apply hclosed id
      rw [mentions, hrecord]
      exact List.mem_filterMap.mpr ⟨field, hfield, hc⟩
    obtain ⟨text, htext⟩ := (itypeTextView_isOk_iff recordTypes field.ty).mpr hknown
    exact ⟨_, Fallible.bind_eq_ok_iff.mpr ⟨text, htext, rfl⟩⟩
  obtain ⟨fields, hfields⟩ := Fallible.exists_mapM_ok hfield
  refine ⟨⟨record.name, id, fields⟩, ?_, rfl⟩
  rw [RecordsTransformer.intoTransformedRecord, hrecord]
  exact Fallible.bind_eq_ok_iff.mpr ⟨fields, hfields, rfl⟩

theorem mapM_intoTransformedRecord_ok (hclosed : Closed recordTypes) {ids : List Nat}
    (hids : ∀ id ∈ ids, (recordTypes.lookup id).isSome) :
    ∃ records, ids.mapM (RecordsTransformer.intoTransformedRecord recordTypes) = .ok records := by
  refine Fallible.exists_mapM_ok fun id hid => ?_
  obtain ⟨record, hrecord⟩ := Option.isSome_iff_exists.mp (hids id hid)
  obtain ⟨published, hpublished, -⟩ := intoTransformedRecord_ok hclosed hrecord
  exact ⟨published, hpublished⟩

end Search

/-! ## What the loader makes sure of -/

section Loaded

variable {mit : MITInterfaces} {iface : IModuleInterface}

/-- A type reaches the record it mentions. -/
theorem reachesRecord_of_mentioned (allRecordTypes : RecordTypes) {t : IType} {id : Nat}
    (h : t.mentioned = some id) : ReachesRecord allRecordTypes t id := by
  induction t with
  | record id' =>
    cases h
    exact ⟨0, .here _⟩
  | array elem ih => exact reachesRecord_array_iff.mpr (ih h)
  | _ => cases h

/-- What can be reached from a mentioned record lies deeper. -/
theorem path_of_mentions {allRecordTypes : RecordTypes} {id c : Nat} {record : IRecordType}
    (hrecord : allRecordTypes.lookup id = some record)
    (hc : c ∈ record.fields.filterMap IRecordFieldType.mentioned) :
    ∃ n, 0 < n ∧ Walks.Path (innerTypes allRecordTypes) (.record id) n (.record c) := by
  obtain ⟨field, hfield, hmentioned⟩ := List.mem_filterMap.mp hc
  obtain ⟨n, hp⟩ := reachesRecord_of_mentioned allRecordTypes hmentioned
  refine ⟨2 + n, by omega, .step ?_ hp⟩
  rw [innerTypes, hrecord, Option.elim_some]
  exact List.mem_map.mpr ⟨field, hfield, rfl⟩

/-- An exported record is a record of the section. -/
theorem lookup_of_exported (h : Loader.getInterface mit = .ok iface) {id : Nat}
    {record : IRecordType} (hrecord : iface.exportRecordTypes.lookup id = some record) :
    (getAllRecords mit).lookup id = some record :=
  (getAllRecords_eq_some_iff mit id record).mpr ((getInterface_closure h id).2 record hrecord)

/-- A mention lies on a path from a type of an exported function. -/
theorem paths_of_mentions (h : Loader.getInterface mit = .ok iface) {id c : Nat}
    (hc : c ∈ mentions iface.exportRecordTypes id) :
    ∃ s ∈ iface.functionSignatures, ∃ t ∈ s.itypes, ∃ n m, 0 < m ∧
      Walks.Path (innerTypes (getAllRecords mit)) t n (.record id) ∧
      Walks.Path (innerTypes (getAllRecords mit)) (.record id) m (.record c) := by
  unfold mentions at hc
  cases hrecord : iface.exportRecordTypes.lookup id with
  | none =>
    rw [hrecord] at hc
    cases hc
  | some record =>
    rw [hrecord] at hc
    have hsome : (iface.exportRecordTypes.lookup id).isSome := by
      rw [hrecord]
      rfl
    obtain ⟨s, hs, t, ht, n, hp⟩ := (getInterface_closure h id).1.mp hsome
    obtain ⟨m, hpos, hp'⟩ := path_of_mentions (lookup_of_exported h hrecord) hc
    exact ⟨s, hs, t, ht, n, m, hpos, hp, hp'⟩

/-- Mentioned records are reached with the records that mention them. -/
theorem exported_of_mentions (h : Loader.getInterface mit = .ok iface) :
    Closed iface.exportRecordTypes := by
  intro id c hc
  obtain ⟨s, hs, t, ht, n, m, -, hp, hp'⟩ := paths_of_mentions h hc
  exact (getInterface_closure h c).1.mpr ⟨s, hs, t, ht, n + m, hp.append hp'⟩

/-- **Rank.**  The level limit of the loader bounds the paths from an exported
record, so the heaviest one gets lighter with every mention. -/
theorem height_of_mentions (h : Loader.getInterface mit = .ok iface) :
    ∀ id, ∀ c ∈ mentions iface.exportRecordTypes id,
      Walks.height (innerTypes (getAllRecords mit)) (.record c) <
        Walks.height (innerTypes (getAllRecords mit)) (.record id) := by
  intro id c hc
  obtain ⟨s, hs, t, ht, n, m, hpos, hp, hp'⟩ := paths_of_mentions h hc
  have hbound : ∀ k inner, Walks.Path (innerTypes (getAllRecords mit)) (.record id) k inner →
      k ≤ typeResolveRecursionLimit := by
    intro k inner hk
    have hlimit := (handleItype_of_getInterface h hs ht _ inner (hp.append hk)).1
    omega
  exact hp'.height_lt hpos hbound

theorem serializeFunctionSignature_ok (h : Loader.getInterface mit = .ok iface)
    {s : IFunctionSignature} (hs : s ∈ iface.functionSignatures) :
    ∃ signature, serializeFunctionSignature iface.exportRecordTypes s = .ok signature := by
  have htext : ∀ t ∈ s.itypes, ∃ text, itypeTextView iface.exportRecordTypes t = .ok text := by
    intro t ht
    refine (itypeTextView_isOk_iff _ t).mpr fun id hid => ?_
    exact (getInterface_closure h id).1.mpr ⟨s, hs, t, ht, reachesRecord_of_mentioned _ hid⟩
  obtain ⟨arguments, hargs⟩ := Fallible.exists_mapM_ok (l := s.arguments)
    (f := fun arg => itypeTextView iface.exportRecordTypes arg.ty >>= fun text =>
      (pure (arg.name, text) : Except InterfaceFailure (String × String))) fun arg harg => by
    obtain ⟨text, htext⟩ := htext arg.ty
      (List.mem_append_left _ (List.mem_map_of_mem (f := FunctionArg.ty) harg))
    exact ⟨_, Fallible.bind_eq_ok_iff.mpr ⟨text, htext, rfl⟩⟩
  obtain ⟨outputs, houts⟩ := Fallible.exists_mapM_ok
    fun t (ht : t ∈ s.outputs) => htext t (List.mem_append_right _ ht)
  exact ⟨_, Fallible.bind_eq_ok_iff.mpr ⟨arguments, hargs,
    Fallible.bind_eq_ok_iff.mpr ⟨outputs, houts, rfl⟩⟩⟩

/-- The published records of a read interface. -/
theorem transform_spec (order : IterationOrder) (h : Loader.getInterface mit = .ok iface) :
    ∃ records ids, RecordsTransformer.transform order iface.exportRecordTypes = .ok records ∧
      ids.Nodup ∧ DepthFirst.Sorted (mentions iface.exportRecordTypes) ids ∧
      (∀ id, id ∈ ids ↔ (iface.exportRecordTypes.lookup id).isSome) ∧
      ids.mapM (RecordsTransformer.intoTransformedRecord iface.exportRecordTypes) =
        .ok records := by
  have hclosed := exported_of_mentions h
  obtain ⟨t, hsort, hnodup, hsorted, hmem⟩ := topologicalSort_spec order hclosed
    (height_of_mentions h)
  obtain ⟨records, hrecords⟩ := mapM_intoTransformedRecord_ok hclosed fun id hid =>
    (hmem id).mp hid
  exact ⟨records, t.sortedOrder, Fallible.bind_eq_ok_iff.mpr ⟨t, hsort, hrecords⟩, hnodup, hsorted,
    hmem, hrecords⟩

theorem itToModuleInterface_returns (order : IterationOrder)
    (h : Loader.getInterface mit = .ok iface) : ∃ m, itToModuleInterface order iface = .ok m := by
  obtain ⟨signatures, hsignatures⟩ := Fallible.exists_mapM_ok
    fun s hs => serializeFunctionSignature_ok h (s := s) hs
  obtain ⟨records, -, htransform, -⟩ := transform_spec order h
  exact ⟨⟨signatures, records⟩, Fallible.bind_eq_ok_iff.mpr ⟨signatures, hsignatures,
    Fallible.bind_eq_ok_iff.mpr ⟨records, htransform, rfl⟩⟩⟩

/-- **Interface closure.**  The exported records are exactly those that can be
reached from the exported functions, each the record of the types list, and the
conversion of such an interface returns. -/
theorem interface_closed (order : IterationOrder) (h : Loader.getInterface mit = .ok iface) :
    (∀ id, (iface.exportRecordTypes.lookup id).isSome ↔ ReachedByInterface mit iface id) ∧
      (∀ id record, iface.exportRecordTypes.lookup id = some record →
        mit.types[id]? = some (.record record)) ∧
      ∃ m, itToModuleInterface order iface = .ok m :=
  ⟨fun id => (getInterface_closure h id).1, fun id => (getInterface_closure h id).2,
    itToModuleInterface_returns order h⟩

/-- The conversion of a record comes from a record of the map. -/
theorem intoTransformedRecord_inv {recordTypes : RecordTypes} {id : Nat} {r : RecordType}
    (h : RecordsTransformer.intoTransformedRecord recordTypes id = .ok r) :
    r.id = id ∧ ∃ record, recordTypes.lookup id = some record ∧
      RecordsTransformer.convertRecord id record recordTypes = .ok r := by
  unfold RecordsTransformer.intoTransformedRecord at h
  cases hrecord : recordTypes.lookup id with
  | none =>
    rw [hrecord] at h
    cases h
  | some record =>
    rw [hrecord] at h
    refine ⟨?_, record, rfl, h⟩
    obtain ⟨fields, -, hr⟩ := Fallible.bind_eq_ok_iff.mp h
    cases hr
    rfl

theorem map_id_of_mapM {recordTypes : RecordTypes} {ids : List Nat} {records : List RecordType}
    (h : ids.mapM (RecordsTransformer.intoTransformedRecord recordTypes) = .ok records) :
    records.map RecordType.id = ids := by
  induction Fallible.mapM_eq_ok_iff.mp h with
  | nil => rfl
  | cons hr hrs ih =>
    simp [(intoTransformedRecord_inv hr).1, ih (Fallible.mapM_eq_ok_iff.mpr hrs)]

/-- No record mentions itself, directly or through others. -/
theorem mentions_acyclic (h : Loader.getInterface mit = .ok iface) (id : Nat) :
    ¬ Relation.TransGen (fun a b => b ∈ mentions iface.exportRecordTypes a) id id := by
  have hlower : ∀ a b, Relation.TransGen (fun a b => b ∈ mentions iface.exportRecordTypes a) a b →
      Walks.height (innerTypes (getAllRecords mit)) (.record b) <
        Walks.height (innerTypes (getAllRecords mit)) (.record a) := by
    intro a b hab
    induction hab with
    | single hb => exact height_of_mentions h _ _ hb
    | tail _ hc ih => exact Nat.lt_trans (height_of_mentions h _ _ hc) ih
  exact fun hcycle => Nat.lt_irrefl _ (hlower id id hcycle)

/-- **Topological order.**  The published records are the exported ones, each
once and behind all records its fields mention.  That there is no cycle follows
from the interface having been read. -/
theorem published_sorted (order : IterationOrder) {m : ModuleInterface}
    (h : getInterface order mit = .ok m) :
    ∃ iface, Loader.getInterface mit = .ok iface ∧ (m.recordTypes.map RecordType.id).Nodup ∧
      (∀ id, id ∈ m.recordTypes.map RecordType.id ↔
        (iface.exportRecordTypes.lookup id).isSome) ∧
      (∀ (i : Nat) r, m.recordTypes[i]? = some r →
        ∃ record, iface.exportRecordTypes.lookup r.id = some record ∧
          RecordsTransformer.convertRecord r.id record iface.exportRecordTypes = .ok r ∧
          ∀ field ∈ record.fields, ∀ c, field.ty.mentioned = some c →
            ∃ j < i, ∃ r', m.recordTypes[j]? = some r' ∧ r'.id = c) ∧
      ∀ id, ¬ Relation.TransGen (fun a b => b ∈ mentions iface.exportRecordTypes a) id id := by
  unfold getInterface at h
  cases hread : Loader.getInterface mit with
  | error e =>
    rw [hread] at h
    cases h
  | ok iface =>
    rw [hread] at h
    obtain ⟨signatures, -, h⟩ := Fallible.bind_eq_ok_iff.mp h
    obtain ⟨records, htransform, h⟩ := Fallible.bind_eq_ok_iff.mp h
    cases h
    obtain ⟨records', ids, htransform', hnodup, hsorted, hmem, hrecords⟩ :=
      transform_spec order hread
    cases htransform'.symm.trans htransform
    have hids := map_id_of_mapM hrecords
    refine ⟨iface, rfl, by rwa [hids], by rwa [hids], fun i r hr => ?_, mentions_acyclic hread⟩
    have hid : ids[i]? = some r.id := by
      rw [← hids, List.getElem?_map, hr]
      rfl
    obtain ⟨published, hpublished, hconvert⟩ := Fallible.getElem?_mapM hrecords hid
    cases hr.symm.trans hpublished
    obtain ⟨-, record, hrecord, hconverted⟩ := intoTransformedRecord_inv hconvert
    refine ⟨record, hrecord, hconverted, fun field hfield c hc => ?_⟩
    have hmentions : c ∈ mentions iface.exportRecordTypes r.id := by
      rw [mentions, hrecord]
      exact List.mem_filterMap.mpr ⟨field, hfield, hc⟩
    obtain ⟨j, hj, hget⟩ := hsorted i r.id hid c hmentions
    rw [← hids, List.getElem?_map, Option.map_eq_some_iff] at hget
    obtain ⟨r', hr', hrid⟩ := hget
    exact ⟨j, hj, r', hr', hrid⟩

end Loaded

/-- `fn store(row: Row)` for `struct Row { cells: Vec<Cell> }` and `struct Cell { id: u64 }`. -/
def rowSection : MITInterfaces := MITInterfaces.new {
  types := [.record ⟨"Row", [⟨"cells", .array (.record 1)⟩]⟩, .record ⟨"Cell", [⟨"id", .u64⟩]⟩,
    .function [⟨"row", .record 0⟩] [], .function [⟨"row", .record 0⟩] []]
  imports := []
  adapters := [⟨2, []⟩]
  exports := [⟨"store", 3⟩]
  implementations := [⟨3, 2⟩] }

theorem rowSection_read : ∃ iface, Loader.getInterface rowSection = .ok iface := by
  have hfuncs : getExportFuncs rowSection = .ok [⟨"store", [⟨"row", .record 0⟩], [], 2⟩] := rfl
  have hrow : (getAllRecords rowSection).lookup 0 =
    some ⟨"Row", [⟨"cells", .array (.record 1)⟩]⟩ := rfl
  have hcell : (getAllRecords rowSection).lookup 1 = some ⟨"Cell", [⟨"id", .u64⟩]⟩ := rfl
  have hrecords : ∃ full, getRecordTypes rowSection
      [⟨"store", [⟨"row", .record 0⟩], [], 2⟩] = .ok full := by
    simp [getRecordTypes, IFunctionSignature.itypes, handleItype, handleRecordType, hrow, hcell,
      typeResolveRecursionLimit]
  obtain ⟨full, hfull⟩ := hrecords
  exact ⟨_, Fallible.bind_eq_ok_iff.mpr ⟨_, hfuncs, Fallible.bind_eq_ok_iff.mpr ⟨full, hfull, rfl⟩⟩⟩

def tableOrder : IterationOrder := ⟨id, List.Perm.refl⟩

theorem interface_closed_row : ∃ iface m, Loader.getInterface rowSection = .ok iface ∧
    itToModuleInterface tableOrder iface = .ok m := by
  obtain ⟨iface, hread⟩ := rowSection_read
  obtain ⟨-, -, m, hm⟩ := interface_closed tableOrder hread
  exact ⟨iface, m, hread, hm⟩

/-- `Cell` and `Row` are published once each. -/
theorem published_sorted_row : ∃ m, getInterface tableOrder rowSection = .ok m ∧
    (m.recordTypes.map RecordType.id).Nodup := by
  obtain ⟨iface, hread⟩ := rowSection_read
  obtain ⟨m, hm⟩ := itToModuleInterface_returns tableOrder hread
  have hpublished : getInterface tableOrder rowSection = .ok m := by
    rw [getInterface, hread]
    exact hm
  obtain ⟨-, -, hnodup, -⟩ := published_sorted tableOrder hpublished
  exact ⟨m, hpublished, hnodup⟩

end Marine.Interface
