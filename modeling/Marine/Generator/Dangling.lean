import Marine.Generator.Stubs

/-!
# No dangling records

A section that passes `validate_records` with the right count refers to defined
records only: every name has a definition then, and every record in the types
is the record of a name.

* `noDangling_of_countsStubs`: from the count to the references.
* `stubs_tracked_iff`: when the count and the references are right.
-/

namespace Marine.Generator

/-- The types right inside a type of the section. -/
def astItypes : AstType → List IType
  | .function arguments outputTypes => arguments.map FunctionArg.ty ++ outputTypes
  | .record recordType => recordType.fields.map IRecordFieldType.ty

/-- The record was built from the description: its name, the names of its
fields, and their types under the names of `r`. -/
structure BuiltFrom (r : ITResolver) (record : RecordType) (recordType : IRecordType) : Prop where
  name : recordType.name = record.name
  fields : ∃ fields, RecordFields.list record.fields = some fields ∧
    recordType.fields.map IRecordFieldType.name = fields.map (fun field => field.name.getD "") ∧
    FieldsMatch r fields recordType.fields

/-- After validation every record id in the types stands for a record that was
built from a description with the name that has this id. -/
def NoDangling (deps : Externals) (records : List RecordType) : Prop :=
  ∀ r, records.foldlM (generateRecord deps) apiResolver = .ok r → validateRecords r = .ok () →
    ∀ ty ∈ r.interfaces.types, ∀ t ∈ astItypes ty, ∀ id, t.mentioned = some id →
      ∃ record ∈ records, ∃ recordType,
        (∀ name, r.types.lookup name = some id ↔ name = record.name) ∧
        r.interfaces.types[id]? = some (.record recordType) ∧ BuiltFrom r record recordType

theorem BuiltFrom.grows {r r' : ITResolver} (h : r.Grows r') {record : RecordType}
    {recordType : IRecordType} (hb : BuiltFrom r record recordType) :
    BuiltFrom r' record recordType := by
  obtain ⟨fields, hlist, hnames, hmatch⟩ := hb.fields
  exact ⟨hb.name, fields, hlist, hnames, hmatch.grows h⟩

/-! ## Mentioned records -/

@[simp] theorem mentioned_arrayOf (t : IType) : (arrayOf t).mentioned = t.mentioned := by
  unfold arrayOf
  by_cases h : t = .u8
  · simp [h, IType.mentioned]
  · simp [h, IType.mentioned]

/-- A checked type mentions a registered record. -/
theorem lookup_of_mentioned {r : ITResolver} {ty : ParsedType} {t : IType} {id : Nat}
    (h : ptypeToItypeChecked r ty = .ok t) (hid : t.mentioned = some id) :
    ∃ name, r.types.lookup name = some id := by
  induction ty generalizing t with
  | vector elem ih =>
    obtain ⟨t', ht', rfl⟩ := ptypeToItypeChecked_vector_iff.mp h
    rw [mentioned_arrayOf] at hid
    exact ih ht' hid
  | record name =>
    obtain ⟨id', hlookup, rfl⟩ := ptypeToItypeChecked_record_iff.mp h
    cases hid
    exact ⟨name, hlookup⟩
  | _ =>
    cases h
    cases hid

/-! ## Every record in the types has a name -/

/-- What has no name mentions no record. -/
def Placed (r : ITResolver) : Prop :=
  ∀ (id : Nat) ty, r.interfaces.types[id]? = some ty →
    (∃ name, r.types.lookup name = some id) ∨ ∀ t ∈ astItypes ty, t.mentioned = none

theorem Placed.push {r : ITResolver} (h : Placed r) (name : String) (recordType : IRecordType)
    (hnew : r.types.lookup name = none) (count : UInt64) :
    Placed { r.pushType (.record recordType) with
      types := r.types.insert name r.interfaces.types.length
      unresolvedTypesCount := count } := by
  intro id ty hty
  dsimp only [ITResolver.pushType] at hty ⊢
  rcases Nat.lt_trichotomy id r.interfaces.types.length with hlt | heq | hgt
  · rw [List.getElem?_append_left hlt] at hty
    rcases h id ty hty with ⟨name', hname'⟩ | hnone
    · have hne : name' ≠ name := by
        rintro rfl
        rw [hnew] at hname'
        cases hname'
      exact .inl ⟨name', (AList.lookup_insert_ne hne).trans hname'⟩
    · exact .inr hnone
  · rw [heq]
    exact .inl ⟨name, AList.lookup_insert _⟩
  · have hlen : id < (r.interfaces.types ++ [AstType.record recordType]).length :=
      (List.getElem?_eq_some_iff.mp hty).1
    simp only [List.length_append, List.length_singleton] at hlen
    omega

theorem Placed.set {r : ITResolver} (h : Placed r) {name : String} {pos : Nat}
    (hpos : r.types.lookup name = some pos) (recordType : IRecordType) (count : UInt64) :
    Placed { r with
      interfaces := { r.interfaces with types := r.interfaces.types.set pos (.record recordType) }
      unresolvedTypesCount := count } := by
  intro id ty hty
  by_cases hid : id = pos
  · rw [hid]
    exact .inl ⟨name, hpos⟩
  · exact h id ty ((List.getElem?_set_ne (Ne.symm hid)).symm.trans hty)

theorem Placed.insertRecordType {r : ITResolver} (h : Placed r) (record : IRecordType) :
    Placed (r.insertRecordType record) := by
  unfold ITResolver.insertRecordType
  cases hpos : r.types.lookup record.name with
  | some pos => exact h.set hpos record _
  | none => exact h.push record.name record hpos r.unresolvedTypesCount

theorem Placed.ptypeToItypeUnchecked {deps : Externals} {r : ITResolver} (h : Placed r)
    (ty : ParsedType) : Placed (Generator.ptypeToItypeUnchecked deps r ty).2 := by
  rcases ptypeToItypeUnchecked_cases deps r ty with hsame | ⟨name, hnew, hstub⟩
  · rwa [hsame]
  · rw [hstub]
    exact h.push name deps.defaultRecord hnew _

theorem Placed.generateFields {deps : Externals} {r : ITResolver} (h : Placed r)
    (fields : List RecordField) : Placed (Generator.generateFields deps r fields).2 := by
  induction fields generalizing r with
  | nil => exact h
  | cons field fields ih => exact ih (h.ptypeToItypeUnchecked field.ty)

theorem Placed.generateRecord {deps : Externals} {r r' : ITResolver} {record : RecordType}
    (h : Placed r) (hgen : Generator.generateRecord deps r record = .ok r') : Placed r' := by
  cases hlist : RecordFields.list record.fields with
  | none =>
    rw [generateRecord_undescribed hlist] at hgen
    cases hgen
    exact h
  | some fields =>
    obtain ⟨-, rfl⟩ := (generateRecord_eq_ok_iff hlist).mp hgen
    exact (h.generateFields fields).insertRecordType _

theorem placed_records {deps : Externals} {records : List RecordType} {r : ITResolver}
    (h : records.foldlM (generateRecord deps) apiResolver = .ok r) : Placed r := by
  have hstart : Placed apiResolver := by
    have hnone : ∀ ty ∈ apiResolver.interfaces.types, ∀ t ∈ astItypes ty, t.mentioned = none := by
      decide
    exact fun id ty hty => .inr (hnone ty (List.mem_of_getElem? hty))
  exact Fallible.foldlM_invariant (d := []) (I := fun _ s => Placed s)
    (fun _ _ _ _ hs hstep => hs.generateRecord hstep) hstart h

/-! ## Every definition is kept -/

/-- What has a definition was built from one. -/
def KeepsDefinitions (done : List RecordType) (r : ITResolver) : Prop :=
  ∀ name recordType, ((described done).lookup name).isSome →
    r.recordOf name = some recordType → ∃ record ∈ done, record.name = name ∧
      BuiltFrom r record recordType

section Steps

variable {deps : Externals} {done : List RecordType} {r : ITResolver}

/-- A stub for a name without a definition changes no definition. -/
theorem KeepsDefinitions.updates {r' : ITResolver} (h : KeepsDefinitions done r) {name : String}
    {recordType : IRecordType} (hup : r.Updates r' name recordType)
    (hnone : (described done).lookup name = none) : KeepsDefinitions done r' := by
  intro name' recordType' hsome hrecord
  have hne : name' ≠ name := by
    rintro rfl
    rw [hnone] at hsome
    cases hsome
  rw [hup.recordOf, if_neg hne] at hrecord
  obtain ⟨record, hmem, hname, hbuilt⟩ := h name' recordType' hsome hrecord
  exact ⟨record, hmem, hname, hbuilt.grows hup.grows⟩

theorem KeepsDefinitions.ptypeToItypeUnchecked (hmatch : RecordsMatch deps done r)
    (h : KeepsDefinitions done r) (ty : ParsedType) :
    KeepsDefinitions done (Generator.ptypeToItypeUnchecked deps r ty).2 := by
  rcases ptypeToItypeUnchecked_cases deps r ty with hsame | ⟨name, hnew, hstub⟩
  · rwa [hsame]
  · have hup := hmatch.wellNamed.updates_push hnew deps.defaultRecord (r.unresolvedTypesCount + 1)
    rw [hstub]
    exact h.updates hup (hmatch.undescribed hnew)

theorem KeepsDefinitions.generateFields (hmatch : RecordsMatch deps done r)
    (h : KeepsDefinitions done r) (fields : List RecordField) :
    KeepsDefinitions done (Generator.generateFields deps r fields).2 := by
  induction fields generalizing r with
  | nil => exact h
  | cons field fields ih =>
    exact ih (ptypeToItypeUnchecked_match hmatch field.ty).1
      (h.ptypeToItypeUnchecked hmatch field.ty)

theorem generateFields_names (deps : Externals) (r : ITResolver) (fields : List RecordField) :
    (generateFields deps r fields).1.map IRecordFieldType.name =
      fields.map fun field => field.name.getD "" := by
  induction fields generalizing r with
  | nil => rfl
  | cons field fields ih => simp [generateFields, ih]

/-- **Spec of a registered record.**  It is the record of its name, built from
its description. -/
theorem generateRecord_builtFrom {r' : ITResolver} (hmatch : RecordsMatch deps done r)
    {record : RecordType} {fields : List RecordField}
    (hlist : RecordFields.list record.fields = some fields)
    (h : generateRecord deps r record = .ok r') :
    ∃ recordType, r'.recordOf record.name = some recordType ∧ BuiltFrom r' record recordType := by
  obtain ⟨-, rfl⟩ := (generateRecord_eq_ok_iff hlist).mp h
  obtain ⟨hmatch', -, hfields⟩ := generateFields_match hmatch fields
  have hup := ITResolver.insertRecordType_updates hmatch'.wellNamed
    ⟨record.name, (generateFields deps r fields).1⟩
  refine ⟨⟨record.name, (generateFields deps r fields).1⟩, ?_, rfl, fields, hlist,
    generateFields_names deps r fields, hfields.grows hup.grows⟩
  rw [hup.recordOf, if_pos rfl]

/-- **Step lemma.** -/
theorem KeepsDefinitions.generateRecord {r' : ITResolver} (hmatch : RecordsMatch deps done r)
    (h : KeepsDefinitions done r) {record : RecordType}
    (hgen : Generator.generateRecord deps r record = .ok r') :
    KeepsDefinitions (done ++ [record]) r' := by
  intro name recordType hsome hrecord
  rw [described_concat] at hsome
  cases hlist : RecordFields.list record.fields with
  | none =>
    rw [generateRecord_undescribed hlist] at hgen
    cases hgen
    rw [hlist] at hsome
    obtain ⟨record', hmem, hname, hbuilt⟩ := h name recordType hsome hrecord
    exact ⟨record', List.mem_append_left _ hmem, hname, hbuilt⟩
  | some fields =>
    rw [hlist] at hsome
    by_cases hname : name = record.name
    · obtain ⟨recordType', hrecord', hbuilt⟩ := generateRecord_builtFrom hmatch hlist hgen
      rw [hname, hrecord'] at hrecord
      cases hrecord
      exact ⟨record, by simp, hname.symm, hbuilt⟩
    · obtain ⟨-, rfl⟩ := (generateRecord_eq_ok_iff hlist).mp hgen
      have hmatch' := (generateFields_match hmatch fields).1
      have hup := ITResolver.insertRecordType_updates hmatch'.wellNamed
        ⟨record.name, (Generator.generateFields deps r fields).1⟩
      rw [hup.recordOf, if_neg hname] at hrecord
      dsimp only at hsome
      rw [if_neg hname] at hsome
      obtain ⟨record', hmem, hname', hbuilt⟩ :=
        h.generateFields hmatch fields name recordType hsome hrecord
      exact ⟨record', List.mem_append_left _ hmem, hname', hbuilt.grows hup.grows⟩

end Steps

/-- **Run lemma.** -/
theorem keepsDefinitions_records {deps : Externals} {records : List RecordType} {r : ITResolver}
    (h : records.foldlM (generateRecord deps) apiResolver = .ok r) :
    KeepsDefinitions records r := by
  induction records using List.reverseRecOn generalizing r with
  | nil =>
    intro name recordType hsome
    cases hsome
  | append_singleton records record ih =>
    obtain ⟨r₁, h₁, hgen⟩ := Fallible.foldlM_concat_eq_ok_iff.mp h
    exact (ih h₁).generateRecord (recordsMatch_records h₁) hgen

/-! ## After validation -/

section Valid

variable {deps : Externals} {records : List RecordType} {r : ITResolver}

/-- Under a right count a valid resolver has no stubs. -/
theorem described_of_valid (h : CountsStubs deps records)
    (hrun : records.foldlM (generateRecord deps) apiResolver = .ok r)
    (hvalid : validateRecords r = .ok ()) {name : String} {id : Nat}
    (hid : r.types.lookup name = some id) : ((described records).lookup name).isSome := by
  have hcount : r.unresolvedTypesCount = 0 := by
    by_contra hne
    rw [validateRecords, if_pos hne] at hvalid
    cases hvalid
  have hrun' : (records.take records.length).foldlM (generateRecord deps) apiResolver = .ok r := by
    rwa [List.take_length]
  have hstubs := h _ _ (.record hrun')
  rw [List.take_length, stubs_eq_pending (recordsMatch_records hrun), hcount] at hstubs
  have hnone : pending records r = [] := List.eq_nil_of_length_eq_zero hstubs.symm
  by_contra hsome
  have hmem : name ∈ pending records r := by
    rw [mem_pending, hid]
    exact ⟨rfl, Option.not_isSome_iff_eq_none.mp hsome⟩
  rw [hnone] at hmem
  cases hmem

theorem noDangling_of_countsStubs (h : CountsStubs deps records) : NoDangling deps records := by
  intro r hrun hvalid ty hty t ht id hid
  have hmatch := recordsMatch_records hrun
  -- every name stands for a record with a definition
  have hdefined : ∀ name id, r.types.lookup name = some id → ∃ record ∈ records,
      ∃ recordType, record.name = name ∧ r.interfaces.types[id]? = some (.record recordType) ∧
        BuiltFrom r record recordType := by
    intro name id hlookup
    obtain ⟨recordType, htype⟩ := hmatch.wellNamed.record name id hlookup
    obtain ⟨record, hmem, hname, hbuilt⟩ := keepsDefinitions_records hrun name recordType
      (described_of_valid h hrun hvalid hlookup)
      (ITResolver.recordOf_eq_some_iff.mpr ⟨id, hlookup, htype⟩)
    exact ⟨record, hmem, recordType, hname, htype, hbuilt⟩
  have hmentioned : ∃ name, r.types.lookup name = some id := by
    obtain ⟨i, hi, hget⟩ := List.getElem_of_mem hty
    have hat : r.interfaces.types[i]? = some ty := by
      rw [List.getElem?_eq_getElem hi, hget]
    rcases placed_records hrun i ty hat with ⟨owner, howner⟩ | hnone
    · obtain ⟨record, -, recordType, -, htype, hbuilt⟩ := hdefined owner i howner
      rw [hat] at htype
      cases htype
      obtain ⟨fields, -, -, hfields⟩ := hbuilt.fields
      obtain ⟨itField, hitField, rfl⟩ := List.mem_map.mp ht
      obtain ⟨field, -, hchecked⟩ := Fallible.exists_left_of_mem hfields hitField
      exact lookup_of_mentioned hchecked hid
    · rw [hnone t ht] at hid
      cases hid
  obtain ⟨name, hlookup⟩ := hmentioned
  obtain ⟨record, hmem, recordType, hname, htype, hbuilt⟩ := hdefined name id hlookup
  refine ⟨record, hmem, recordType, fun name' => ⟨fun hlookup' => ?_, ?_⟩, htype, hbuilt⟩
  · rw [hname]
    exact hmatch.wellNamed.injective name' name id hlookup' hlookup
  · rintro rfl
    rw [hname]
    exact hlookup

end Valid

/-- **Stubs are tracked** exactly when no name is defined twice.  The fields of a
module fit into the address space. -/
theorem stubs_tracked_iff {deps : Externals} {records : List RecordType}
    (hsize : fieldCount records < 2 ^ 64) :
    (CountsStubs deps records ∧ NoDangling deps records) ↔ (definedNames records).Nodup := by
  constructor
  · rintro ⟨hcounts, -⟩
    exact (countsStubs_iff hsize).mp hcounts
  · intro hnodup
    have hcounts : CountsStubs deps records := (countsStubs_iff hsize).mpr hnodup
    exact ⟨hcounts, noDangling_of_countsStubs hcounts⟩

/-- `struct Tree { left: Leaf, rest: Vec<Tree> }` before `struct Leaf { id: u64 }`. -/
def treeRecords : List RecordType :=
  [⟨"Tree", .named [⟨some "left", .record "Leaf"⟩, ⟨some "rest", .vector (.record "Tree")⟩]⟩,
    ⟨"Leaf", .named [⟨some "id", .u64⟩]⟩]

theorem stubs_tracked_tree :
    CountsStubs crateExternals treeRecords ∧ NoDangling crateExternals treeRecords :=
  (stubs_tracked_iff (by decide)).mpr (by decide)

/-- `struct Point { x: u8 }` from two crates, and `struct Path { steps: Vec<Step> }`
without `Step`. -/
def pointRecords : List RecordType :=
  [⟨"Point", .named [⟨some "x", .u8⟩]⟩, ⟨"Point", .named [⟨some "x", .u8⟩]⟩,
    ⟨"Path", .named [⟨some "steps", .vector (.record "Step")⟩]⟩]

/-- The count wraps behind the second `Point`, comes back to zero with the stub
of `Step`, and the stub passes the validation. -/
theorem points_hide_stub : ¬ CountsStubs crateExternals pointRecords ∧
    ¬ NoDangling crateExternals pointRecords := by
  refine ⟨fun h => absurd (nodup_of_countsStubs h) (by decide), fun h => ?_⟩
  obtain ⟨r, hrun, hr⟩ : ∃ r, pointRecords.foldlM (generateRecord crateExternals) apiResolver =
      .ok r ∧ r.interfaces.types[8]? = some (.record ⟨"Path", [⟨"steps", .array (.record 7)⟩]⟩) ∧
        r.types.lookup "Step" = some 7 ∧ validateRecords r = .ok () :=
    ⟨_, rfl, rfl, rfl, validateRecords_flat rfl (by decide)⟩
  obtain ⟨hpath, hstep, hvalid⟩ := hr
  obtain ⟨record, hmem, -, hname, -⟩ := h r hrun hvalid _ (List.mem_of_getElem? hpath)
    (.array (.record 7)) (by decide) 7 rfl
  have hnone : ∀ record ∈ pointRecords, "Step" ≠ record.name := by decide
  exact hnone record hmem ((hname "Step").mp hstep)

end Marine.Generator
