import Marine.Generator.Interfaces
import Marine.Lib.Maps

/-!
# The records of a module

While records are processed a name may stand for a stub.  `RecordsMatch` says
what the resolver holds in between: under each name with a description the
fields of the last one, under each other name the default record.
`recordsMatch_records` carries it through the whole list.
-/

namespace Marine.Generator

namespace ITResolver

/-- The record under a name. -/
def recordOf (r : ITResolver) (name : String) : Option IRecordType :=
  match r.types.lookup name with
  | none => none
  | some id =>
    match r.interfaces.types[id]? with
    | some (.record recordType) => some recordType
    | _ => none

/-- Names stand for records, and different names for different ones. -/
structure WellNamed (r : ITResolver) : Prop where
  record : ∀ name id, r.types.lookup name = some id →
    ∃ recordType, r.interfaces.types[id]? = some (.record recordType)
  injective : ∀ name name' id, r.types.lookup name = some id → r.types.lookup name' = some id →
    name = name'

/-- The names of `r` stand for the same in `r'`. -/
def Grows (r r' : ITResolver) : Prop :=
  ∀ name id, r.types.lookup name = some id → r'.types.lookup name = some id

/-- From `r` to `r'` the record under one name is replaced or added. -/
structure Updates (r r' : ITResolver) (name : String) (recordType : IRecordType) : Prop where
  wellNamed : r'.WellNamed
  grows : Grows r r'
  recordOf : ∀ name', r'.recordOf name' = if name' = name then some recordType else r.recordOf name'

theorem recordOf_eq_some_iff {r : ITResolver} {name : String} {recordType : IRecordType} :
    r.recordOf name = some recordType ↔
      ∃ id, r.types.lookup name = some id ∧
        r.interfaces.types[id]? = some (.record recordType) := by
  unfold recordOf
  cases r.types.lookup name with
  | none => exact ⟨nofun, nofun⟩
  | some id =>
    dsimp only
    constructor
    · intro h
      split at h
      · rename_i heq
        cases h
        exact ⟨id, rfl, heq⟩
      · cases h
    · rintro ⟨_, ⟨⟩, htype⟩
      rw [htype]

theorem WellNamed.recordOf_isSome {r : ITResolver} (h : r.WellNamed) {name : String} :
    (r.recordOf name).isSome ↔ (r.types.lookup name).isSome := by
  constructor
  · intro hsome
    obtain ⟨recordType, hrecord⟩ := Option.isSome_iff_exists.mp hsome
    obtain ⟨id, hid, -⟩ := recordOf_eq_some_iff.mp hrecord
    rw [hid]
    rfl
  · intro hsome
    obtain ⟨id, hid⟩ := Option.isSome_iff_exists.mp hsome
    obtain ⟨recordType, htype⟩ := h.record name id hid
    rw [recordOf_eq_some_iff.mpr ⟨id, hid, htype⟩]
    rfl

/-- One name is given the place `place`, which no other name has, and only the
record there changes. -/
theorem WellNamed.updates {r r' : ITResolver} (h : r.WellNamed) {name : String} {place : Nat}
    {recordType : IRecordType} (hself : r'.types.lookup name = some place)
    (hother : ∀ name' ≠ name, r'.types.lookup name' = r.types.lookup name')
    (hplace : ∀ name' id, r.types.lookup name' = some id → (name' = name ↔ id = place))
    (hset : r'.interfaces.types[place]? = some (.record recordType))
    (hkept : ∀ id ≠ place, ∀ ty, r.interfaces.types[id]? = some ty →
      r'.interfaces.types[id]? = some ty) : Updates r r' name recordType := by
  have hplace' : ∀ name' id, r'.types.lookup name' = some id → (name' = name ↔ id = place) := by
    intro name' id hid
    by_cases hname : name' = name
    · subst hname
      rw [hself] at hid
      cases hid
      simp
    · rw [hother name' hname] at hid
      exact hplace name' id hid
  refine ⟨⟨?_, ?_⟩, ?_, ?_⟩
  · intro name' id hid
    by_cases hid' : id = place
    · rw [hid']
      exact ⟨recordType, hset⟩
    · have hname : name' ≠ name := fun hname => hid' ((hplace' name' id hid).mp hname)
      rw [hother name' hname] at hid
      obtain ⟨recordType', htype⟩ := h.record name' id hid
      exact ⟨recordType', hkept id hid' _ htype⟩
  · intro name' name'' id hid hid'
    have hname := hplace' name' id hid
    have hname' := hplace' name'' id hid'
    by_cases hplaced : id = place
    · rw [hname.mpr hplaced, hname'.mpr hplaced]
    · rw [hother name' (mt hname.mp hplaced)] at hid
      rw [hother name'' (mt hname'.mp hplaced)] at hid'
      exact h.injective name' name'' id hid hid'
  · intro name' id hid
    by_cases hname : name' = name
    · rw [hname, hself, (hplace name' id hid).mp hname]
    · rw [hother name' hname, hid]
  · intro name'
    by_cases hname : name' = name
    · rw [if_pos hname, hname]
      exact recordOf_eq_some_iff.mpr ⟨place, hself, hset⟩
    · rw [if_neg hname]
      dsimp only [ITResolver.recordOf]
      rw [hother name' hname]
      cases hid : r.types.lookup name' with
      | none => rfl
      | some id =>
        obtain ⟨recordType', htype⟩ := h.record name' id hid
        have hne : id ≠ place := mt (hplace name' id hid).mpr hname
        simp only [htype, hkept id hne _ htype]

/-- A new name goes to the end of the types. -/
theorem WellNamed.updates_push {r : ITResolver} (h : r.WellNamed) {name : String}
    (hnew : r.types.lookup name = none) (recordType : IRecordType) (count : UInt64) :
    Updates r { r.pushType (.record recordType) with
      types := r.types.insert name r.interfaces.types.length
      unresolvedTypesCount := count } name recordType := by
  have hlt : ∀ {id : Nat} {ty : AstType}, r.interfaces.types[id]? = some ty →
      id < r.interfaces.types.length := fun hty => (List.getElem?_eq_some_iff.mp hty).1
  refine h.updates (AList.lookup_insert _) (fun _ => AList.lookup_insert_ne) ?_
    List.getElem?_concat_length fun id _ ty hty => ?_
  · intro name' id hid
    obtain ⟨recordType', htype⟩ := h.record name' id hid
    constructor
    · rintro rfl
      rw [hnew] at hid
      cases hid
    · rintro rfl
      exact absurd (hlt htype) (Nat.lt_irrefl _)
  · exact (List.getElem?_append_left (hlt hty)).trans hty

/-- The record of a known name is replaced. -/
theorem WellNamed.updates_set {r : ITResolver} (h : r.WellNamed) {name : String} {pos : Nat}
    (hpos : r.types.lookup name = some pos) (recordType : IRecordType) (count : UInt64) :
    Updates r { r with
      interfaces := { r.interfaces with types := r.interfaces.types.set pos (.record recordType) }
      unresolvedTypesCount := count } name recordType := by
  obtain ⟨recordType', htype⟩ := h.record name pos hpos
  have hlt : pos < r.interfaces.types.length := (List.getElem?_eq_some_iff.mp htype).1
  refine h.updates hpos (fun _ _ => rfl) ?_ (List.getElem?_set_self hlt) fun id hid ty hty => ?_
  · intro name' id hid
    constructor
    · rintro rfl
      rw [hpos] at hid
      cases hid
      rfl
    · rintro rfl
      exact h.injective name' name id hid hpos
  · exact (List.getElem?_set_ne (Ne.symm hid)).trans hty

/-- **Spec of `insert_record_type`.** -/
theorem insertRecordType_updates {r : ITResolver} (h : r.WellNamed) (record : IRecordType) :
    Updates r (r.insertRecordType record) record.name record := by
  unfold insertRecordType
  cases hpos : r.types.lookup record.name with
  | some pos => exact h.updates_set hpos record _
  | none => exact h.updates_push hpos record r.unresolvedTypesCount

theorem Grows.refl (r : ITResolver) : Grows r r := fun _ _ hid => hid

theorem Grows.trans {r₁ r₂ r₃ : ITResolver} (h : Grows r₁ r₂) (h' : Grows r₂ r₃) : Grows r₁ r₃ :=
  fun name id hid => h' name id (h name id hid)

end ITResolver

theorem ptypeToItypeChecked_grows {r r' : ITResolver} (h : r.Grows r') {ty : ParsedType}
    {t : IType} (ht : ptypeToItypeChecked r ty = .ok t) : ptypeToItypeChecked r' ty = .ok t := by
  induction ty generalizing t with
  | vector elem ih =>
    obtain ⟨t', ht', ht⟩ := ptypeToItypeChecked_vector_iff.mp ht
    exact ptypeToItypeChecked_vector_iff.mpr ⟨t', ih ht', ht⟩
  | record name =>
    obtain ⟨id, hid, ht⟩ := ptypeToItypeChecked_record_iff.mp ht
    exact ptypeToItypeChecked_record_iff.mpr ⟨id, h name id hid, ht⟩
  | _ => exact ht

/-! ## Descriptions by name -/

/-- The fields of the last description of each name; units describe nothing. -/
def described (records : List RecordType) : AList fun _ : String => List RecordField :=
  Maps.collect <| records.filterMap fun record =>
    (RecordFields.list record.fields).map fun fields => (record.name, fields)

theorem described_concat (records : List RecordType) (record : RecordType) (name : String) :
    (described (records ++ [record])).lookup name =
      match RecordFields.list record.fields with
      | none => (described records).lookup name
      | some fields => if name = record.name then some fields
        else (described records).lookup name := by
  unfold described
  rw [List.filterMap_append]
  cases hlist : RecordFields.list record.fields with
  | none => simp [hlist]
  | some fields =>
    simp only [List.filterMap_cons, hlist, Option.map_some, List.filterMap_nil]
    rw [Maps.collect_concat]
    by_cases hname : name = record.name
    · subst hname
      rw [AList.lookup_insert, if_pos rfl]
    · rw [AList.lookup_insert_ne hname, if_neg hname]

/-- The fields have the types of the described ones. -/
def FieldsMatch (r : ITResolver) (fields : List RecordField) (itFields : List IRecordFieldType) :
    Prop :=
  List.Forall₂ (fun field itField => ptypeToItypeChecked r field.ty = .ok itField.ty) fields
    itFields

theorem FieldsMatch.grows {r r' : ITResolver} (h : r.Grows r') {fields : List RecordField}
    {itFields : List IRecordFieldType} (hm : FieldsMatch r fields itFields) :
    FieldsMatch r' fields itFields :=
  hm.imp fun _ _ ht => ptypeToItypeChecked_grows h ht

/-- What the resolver holds for a name. -/
def Holds (deps : Externals) (records : List RecordType) (r : ITResolver) (name : String)
    (recordType : IRecordType) : Prop :=
  match (described records).lookup name with
  | some fields => FieldsMatch r fields recordType.fields
  | none => recordType = deps.defaultRecord

structure RecordsMatch (deps : Externals) (records : List RecordType) (r : ITResolver) : Prop where
  wellNamed : r.WellNamed
  named : ∀ name, ((described records).lookup name).isSome → (r.types.lookup name).isSome
  holds : ∀ name recordType, r.recordOf name = some recordType →
    Holds deps records r name recordType

theorem RecordsMatch.undescribed {deps : Externals} {records : List RecordType} {r : ITResolver}
    (h : RecordsMatch deps records r) {name : String} (hnew : r.types.lookup name = none) :
    (described records).lookup name = none := by
  by_contra hsome
  have hnamed := h.named name (Option.isSome_iff_ne_none.mpr hsome)
  rw [hnew] at hnamed
  cases hnamed

theorem Holds.grows {deps : Externals} {records : List RecordType} {r r' : ITResolver}
    (h : r.Grows r') {name : String} {recordType : IRecordType}
    (hh : Holds deps records r name recordType) : Holds deps records r' name recordType := by
  unfold Holds at hh ⊢
  cases hlookup : (described records).lookup name with
  | none => rw [hlookup] at hh; exact hh
  | some fields => rw [hlookup] at hh; exact hh.grows h

section Steps

variable {deps : Externals} {records : List RecordType}

/-- The record under one name is replaced or added, and nothing else is
described anew. -/
theorem RecordsMatch.updates {records' : List RecordType} {r r' : ITResolver} {name : String}
    {recordType : IRecordType} (h : RecordsMatch deps records r)
    (hup : r.Updates r' name recordType)
    (hsame : ∀ name' ≠ name, (described records').lookup name' = (described records).lookup name')
    (hholds : Holds deps records' r' name recordType) : RecordsMatch deps records' r' := by
  refine ⟨hup.wellNamed, fun name' hname' => ?_, fun name' recordType' hrecord => ?_⟩
  · rw [← hup.wellNamed.recordOf_isSome, hup.recordOf]
    by_cases hname : name' = name
    · rw [if_pos hname]
      rfl
    · rw [hsame name' hname] at hname'
      rw [if_neg hname, h.wellNamed.recordOf_isSome]
      exact h.named name' hname'
  · rw [hup.recordOf] at hrecord
    by_cases hname : name' = name
    · rw [if_pos hname] at hrecord
      cases hrecord
      rw [hname]
      exact hholds
    · rw [if_neg hname] at hrecord
      have hold := (h.holds name' recordType' hrecord).grows hup.grows
      unfold Holds at hold ⊢
      rwa [hsame name' hname]

/-- **Stub lemma.**  A name without a record gets the default one. -/
theorem getRecordTypeIdUnchecked_match {r : ITResolver} (h : RecordsMatch deps records r)
    (name : String) :
    RecordsMatch deps records (r.getRecordTypeIdUnchecked deps name).2 ∧
      r.Grows (r.getRecordTypeIdUnchecked deps name).2 ∧
      (r.getRecordTypeIdUnchecked deps name).2.types.lookup name =
        some (r.getRecordTypeIdUnchecked deps name).1 := by
  unfold ITResolver.getRecordTypeIdUnchecked
  cases hnew : r.types.lookup name with
  | some typeIndex => exact ⟨h, ITResolver.Grows.refl r, hnew⟩
  | none =>
    have hup := h.wellNamed.updates_push hnew deps.defaultRecord (r.unresolvedTypesCount + 1)
    refine ⟨h.updates hup (fun _ _ => rfl) ?_, hup.grows, AList.lookup_insert _⟩
    unfold Holds
    rw [h.undescribed hnew]

theorem ptypeToItypeUnchecked_match {r : ITResolver} (h : RecordsMatch deps records r)
    (ty : ParsedType) :
    RecordsMatch deps records (ptypeToItypeUnchecked deps r ty).2 ∧
      r.Grows (ptypeToItypeUnchecked deps r ty).2 ∧
      ptypeToItypeChecked (ptypeToItypeUnchecked deps r ty).2 ty =
        .ok (ptypeToItypeUnchecked deps r ty).1 := by
  induction ty with
  | vector elem ih =>
    obtain ⟨hmatch, hgrows, ht⟩ := ih
    exact ⟨hmatch, hgrows, ptypeToItypeChecked_vector_iff.mpr ⟨_, ht, rfl⟩⟩
  | record name =>
    obtain ⟨hmatch, hgrows, hid⟩ := getRecordTypeIdUnchecked_match h name
    exact ⟨hmatch, hgrows, ptypeToItypeChecked_record_iff.mpr ⟨_, hid, rfl⟩⟩
  | _ => exact ⟨h, ITResolver.Grows.refl r, rfl⟩

theorem generateFields_match {r : ITResolver} (h : RecordsMatch deps records r)
    (fields : List RecordField) :
    RecordsMatch deps records (generateFields deps r fields).2 ∧
      r.Grows (generateFields deps r fields).2 ∧
      FieldsMatch (generateFields deps r fields).2 fields (generateFields deps r fields).1 := by
  induction fields generalizing r with
  | nil => exact ⟨h, ITResolver.Grows.refl r, .nil⟩
  | cons field fields ih =>
    obtain ⟨hmatch, hgrows, ht⟩ := ptypeToItypeUnchecked_match h field.ty
    obtain ⟨hmatch', hgrows', hfields⟩ := ih hmatch
    exact ⟨hmatch', hgrows.trans hgrows', .cons (ptypeToItypeChecked_grows hgrows' ht) hfields⟩

theorem generateFields_length (deps : Externals) (r : ITResolver) (fields : List RecordField) :
    (generateFields deps r fields).1.length = fields.length := by
  induction fields generalizing r with
  | nil => rfl
  | cons field fields ih => simp [generateFields, ih]

/-- Without a description nothing is generated. -/
theorem generateRecord_undescribed {r : ITResolver} {record : RecordType}
    (hlist : RecordFields.list record.fields = none) : generateRecord deps r record = .ok r := by
  rw [generateRecord, hlist]

/-- **Spec of `generate_it`.**  A description needs fields, and defines its name. -/
theorem generateRecord_eq_ok_iff {r r' : ITResolver} {record : RecordType}
    {fields : List RecordField} (hlist : RecordFields.list record.fields = some fields) :
    generateRecord deps r record = .ok r' ↔
      fields ≠ [] ∧ r' = (generateFields deps r fields).2.insertRecordType
        ⟨record.name, (generateFields deps r fields).1⟩ := by
  have hempty : (generateFields deps r fields).1 = [] ↔ fields = [] := by
    rw [← List.length_eq_zero_iff, generateFields_length, List.length_eq_zero_iff]
  rw [generateRecord, hlist]
  dsimp only
  by_cases hnil : fields = []
  · rw [if_pos (hempty.mpr hnil)]
    exact ⟨nofun, fun h => absurd hnil h.1⟩
  · rw [if_neg (mt hempty.mp hnil)]
    constructor
    · intro h
      cases h
      exact ⟨hnil, rfl⟩
    · rintro ⟨-, rfl⟩
      rfl

/-- **Step lemma.** -/
theorem generateRecord_match {r r' : ITResolver} (h : RecordsMatch deps records r)
    {record : RecordType} (hgen : generateRecord deps r record = .ok r') :
    RecordsMatch deps (records ++ [record]) r' := by
  have hdescribed := described_concat records record
  cases hlist : RecordFields.list record.fields with
  | none =>
    rw [generateRecord_undescribed hlist] at hgen
    cases hgen
    rw [hlist] at hdescribed
    refine ⟨h.wellNamed, fun name hname => ?_, fun name recordType hrecord => ?_⟩
    · rw [hdescribed] at hname
      exact h.named name hname
    · have hholds := h.holds name recordType hrecord
      unfold Holds at hholds ⊢
      rwa [hdescribed]
  | some fields =>
    obtain ⟨-, rfl⟩ := (generateRecord_eq_ok_iff hlist).mp hgen
    rw [hlist] at hdescribed
    obtain ⟨hmatch, -, hfields⟩ := generateFields_match h fields
    have hup := ITResolver.insertRecordType_updates hmatch.wellNamed
      ⟨record.name, (generateFields deps r fields).1⟩
    refine hmatch.updates hup (fun name hname => ?_) ?_
    · rw [hdescribed]
      exact if_neg hname
    · unfold Holds
      rw [hdescribed]
      dsimp only
      rw [if_pos rfl]
      exact hfields.grows hup.grows

/-- **Run lemma.** -/
theorem recordsMatch_records {r₀ : ITResolver}
    (h : records.foldlM (generateRecord deps) apiResolver = .ok r₀) :
    RecordsMatch deps records r₀ := by
  have hnone : ∀ name, apiResolver.types.lookup name = none := fun _ => rfl
  have hstart : RecordsMatch deps [] apiResolver := by
    refine ⟨⟨fun name id hid => ?_, fun name name' id hid => ?_⟩, nofun, fun name rt hrecord => ?_⟩
    · rw [hnone] at hid; cases hid
    · rw [hnone] at hid; cases hid
    · obtain ⟨id, hid, -⟩ := ITResolver.recordOf_eq_some_iff.mp hrecord
      rw [hnone] at hid
      cases hid
  exact Fallible.foldlM_invariant (d := []) (I := fun done r => RecordsMatch deps done r)
    (fun _ _ _ _ hs hstep => generateRecord_match hs hstep) hstart h

end Steps

end Marine.Generator
