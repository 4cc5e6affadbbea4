import Marine.Generator.Records
import Marine.Loader.GeneratedSection

/-!
# What the loader accepts

The generator checks records along fields that are records by value, the loader
checks the types of exported functions through arrays too, with other weights.
`accepted_iff` says, on the descriptions of a module, which generated sections
the loader reads.

* `path_described_iff`: the loader walks the described types.
* `getInterface_isOk_iff`: and it starts from the exported functions.
-/

namespace Marine.Loader

open Marine.Generator Walks

/-! ## Described types inside each other -/

/-- The types right inside a described type and how many levels lower the
loader handles them.  A name without a description is a default record, whose
fields have nothing inside. -/
def innerDescribed (deps : Externals) (records : List RecordType) :
    ParsedType → List (ParsedType × Nat)
  | .vector elem => if elem = .u8 then [] else [(elem, 1)]
  | .record recordName =>
    match (described records).lookup recordName with
    | some fields => fields.map fun field => (field.ty, 2)
    | none => deps.defaultRecord.fields.map fun _ => (.boolean, 2)
  | _ => []

/-- Neither an array nor a record. -/
def isScalar : IType → Bool
  | .array _ | .record _ => false
  | _ => true

/-- The interface type of a described type, or of the field of a default record. -/
def Stands (r : ITResolver) (ty : ParsedType) (itype : IType) : Prop :=
  ptypeToItypeChecked r ty = .ok itype ∨ (ty = .boolean ∧ isScalar itype)

/-- The types of the arguments and outputs. -/
def signatureTypes (s : FnSignature) : List ParsedType :=
  s.arguments.map FnArgument.ty ++ s.outputTypes

theorem ptypeToItypeChecked_u8 {r : ITResolver} {ty : ParsedType} {t : IType}
    (h : ptypeToItypeChecked r ty = .ok t) : ty = .u8 ↔ t = .u8 := by
  cases ty with
  | vector elem =>
    obtain ⟨t', -, rfl⟩ := ptypeToItypeChecked_vector_iff.mp h
    unfold arrayOf
    split <;> simp
  | record name =>
    obtain ⟨id, -, rfl⟩ := ptypeToItypeChecked_record_iff.mp h
    simp
  | _ => cases h; simp

section Simulation

variable {deps : Externals} {records : List RecordType} {r : ITResolver} {all : RecordTypes}
  (hmatch : RecordsMatch deps records r)
  (hall : ∀ name id, r.types.lookup name = some id → all.lookup id = r.recordOf name)
  (hdefault : ∀ field ∈ deps.defaultRecord.fields, isScalar field.ty)
include hmatch hall

/-- A record has a place among the types, and there is what is described. -/
theorem exists_record {name : String} {t : IType}
    (h : ptypeToItypeChecked r (.record name) = .ok t) :
    ∃ id recordType, t = .record id ∧ all.lookup id = some recordType ∧
      Holds deps records r name recordType := by
  obtain ⟨id, hid, rfl⟩ := ptypeToItypeChecked_record_iff.mp h
  obtain ⟨recordType, hrecord⟩ : ∃ recordType, r.recordOf name = some recordType :=
    Option.isSome_iff_exists.mp (hmatch.wellNamed.recordOf_isSome.mpr (by rw [hid]; rfl))
  exact ⟨id, recordType, rfl, (hall name id hid).trans hrecord,
    hmatch.holds name recordType hrecord⟩

theorem isKnown_of_stands {ty : ParsedType} {t : IType} (h : Stands r ty t) : IsKnown all t := by
  rcases h with h | ⟨-, h⟩
  · cases ty with
    | vector elem =>
      obtain ⟨t', -, rfl⟩ := ptypeToItypeChecked_vector_iff.mp h
      unfold arrayOf
      split <;> trivial
    | record name =>
      obtain ⟨id, recordType, rfl, hlookup, -⟩ := exists_record hmatch hall h
      dsimp only [IsKnown]
      rw [hlookup]
      rfl
    | _ => cases h; trivial
  · cases t with
    | record id => cases h
    | _ => trivial

include hdefault

/-- The loader finds what is described. -/
theorem innerTypes_of_innerDescribed {ty : ParsedType} {t : IType} (h : Stands r ty t)
    {ty' : ParsedType} {w : Nat} (hin : (ty', w) ∈ innerDescribed deps records ty) :
    ∃ t', (t', w) ∈ innerTypes all t ∧ Stands r ty' t' := by
  rcases h with h | ⟨rfl, -⟩
  · cases ty with
    | vector elem =>
      obtain ⟨t', ht', rfl⟩ := ptypeToItypeChecked_vector_iff.mp h
      dsimp only [innerDescribed] at hin
      by_cases hu8 : elem = .u8
      · rw [if_pos hu8] at hin
        cases hin
      · rw [if_neg hu8] at hin
        cases List.mem_singleton.mp hin
        have hne : t' ≠ .u8 := fun he => hu8 ((ptypeToItypeChecked_u8 ht').mpr he)
        rw [arrayOf, if_neg hne]
        exact ⟨t', List.mem_singleton.mpr rfl, .inl ht'⟩
    | record name =>
      obtain ⟨id, recordType, rfl, hlookup, hholds⟩ := exists_record hmatch hall h
      dsimp only [innerTypes, innerDescribed, Holds] at hin hholds ⊢
      rw [hlookup, Option.elim_some]
      cases hd : (described records).lookup name with
      | some fields =>
        rw [hd] at hin hholds
        obtain ⟨field, hfield, hin⟩ := List.mem_map.mp hin
        cases hin
        obtain ⟨itField, hmem, hty⟩ := Fallible.exists_right_of_mem hholds hfield
        exact ⟨itField.ty, List.mem_map.mpr ⟨itField, hmem, rfl⟩, .inl hty⟩
      | none =>
        rw [hd] at hin hholds
        obtain ⟨itField, hmem, hin⟩ := List.mem_map.mp hin
        cases hin
        dsimp only at hholds
        rw [hholds]
        exact ⟨itField.ty, List.mem_map.mpr ⟨itField, hmem, rfl⟩,
          .inr ⟨rfl, hdefault itField hmem⟩⟩
    | _ => cases hin
  · cases hin

/-- And nothing else. -/
theorem innerDescribed_of_innerTypes {ty : ParsedType} {t : IType} (h : Stands r ty t)
    {t' : IType} {w : Nat} (hin : (t', w) ∈ innerTypes all t) :
    ∃ ty', (ty', w) ∈ innerDescribed deps records ty ∧ Stands r ty' t' := by
  rcases h with h | ⟨rfl, h⟩
  · cases ty with
    | vector elem =>
      obtain ⟨t₁, ht₁, rfl⟩ := ptypeToItypeChecked_vector_iff.mp h
      by_cases hu8 : t₁ = .u8
      · subst hu8
        cases hin
      · rw [arrayOf, if_neg hu8] at hin
        cases List.mem_singleton.mp hin
        have hne : elem ≠ .u8 := fun he => hu8 ((ptypeToItypeChecked_u8 ht₁).mp he)
        dsimp only [innerDescribed]
        rw [if_neg hne]
        exact ⟨elem, List.mem_singleton.mpr rfl, .inl ht₁⟩
    | record name =>
      obtain ⟨id, recordType, rfl, hlookup, hholds⟩ := exists_record hmatch hall h
      dsimp only [innerTypes, innerDescribed, Holds] at hin hholds ⊢
      rw [hlookup, Option.elim_some] at hin
      obtain ⟨itField, hmem, hin⟩ := List.mem_map.mp hin
      cases hin
      cases hd : (described records).lookup name with
      | some fields =>
        rw [hd] at hholds
        obtain ⟨field, hfield, hty⟩ := Fallible.exists_left_of_mem hholds hmem
        exact ⟨field.ty, List.mem_map.mpr ⟨field, hfield, rfl⟩, .inl hty⟩
      | none =>
        rw [hd] at hholds
        dsimp only at hholds
        rw [hholds] at hmem
        exact ⟨.boolean, List.mem_map.mpr ⟨itField, hmem, rfl⟩, .inr ⟨rfl, hdefault itField hmem⟩⟩
    | _ => cases h; cases hin
  · cases t with
    | array elem => cases h
    | record id => cases h
    | _ => cases hin

/-- **The loader walks the described types.** -/
theorem path_described_iff {ty : ParsedType} {t : IType} (h : Stands r ty t) (limit : Nat) :
    (∀ n t', Path (innerTypes all) t n t' → 0 + n ≤ limit ∧ IsKnown all t') ↔
      ∀ n ty', Path (innerDescribed deps records) ty n ty' → n ≤ limit := by
  constructor
  · intro hloader n ty' hp
    obtain ⟨t', hp', -⟩ := hp.simulate (R := Stands r) (fun _ _ hR _ _ hin =>
      innerTypes_of_innerDescribed hmatch hall hdefault hR hin) h
    have hn := (hloader n t' hp').1
    omega
  · intro hdescribed n t' hp
    obtain ⟨ty', hp', hty'⟩ := hp.simulate (R := fun t ty => Stands r ty t)
      (fun _ _ hR _ _ hin => innerDescribed_of_innerTypes hmatch hall hdefault hR hin) h
    have hn := hdescribed n ty' hp'
    exact ⟨by omega, isKnown_of_stands hmatch hall hty'⟩

end Simulation

/-! ## The interface of a generated section -/

section Sections

variable {deps : Externals} {r₀ : ITResolver} {functions : List FnType}
  {imports : List (String × ExternFnType)} {l : Layout}

theorem lookup_getAllRecords (hof : l.Of deps r₀ functions imports) (hnamed : r₀.WellNamed)
    (name : String) (id : Nat) (hid : r₀.types.lookup name = some id) :
    (getAllRecords (MITInterfaces.new (l.interfaces deps))).lookup id = r₀.recordOf name := by
  obtain ⟨recordType, htype⟩ := hnamed.record name id hid
  have hbase : (l.interfaces deps).types[id]? = some (.record recordType) := by
    rw [← hof.base] at htype
    have hlt := (List.getElem?_eq_some_iff.mp htype).1
    rw [Layout.interfaces, List.append_assoc, List.getElem?_append_left hlt, htype]
  rw [getAllRecords, Maps.lookup_collect_zipIdx, MITInterfaces.new, hbase,
    ITResolver.recordOf_eq_some_iff.mpr ⟨id, hid, htype⟩]
  rfl

/-- **The loader reads a section** when the level limit allows the types of the
exported functions. -/
theorem getInterface_isOk_iff (hapi : apiFuncs.length ≤ l.base.length) :
    (getInterface (MITInterfaces.new (l.interfaces deps))).isOk ↔
      ∀ e ∈ l.fns, ∀ t ∈ e.arguments.map FunctionArg.ty ++ e.outputTypes, ∀ n t',
        Path (innerTypes (getAllRecords (MITInterfaces.new (l.interfaces deps)))) t n t' →
        0 + n ≤ typeResolveRecursionLimit ∧
          IsKnown (getAllRecords (MITInterfaces.new (l.interfaces deps))) t' := by
  obtain ⟨signatures, hsignatures, hmem⟩ : ∃ signatures,
      getExportFuncs (MITInterfaces.new (l.interfaces deps)) = .ok signatures ∧ _ :=
    mem_getExportFuncs_iff hapi
  have hrecords : (getInterface (MITInterfaces.new (l.interfaces deps))).isOk ↔
      ((signatures.flatMap IFunctionSignature.itypes).foldlM (fun exportRecordTypes itype =>
        handleItype itype (getAllRecords (MITInterfaces.new (l.interfaces deps)))
          exportRecordTypes 0) ∅).isOk := by
    unfold getInterface getRecordTypes
    rw [hsignatures]
    exact (Fallible.isOk_bind_pure _ _).trans (Fallible.isOk_bind_pure _ _)
  rw [hrecords, Fallible.foldlM_isOk_iff fun itype _ exportRecordTypes =>
    handleItype_isOk_iff _ exportRecordTypes itype 0]
  constructor
  · intro h e he t ht
    obtain ⟨k, hk⟩ := List.mem_iff_getElem?.mp he
    exact h t (List.mem_flatMap.mpr ⟨_, (hmem _).mpr ⟨k, e, hk, rfl⟩, ht⟩)
  · intro h t ht
    obtain ⟨s, hs, ht⟩ := List.mem_flatMap.mp ht
    obtain ⟨k, e, hk, rfl⟩ := (hmem s).mp hs
    exact h e (List.mem_of_getElem? hk) t ht

theorem signatureTypes_made {e : FnEntry} (he : e.MadeBy deps r₀) :
    List.Forall₂ (fun ty t => ptypeToItypeChecked r₀ ty = .ok t) (signatureTypes e.fn.signature)
      (e.arguments.map FunctionArg.ty ++ e.outputTypes) :=
  List.rel_append (List.forall₂_map_left_iff.mpr (generateItArgs_types he.arguments))
    (Fallible.mapM_eq_ok_iff.mp he.outputTypes)

theorem getInterface_described_iff {records : List RecordType}
    (hdefault : ∀ field ∈ deps.defaultRecord.fields, isScalar field.ty)
    (hof : l.Of deps r₀ functions imports) (hmatch : RecordsMatch deps records r₀) :
    (getInterface (MITInterfaces.new (l.interfaces deps))).isOk ↔
      ∀ f ∈ functions, ∀ ty ∈ signatureTypes f.signature, ∀ n ty',
        Path (innerDescribed deps records) ty n ty' → n ≤ typeResolveRecursionLimit := by
  have hall := lookup_getAllRecords hof hmatch.wellNamed
  have hpath : ∀ {ty t}, ptypeToItypeChecked r₀ ty = .ok t → _ := fun ht =>
    path_described_iff hmatch hall hdefault (.inl ht) typeResolveRecursionLimit
  rw [getInterface_isOk_iff (hof.base ▸ hof.api), ← hof.fns]
  constructor
  · intro h f hf ty hty
    obtain ⟨e, he, rfl⟩ := List.mem_map.mp hf
    obtain ⟨t, ht, hchecked⟩ :=
      Fallible.exists_right_of_mem (signatureTypes_made (hof.fnsMade e he)) hty
    exact (hpath hchecked).mp (h e he t ht)
  · intro h e he t ht
    obtain ⟨ty, hty, hchecked⟩ :=
      Fallible.exists_left_of_mem (signatureTypes_made (hof.fnsMade e he)) ht
    exact (hpath hchecked).mpr (h e.fn (List.mem_map_of_mem he) ty hty)

end Sections

/-- **What the loader accepts of the generator.**  A generated section is read
exactly when nothing lies deeper in the types of the exported functions than
the level limit, where an element counts one level and a field two. -/
theorem accepted_iff {deps : Externals} {moduleAst : ModuleAST} {I : Interfaces}
    (hdefault : ∀ field ∈ deps.defaultRecord.fields, isScalar field.ty)
    (h : generateInterfaces deps moduleAst = .ok I) :
    (getInterface (MITInterfaces.new I)).isOk ↔
      ∀ f ∈ moduleAst.functions, ∀ ty ∈ signatureTypes f.signature, ∀ n ty',
        Path (innerDescribed deps moduleAst.records) ty n ty' → n ≤ typeResolveRecursionLimit := by
  obtain ⟨r₀, l, hrecords, -, hof, rfl⟩ := generateInterfaces_layout h
  exact getInterface_described_iff hdefault hof (recordsMatch_records hrecords)

/-- `fn count(row: Row) -> u32` for `struct Row { id: i64, blob: Vec<u8> }`. -/
def rowAst : ModuleAST where
  records := [⟨"Row", .named [⟨some "id", .i64⟩, ⟨some "blob", .vector .u8⟩]⟩]
  functions := [⟨⟨"count", [⟨"row", .record "Row"⟩], [.u32]⟩⟩]
  externMods := []

theorem accepted_row : ∃ I, generateInterfaces crateExternals rowAst = .ok I ∧
    (getInterface (MITInterfaces.new I)).isOk := by
  have hgenerate : ∃ I, generateInterfaces crateExternals rowAst = .ok I :=
    ⟨_, Fallible.bind_eq_ok_iff.mpr ⟨_, rfl,
      Fallible.bind_eq_ok_iff.mpr ⟨(), validateRecords_flat rfl (by decide), rfl⟩⟩⟩
  obtain ⟨I, hI⟩ := hgenerate
  have hrow : innerDescribed crateExternals rowAst.records (.record "Row") =
      [(.i64, 2), (.vector .u8, 2)] := by decide
  refine ⟨I, hI, (accepted_iff (by decide) hI).mpr fun f hf ty hty n ty' hp => ?_⟩
  obtain rfl := List.mem_singleton.mp hf
  have hshallow : n ≤ 2 := by
    simp only [signatureTypes, List.map_cons, List.map_nil, List.cons_append, List.nil_append,
      List.mem_cons, List.not_mem_nil, or_false] at hty
    rcases hty with rfl | rfl
    · cases hp with
      | here => exact Nat.zero_le 2
      | step hfield hp =>
        rw [hrow] at hfield
        simp only [List.mem_cons, Prod.mk.injEq, List.not_mem_nil, or_false] at hfield
        rcases hfield with ⟨rfl, rfl⟩ | ⟨rfl, rfl⟩
        · cases hp with
          | here => exact Nat.le_refl 2
          | step hin => cases hin
        · cases hp with
          | here => exact Nat.le_refl 2
          | step hin => cases hin
    · cases hp with
      | here => exact Nat.zero_le 2
      | step hin => cases hin
  exact Nat.le_trans hshallow (by decide)

/-- `fn count(root: Node) -> u32` for `struct Node { children: Vec<Node> }`. -/
def nodeAst : ModuleAST where
  records := [⟨"Node", .named [⟨some "children", .vector (.record "Node")⟩]⟩]
  functions := [⟨⟨"count", [⟨"root", .record "Node"⟩], [.u32]⟩⟩]
  externMods := []

/-- A record that contains itself through an array is generated and not read. -/
theorem node_generated_not_accepted : ∃ I, generateInterfaces crateExternals nodeAst = .ok I ∧
    ¬ (getInterface (MITInterfaces.new I)).isOk := by
  have hgenerate : ∃ I, generateInterfaces crateExternals nodeAst = .ok I :=
    ⟨_, Fallible.bind_eq_ok_iff.mpr ⟨_, rfl,
      Fallible.bind_eq_ok_iff.mpr ⟨(), validateRecords_flat rfl (by decide), rfl⟩⟩⟩
  obtain ⟨I, hI⟩ := hgenerate
  refine ⟨I, hI, fun hok => ?_⟩
  obtain ⟨r₀, l, hrecords, -, hof, rfl⟩ := generateInterfaces_layout hI
  rw [getInterface_described_iff (by decide) hof (recordsMatch_records hrecords)] at hok
  -- going round once takes three levels
  have hround : ∀ k, Path (innerDescribed crateExternals nodeAst.records)
      (.record "Node") (3 * k) (.record "Node") := by
    intro k
    induction k with
    | zero => exact .here _
    | succ k ih =>
      have hweight : 3 * (k + 1) = 2 + (1 + 3 * k) := by omega
      rw [hweight]
      exact .step (b := .vector (.record "Node")) (by decide) (.step (by decide) ih)
  have hdeep := hok _ (.head _) (.record "Node") (.head _) _ _ (hround 342)
  revert hdeep
  decide

end Marine.Loader
