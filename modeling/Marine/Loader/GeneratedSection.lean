import Marine.Generator.Layout
import Marine.Loader.ItInstance
import Marine.Loader.ItInterface

/-!
# A generated section through the lookups of the runtime

The runtime reads a section through multimaps keyed by type.  In a generated
section all their keys are distinct, so every lookup has one answer.

* `adapterByType_iff`, `adapterTypesByCoreType_of_mem`: adapters.
* `numbering_interfaces`: the targets of `call-core`.
* `mem_getExportFuncs_iff`: the exported functions.
-/

namespace Marine.Loader

open Marine.Generator

section Lookups

variable (deps : Externals) (l : Layout)

theorem fnIdx_injective : Function.Injective l.fnIdx := by
  intro k k' h
  simp only [Layout.fnIdx] at h
  omega

theorem importIdx_injective : Function.Injective l.importIdx := by
  intro j j' h
  simp only [Layout.importIdx] at h
  omega

/-- The types of the imports lie behind those of the functions. -/
theorem fnIdx_lt_importIdx {k : Nat} (hk : k < l.fns.length) (j : Nat) :
    l.fnIdx k + 1 < l.importIdx j := by
  simp only [Layout.fnIdx, Layout.importIdx]
  omega

/-- Entries at the types of functions and behind the types of imports. -/
theorem nodup_entryKeys {γ : Type} (key : γ → Nat) {f : Nat → FnEntry → γ}
    {g : Nat → ImportEntry → γ} (hf : ∀ k e, key (f k e) = l.fnIdx k)
    (hg : ∀ j e, key (g j e) = l.importIdx j + 1) :
    ((l.fns.mapIdx f ++ l.imports.mapIdx g).map key).Nodup := by
  refine Maps.nodup_keys_append key hf hg (fnIdx_injective l)
    (fun j j' h => importIdx_injective l (Nat.succ.inj h)) fun k hk j hj h => ?_
  have hlt := fnIdx_lt_importIdx l hk j
  omega

theorem nodup_adapterKeys : ((l.interfaces deps).adapters.map Adapter.functionType).Nodup :=
  nodup_entryKeys l _ (fun _ _ => rfl) fun _ _ => rfl

theorem nodup_implementationKeys :
    ((l.interfaces deps).implementations.map Implementation.adapterFunctionType).Nodup :=
  nodup_entryKeys l _ (fun _ _ => rfl) fun _ _ => rfl

theorem nodup_coreKeys :
    ((l.interfaces deps).implementations.map Implementation.coreFunctionType).Nodup := by
  refine Maps.nodup_keys_append (c := fun k => l.fnIdx k + 1) (d := fun j => l.importIdx j + 2) _
    (fun _ _ => rfl) (fun _ _ => rfl) (fun k k' h => fnIdx_injective l (Nat.succ.inj h))
    (fun j j' h => importIdx_injective l (Nat.add_right_cancel h)) fun k hk j hj h => ?_
  have hlt := fnIdx_lt_importIdx l hk j
  omega

/-- The types of the default export API lie before those of the functions. -/
theorem nodup_exportKeys (hapi : apiFuncs.length ≤ l.base.length) :
    ((l.interfaces deps).exports.map Export.functionType).Nodup := by
  have hids : (apiFuncs.map fun d => (⟨d.name, d.id⟩ : Export)) =
      apiFuncs.mapIdx fun i d => ⟨d.name, i⟩ := rfl
  rw [Layout.interfaces, hids]
  refine Maps.nodup_keys_append (c := id) (d := fun k => l.fnIdx k + 1) _
    (fun _ _ => rfl) (fun _ _ => rfl) Function.injective_id
    (fun k k' h => fnIdx_injective l (Nat.succ.inj h)) fun i hi k hk h => ?_
  simp only [Layout.fnIdx, id] at h
  omega

variable {deps l}

/-- The adapters are those of the functions and those of the imports. -/
theorem adapterByType_iff {t : Nat} {code : List Instruction} :
    (MITInterfaces.new (l.interfaces deps)).adapterByType t = some code ↔
      (∃ k e, l.fns[k]? = some e ∧ t = l.fnIdx k ∧ code = e.code deps (Layout.fnCallee k)) ∨
      ∃ j e, l.imports[j]? = some e ∧ t = l.importIdx j + 1 ∧
        code = e.code deps (l.importCallee j) := by
  have hnodup : (((l.interfaces deps).adapters.map fun a => (a.functionType, a.instructions)).map
      Prod.fst).Nodup := by
    rw [List.map_map]
    exact nodup_adapterKeys deps l
  have hmem : (t, code) ∈
      (l.interfaces deps).adapters.map (fun a => (a.functionType, a.instructions))
      ↔ ⟨t, code⟩ ∈ (l.interfaces deps).adapters := by
    rw [List.mem_map]
    exact ⟨fun ⟨⟨_, _⟩, ha, he⟩ => by cases he; exact ha, fun ha => ⟨_, ha, rfl⟩⟩
  rw [MITInterfaces.adapterByType, MITInterfaces.new, Maps.lookup_collect_eq_some_iff hnodup, hmem,
    Layout.interfaces, List.mem_append, Maps.mem_mapIdx_iff, Maps.mem_mapIdx_iff]
  simp only [Adapter.mk.injEq, eq_comm]

/-- Each core type has one adapter. -/
theorem adapterTypesByCoreType_of_mem {core adapter : Nat}
    (h : ⟨core, adapter⟩ ∈ (l.interfaces deps).implementations) :
    (MITInterfaces.new (l.interfaces deps)).adapterTypesByCoreType core = some [adapter] := by
  refine Maps.lookup_collectAll_of_mem ?_ (List.mem_map.mpr ⟨_, h, rfl⟩)
  rw [List.map_map]
  exact nodup_coreKeys deps l

theorem adapterTypesByCoreType_isSome {core : Nat} :
    ((MITInterfaces.new (l.interfaces deps)).adapterTypesByCoreType core).isSome ↔
      (∃ k e, l.fns[k]? = some e ∧ core = l.fnIdx k + 1) ∨
      ∃ j e, l.imports[j]? = some e ∧ core = l.importIdx j + 2 := by
  rw [MITInterfaces.adapterTypesByCoreType, MITInterfaces.new, Maps.lookup_collectAll_isSome]
  simp only [List.mem_map, Prod.mk.injEq, Layout.interfaces, List.mem_append, Maps.mem_mapIdx_iff]
  constructor
  · rintro ⟨v, i, ⟨k, e, he, rfl⟩ | ⟨j, e, he, rfl⟩, rfl, -⟩
    · exact .inl ⟨k, e, he, rfl⟩
    · exact .inr ⟨j, e, he, rfl⟩
  · rintro (⟨k, e, he, rfl⟩ | ⟨j, e, he, rfl⟩)
    · exact ⟨_, _, .inl ⟨k, e, he, rfl⟩, rfl, rfl⟩
    · exact ⟨_, _, .inr ⟨j, e, he, rfl⟩, rfl, rfl⟩

theorem exportsByType_of_mem (hapi : apiFuncs.length ≤ l.base.length) {name : String} {core : Nat}
    (h : ⟨name, core⟩ ∈ (l.interfaces deps).exports) :
    (MITInterfaces.new (l.interfaces deps)).exportsByType core = some [name] := by
  refine Maps.lookup_collectAll_of_mem ?_ (List.mem_map.mpr ⟨_, h, rfl⟩)
  rw [List.map_map]
  exact nodup_exportKeys deps l hapi

/-- Of the two imports of a function the raw one has an implementation. -/
theorem adapterImports_interfaces :
    adapterImports (MITInterfaces.new (l.interfaces deps)) =
      l.imports.mapIdx fun j e => ⟨e.nameSpace, ExternFnType.name e.fn, l.importIdx j + 2⟩ := by
  have hpair : ∀ p ∈ l.imports.zipIdx, (l.importPair p.2 p.1).filter (fun i =>
      ((MITInterfaces.new (l.interfaces deps)).adapterTypesByCoreType i.functionType).isSome) =
        [⟨p.1.nameSpace, ExternFnType.name p.1.fn, l.importIdx p.2 + 2⟩] := by
    rintro ⟨e, j⟩ hp
    have he : l.imports[j]? = some e := List.mem_zipIdx_iff_getElem?.mp hp
    have hj : j < l.imports.length := (List.getElem?_eq_some_iff.mp he).1
    have hraw : ((MITInterfaces.new (l.interfaces deps)).adapterTypesByCoreType
        (l.importIdx j + 2)).isSome := adapterTypesByCoreType_isSome.mpr (.inr ⟨j, e, he, rfl⟩)
    have hit : ¬ ((MITInterfaces.new (l.interfaces deps)).adapterTypesByCoreType
        (l.importIdx j)).isSome := by
      rw [adapterTypesByCoreType_isSome]
      rintro (⟨k, e', hk, h⟩ | ⟨j', e', hj', h⟩)
      · have hlt := fnIdx_lt_importIdx l (List.getElem?_eq_some_iff.mp hk).1 j
        omega
      · simp only [Layout.importIdx] at h
        omega
    simp [Layout.importPair, hraw, hit]
  have himports : (MITInterfaces.new (l.interfaces deps)).imports =
      l.imports.zipIdx.flatMap fun p => l.importPair p.2 p.1 := rfl
  rw [adapterImports, himports, List.filter_flatMap, List.flatMap_congr hpair,
    ← List.map_eq_flatMap, List.mapIdx_eq_zipIdx_map]

theorem numbering_interfaces :
    numbering (MITInterfaces.new (l.interfaces deps)) =
      apiFuncs.map (fun d => .export d.name) ++
      l.fns.map (fun e => .export e.fn.signature.name) ++
      l.imports.mapIdx fun j e =>
        .import ⟨e.nameSpace, ExternFnType.name e.fn, l.importIdx j + 2⟩ := by
  have hnames : (l.fns.mapIdx fun k e => (⟨e.fn.signature.name, l.fnIdx k + 1⟩ : Export)).map
      (fun e => CallTarget.export e.name) = l.fns.map fun e => .export e.fn.signature.name := by
    apply List.ext_getElem?
    simp [Function.comp_def]
  have himports : (l.imports.mapIdx fun j e =>
      (⟨e.nameSpace, ExternFnType.name e.fn, l.importIdx j + 2⟩ : Import)).map CallTarget.import =
      l.imports.mapIdx fun j e =>
        .import ⟨e.nameSpace, ExternFnType.name e.fn, l.importIdx j + 2⟩ := by
    apply List.ext_getElem?
    simp [Function.comp_def]
  rw [numbering, adapterImports_interfaces, himports]
  simp only [MITInterfaces.new, Layout.interfaces, List.map_append, List.map_map, hnames]
  rfl

/-! ## Exported functions -/

theorem types_fn {k : Nat} {e : FnEntry} (he : l.fns[k]? = some e) :
    (l.interfaces deps).types[l.fnIdx k]? = some e.itType := by
  have hblock := Blocks.getElem?_append_flatMap (n := 2)
    (f := fun e : FnEntry => [e.itType, e.itType]) (fun _ => rfl) l.base (i := 0) he rfl
  have hlt := (List.getElem?_eq_some_iff.mp hblock).1
  rwa [← List.getElem?_append_left hlt] at hblock

theorem types_import {j : Nat} {e : ImportEntry} (he : l.imports[j]? = some e) :
    (l.interfaces deps).types[l.importIdx j]? = some e.itType := by
  have hblock := Blocks.getElem?_append_flatMap (n := 3)
    (f := fun e : ImportEntry => [e.itType, e.rawType, e.rawType]) (fun _ => rfl)
    (l.base ++ l.fns.flatMap fun e => [e.itType, e.itType]) (i := 0) he rfl
  have hlen : (l.base ++ l.fns.flatMap fun e => [e.itType, e.itType]).length + (3 * j + 0) =
      l.importIdx j := by
    rw [List.length_append, Blocks.length_flatMap (n := 2) (fun _ => rfl)]
    rfl
  rwa [hlen] at hblock

/-- Every implementation is listed. -/
theorem mem_implementations_iff {adapter core : Nat} :
    (adapter, core) ∈ (MITInterfaces.new (l.interfaces deps)).implementations ↔
      (∃ k e, l.fns[k]? = some e ∧ adapter = l.fnIdx k ∧ core = l.fnIdx k + 1) ∨
      ∃ j e, l.imports[j]? = some e ∧ adapter = l.importIdx j + 1 ∧ core = l.importIdx j + 2 := by
  have hnodup : (((l.interfaces deps).implementations.map fun i =>
      (i.adapterFunctionType, i.coreFunctionType)).map Prod.fst).Nodup := by
    rw [List.map_map]
    exact nodup_implementationKeys deps l
  have hlisted : (adapter, core) ∈ (MITInterfaces.new (l.interfaces deps)).implementations ↔
      ⟨core, adapter⟩ ∈ (l.interfaces deps).implementations := by
    have hheads := Maps.mem_heads_iff hnodup (k := adapter) (v := core)
    simp only [List.mem_map, Prod.mk.injEq] at hheads
    simp only [MITInterfaces.implementations, List.mem_filterMap, Option.map_eq_some_iff]
    constructor
    · rintro ⟨⟨key, values⟩, hentry, head, hhead, heq⟩
      cases heq
      obtain ⟨⟨c, a⟩, hi, rfl, rfl⟩ := hheads.mp ⟨values, hentry, hhead⟩
      exact hi
    · intro hi
      obtain ⟨values, hentry, hhead⟩ := hheads.mpr ⟨_, hi, rfl, rfl⟩
      exact ⟨⟨adapter, values⟩, hentry, core, hhead, rfl⟩
  rw [hlisted, Layout.interfaces, List.mem_append, Maps.mem_mapIdx_iff, Maps.mem_mapIdx_iff]
  simp only [Implementation.mk.injEq, eq_comm, and_comm]

/-- Imports are not exported. -/
theorem exportsByType_import (hapi : apiFuncs.length ≤ l.base.length) (j : Nat) :
    (MITInterfaces.new (l.interfaces deps)).exportsByType (l.importIdx j + 2) = none := by
  rw [← Option.not_isSome_iff_eq_none, MITInterfaces.exportsByType, MITInterfaces.new,
    Maps.lookup_collectAll_isSome]
  simp only [List.mem_map, Prod.mk.injEq, Layout.interfaces, List.mem_append, Maps.mem_mapIdx_iff]
  rintro ⟨name, e, ⟨d, hd, rfl⟩ | ⟨k, e', hk, rfl⟩, htype, -⟩
  · have hids : ∀ d ∈ apiFuncs, d.id < apiFuncs.length := by decide
    have hid := hids d hd
    simp only [Layout.importIdx] at htype
    omega
  · have hlt := fnIdx_lt_importIdx l (List.getElem?_eq_some_iff.mp hk).1 j
    dsimp only at htype
    omega

theorem mem_getExportFuncsDescriptors_iff (hapi : apiFuncs.length ≤ l.base.length)
    {d : ITExportFuncDescriptor} :
    d ∈ getExportFuncsDescriptors (MITInterfaces.new (l.interfaces deps)) ↔
      ∃ k e, l.fns[k]? = some e ∧ d = ⟨l.fnIdx k, e.fn.signature.name⟩ := by
  have hexport : ∀ k e, l.fns[k]? = some e →
      (MITInterfaces.new (l.interfaces deps)).exportsByType (l.fnIdx k + 1) =
        some [e.fn.signature.name] := fun k e he =>
    exportsByType_of_mem hapi (List.mem_append_right _ (Maps.mem_mapIdx_iff.mpr ⟨k, e, he, rfl⟩))
  rw [mem_exportDescriptors]
  constructor
  · rintro ⟨core, himpl, names, hnames, hname⟩
    obtain ⟨adapter, name⟩ := d
    rcases mem_implementations_iff.mp himpl with ⟨k, e, he, rfl, rfl⟩ | ⟨j, e, -, rfl, rfl⟩
    · rw [hexport k e he] at hnames
      cases hnames
      exact ⟨k, e, he, congrArg _ (List.mem_singleton.mp hname)⟩
    · rw [exportsByType_import hapi] at hnames
      cases hnames
  · rintro ⟨k, e, he, rfl⟩
    exact ⟨l.fnIdx k + 1, mem_implementations_iff.mpr (.inl ⟨k, e, he, rfl, rfl⟩), _,
      hexport k e he, List.mem_singleton.mpr rfl⟩

theorem exportSignature_fn {k : Nat} {e : FnEntry} (he : l.fns[k]? = some e) (name : String) :
    exportSignature (MITInterfaces.new (l.interfaces deps)) ⟨l.fnIdx k, name⟩ =
      .ok ⟨name, e.arguments, e.outputTypes, l.fnIdx k⟩ := by
  have htype : (MITInterfaces.new (l.interfaces deps)).typeByIdxR (l.fnIdx k) = .ok e.itType := by
    unfold MITInterfaces.typeByIdxR
    rw [MITInterfaces.new, types_fn he]
  unfold exportSignature
  rw [htype]
  rfl

/-- **The exported functions** of a generated section are those of the module. -/
theorem mem_getExportFuncs_iff (hapi : apiFuncs.length ≤ l.base.length) :
    ∃ signatures, getExportFuncs (MITInterfaces.new (l.interfaces deps)) = .ok signatures ∧
      ∀ s, s ∈ signatures ↔ ∃ k e, l.fns[k]? = some e ∧
        s = ⟨e.fn.signature.name, e.arguments, e.outputTypes, l.fnIdx k⟩ := by
  obtain ⟨signatures, hok⟩ : ∃ signatures,
      getExportFuncs (MITInterfaces.new (l.interfaces deps)) = .ok signatures := by
    refine Fallible.exists_mapM_ok fun d hd => ?_
    obtain ⟨k, e, he, rfl⟩ := (mem_getExportFuncsDescriptors_iff hapi).mp hd
    exact ⟨_, exportSignature_fn he _⟩
  refine ⟨signatures, hok, fun s => ⟨fun hs => ?_, ?_⟩⟩
  · obtain ⟨d, hd, hsig⟩ := Fallible.exists_of_mem_mapM hok hs
    obtain ⟨k, e, he, rfl⟩ := (mem_getExportFuncsDescriptors_iff hapi).mp hd
    rw [exportSignature_fn he] at hsig
    cases hsig
    exact ⟨k, e, he, rfl⟩
  · rintro ⟨k, e, he, rfl⟩
    have hd : ⟨l.fnIdx k, e.fn.signature.name⟩ ∈
        getExportFuncsDescriptors (MITInterfaces.new (l.interfaces deps)) :=
      (mem_getExportFuncsDescriptors_iff hapi).mpr ⟨k, e, he, rfl⟩
    obtain ⟨s, hs, hsig⟩ := Fallible.exists_right_of_mem (Fallible.mapM_eq_ok_iff.mp hok) hd
    rw [exportSignature_fn he] at hsig
    cases hsig
    exact hs

end Lookups

end Marine.Loader

