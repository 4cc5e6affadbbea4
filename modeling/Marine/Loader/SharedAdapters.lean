import Marine.Loader.ItInterface

/-!
# Implementations that share an adapter

The table of the implementations is a multimap by adapter, and
`implementations` walks through it by its keys, with one core function each.

* `mem_implementations_iff_head?`: what the iterator yields.
* `mem_getExportFuncsDescriptors`: what it makes of the exports.
* `nothingLost_iff`: the iterator yields all implementations exactly when no
  adapter has two core functions.
-/

namespace Marine.Loader

/-- The core functions of an adapter, in the order of the section. -/
def coresOf (interfaces : Interfaces) : Nat → List Nat :=
  Maps.valuesOf (interfaces.implementations.map fun i =>
    (i.adapterFunctionType, i.coreFunctionType))

/-- **Spec of `implementations`.** -/
theorem mem_implementations_iff_head? (interfaces : Interfaces) {adapter core : Nat} :
    (adapter, core) ∈ (MITInterfaces.new interfaces).implementations ↔
      (coresOf interfaces adapter).head? = some core := by
  rw [coresOf, ← Maps.mem_heads_iff_head?]
  simp only [MITInterfaces.implementations, MITInterfaces.new, List.mem_filterMap,
    Option.map_eq_some_iff, Prod.mk.injEq]
  constructor
  · rintro ⟨⟨_, cores⟩, hentry, _, hhead, rfl, rfl⟩
    exact ⟨cores, hentry, hhead⟩
  · rintro ⟨cores, hentry, hhead⟩
    exact ⟨⟨adapter, cores⟩, hentry, core, hhead, rfl, rfl⟩

/-- **Spec of `get_export_funcs_descriptors`.** -/
theorem mem_getExportFuncsDescriptors (interfaces : Interfaces) {d : ITExportFuncDescriptor} :
    d ∈ getExportFuncsDescriptors (MITInterfaces.new interfaces) ↔
      ∃ core, (d.adapterFunctionType, core) ∈ (MITInterfaces.new interfaces).implementations ∧
        ⟨d.name, core⟩ ∈ interfaces.exports := by
  have hexports : ∀ core name, (∃ names,
      (MITInterfaces.new interfaces).exportsByType core = some names ∧ name ∈ names) ↔
        ⟨name, core⟩ ∈ interfaces.exports := by
    intro core name
    have hpairs : (core, name) ∈ (interfaces.exports.map fun e => (e.functionType, e.name)) ↔
        ⟨name, core⟩ ∈ interfaces.exports := by
      simp only [List.mem_map, Prod.mk.injEq]
      constructor
      · rintro ⟨⟨_, _⟩, he, rfl, rfl⟩
        exact he
      · intro he
        exact ⟨_, he, rfl, rfl⟩
    rw [← hpairs, ← Maps.mem_valuesOf, MITInterfaces.exportsByType, MITInterfaces.new,
      Maps.lookup_collectAll]
    by_cases hnil : Maps.valuesOf
        (interfaces.exports.map fun e => (e.functionType, e.name)) core = []
    · simp [hnil]
    · simp [hnil]
  simp only [← hexports, mem_exportDescriptors]

/-! ## Nothing is lost -/

/-- The iterator yields the implementations of the section and no others, and
each export that a core function implements is extracted. -/
structure NothingLost (interfaces : Interfaces) : Prop where
  implementations : ∀ adapter core,
    (adapter, core) ∈ (MITInterfaces.new interfaces).implementations ↔
      ⟨core, adapter⟩ ∈ interfaces.implementations
  exports : ∀ e ∈ interfaces.exports, ∀ i ∈ interfaces.implementations,
    i.coreFunctionType = e.functionType →
      ⟨i.adapterFunctionType, e.name⟩ ∈
        getExportFuncsDescriptors (MITInterfaces.new interfaces)

/-- No adapter has two core functions. -/
def OneCorePerAdapter (interfaces : Interfaces) : Prop :=
  ∀ i ∈ interfaces.implementations, ∀ j ∈ interfaces.implementations,
    i.adapterFunctionType = j.adapterFunctionType → i.coreFunctionType = j.coreFunctionType

/-- **No implementation is lost** exactly when no adapter has two core
functions. -/
theorem nothingLost_iff (interfaces : Interfaces) :
    NothingLost interfaces ↔ OneCorePerAdapter interfaces := by
  have hpair : ∀ adapter core, ⟨core, adapter⟩ ∈ interfaces.implementations ↔
      (adapter, core) ∈ interfaces.implementations.map fun i =>
        (i.adapterFunctionType, i.coreFunctionType) := by
    intro adapter core
    simp only [List.mem_map, Prod.mk.injEq]
    constructor
    · intro hi
      exact ⟨_, hi, rfl, rfl⟩
    · rintro ⟨⟨_, _⟩, hi, rfl, rfl⟩
      exact hi
  have hexact := Maps.heads_exact_iff (interfaces.implementations.map fun i =>
    (i.adapterFunctionType, i.coreFunctionType))
  have hone : OneCorePerAdapter interfaces ↔ ∀ adapter core,
      (adapter, core) ∈ (MITInterfaces.new interfaces).implementations ↔
        ⟨core, adapter⟩ ∈ interfaces.implementations := by
    simp only [mem_implementations_iff_head?, hpair, coresOf]
    rw [hexact]
    simp [OneCorePerAdapter]
  constructor
  · intro h
    exact hone.mpr h.implementations
  · intro h
    have himplementations := hone.mp h
    refine ⟨himplementations, fun e he i hi hcore => ?_⟩
    refine (mem_getExportFuncsDescriptors interfaces).mpr ⟨i.coreFunctionType, ?_, ?_⟩
    · exact (himplementations _ _).mpr hi
    · rw [hcore]
      exact he

/-- Two exports that one adapter implements. -/
def sharedAdapter : Interfaces where
  types := [.function [] [], .function [] [], .function [] []]
  imports := []
  adapters := [⟨0, []⟩]
  exports := [⟨"open", 1⟩, ⟨"close", 2⟩]
  implementations := [⟨1, 0⟩, ⟨2, 0⟩]

/-- The second export is not extracted. -/
theorem sharedAdapter_lost : ¬ NothingLost sharedAdapter ∧
    ⟨2, 0⟩ ∈ sharedAdapter.implementations ∧ ⟨"close", 2⟩ ∈ sharedAdapter.exports ∧
      ∀ d ∈ getExportFuncsDescriptors (MITInterfaces.new sharedAdapter), d.name ≠ "close" := by
  have hextracted : getExportFuncsDescriptors (MITInterfaces.new sharedAdapter) =
      [⟨0, "open"⟩] := rfl
  refine ⟨fun h => ?_, by simp [sharedAdapter], by simp [sharedAdapter], ?_⟩
  · have hclose := h.exports ⟨"close", 2⟩ (by simp [sharedAdapter]) ⟨2, 0⟩
      (by simp [sharedAdapter]) rfl
    rw [hextracted] at hclose
    simp at hclose
  · rw [hextracted]
    simp

end Marine.Loader
