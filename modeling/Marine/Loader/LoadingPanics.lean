import Marine.Loader.ModuleLoading

/-!
# Panics while a module is loaded

Where the loader can panic on a section: at a type without a Wasm counterpart
in the signature of an implemented import, at a type of the engine without an
interface type in the signature of an export, and below zero in the number of
the type of an import.  The implemented imports come out of a hash table, in any
order; the exports and the imports of other modules come in that of the section.
`SafeToLoad` says that none of these is reached in any order of the table.

* `witImport_spec`: one implemented import.
* `extractRawExport_spec`: one export.
* `extractImportIn_panics_iff`, `extractImportIn_isOk_iff`: one import of
  another module.
* `processTables_ne_panicked_iff`: a whole section, in one order.
* `loading_never_panics_iff`: a whole section, in all of them.
-/

namespace Marine.Loader

open Marine.Runtime Fallible

/-! ## Types with a counterpart -/

/-- The types that `itype_to_wtype` knows. -/
def hasWtype : IType → Bool
  | .boolean | .string | .byteArray | .array _ | .record _ => false
  | _ => true

/-- The types that `wtype_to_itype` knows. -/
def hasItype : WType → Bool
  | .i32 | .i64 | .f32 | .f64 => true
  | _ => false

theorem itypeToWtype_isOk (ty : IType) : (itypeToWtype ty).isOk = hasWtype ty := by
  cases ty <;> rfl

theorem wtypeToItype_isOk (ty : WType) : (wtypeToItype ty).isOk = hasItype ty := by
  cases ty <;> rfl

theorem itypeToWtype_failsOnly (ty : IType) : FailsOnly .panicked (itypeToWtype ty) := by
  intro e h
  cases ty <;> cases h <;> rfl

theorem wtypeToItype_failsOnly (ty : WType) : FailsOnly .panicked (wtypeToItype ty) := by
  intro e h
  cases ty <;> cases h <;> rfl

/-! ## What is converted -/

section Conversions

variable {τ : Type}

/-- The types to convert are there, and all known. -/
def Converts (known : τ → Bool) (types : Option (List τ)) : Prop :=
  ∃ ts, types = some ts ∧ ts.all known

/-- The types to convert are there, and one is not known. -/
def Panics (known : τ → Bool) (types : Option (List τ)) : Prop :=
  ∃ ts, types = some ts ∧ ¬ ts.all known

/-- What a conversion of `types` does where there are some, and an error of the
source otherwise. -/
theorem conversion_spec {α : Type} {known : τ → Bool} {types : Option (List τ)}
    {x : Except LoadFailure α} (hnone : types = none → ∃ e, x = .error (.error e))
    (hsome : ∀ ts, types = some ts → (x.isOk ↔ ts.all known) ∧ FailsOnly .panicked x) :
    (x.isOk ↔ Converts known types) ∧ (x = .error .panicked ↔ Panics known types) := by
  unfold Converts Panics
  cases types with
  | none =>
    obtain ⟨e, rfl⟩ := hnone rfl
    simp
  | some ts =>
    obtain ⟨hok, honly⟩ := hsome ts rfl
    rw [honly.eq_error_iff, hok]
    simp

end Conversions

/-- The types of an implemented import, where the loader comes to convert them. -/
def witImportTypes (parses : List Instruction → Bool) (wit : MITInterfaces) (adapterType : Nat) :
    Option (List IType) :=
  match wit.adapterByType adapterType, wit.typeByIdx adapterType with
  | some adapterInstructions, some (.function arguments outputTypes) =>
    if parses adapterInstructions then some (arguments.map FunctionArg.ty ++ outputTypes)
    else none
  | _, _ => none

/-- The types of an export, where the instance has the function. -/
def exportTypes (wasmInstance : WasmInstance) (name : String) : Option (List WType) :=
  match wasmInstance.getFunction name with
  | .ok func => some (func.params ++ func.returns)
  | .error _ => none

def WitImportConverts (parses : List Instruction → Bool) (wit : MITInterfaces)
    (p : Nat × String × String) : Prop :=
  Converts hasWtype (witImportTypes parses wit p.1)

def WitImportPanics (parses : List Instruction → Bool) (wit : MITInterfaces)
    (p : Nat × String × String) : Prop :=
  Panics hasWtype (witImportTypes parses wit p.1)

def ExportConverts (wasmInstance : WasmInstance) (e : Export) : Prop :=
  Converts hasItype (exportTypes wasmInstance e.name)

def ExportPanics (wasmInstance : WasmInstance) (e : Export) : Prop :=
  Panics hasItype (exportTypes wasmInstance e.name)

theorem witImport_spec (parses : List Instruction → Bool) (wit : MITInterfaces)
    (p : Nat × String × String) :
    ((witImport parses wit p).isOk ↔ WitImportConverts parses wit p) ∧
      (witImport parses wit p = .error .panicked ↔ WitImportPanics parses wit p) := by
  refine conversion_spec (fun hnone => ?_) fun ts hsome => ?_
  · unfold witImport MITInterfaces.adapterByTypeR MITInterfaces.typeByIdxR
    unfold witImportTypes MITInterfaces.adapterByType MITInterfaces.typeByIdx at hnone
    cases hcode : wit.adapters.lookup p.1 with
    | none => exact ⟨_, rfl⟩
    | some code =>
      cases hty : wit.types[p.1]? with
      | none => exact ⟨_, rfl⟩
      | some ty =>
        cases ty with
        | record r => exact ⟨_, rfl⟩
        | function arguments outputTypes =>
          rw [hcode, hty] at hnone
          dsimp only at hnone ⊢
          by_cases hparses : parses code
          · rw [if_pos hparses] at hnone
            cases hnone
          · rw [if_neg hparses]
            exact ⟨_, rfl⟩
  · unfold witImportTypes MITInterfaces.adapterByType MITInterfaces.typeByIdx at hsome
    unfold witImport MITInterfaces.adapterByTypeR MITInterfaces.typeByIdxR
    split at hsome
    · rename_i code arguments outputTypes hcode hty
      rw [hcode, hty]
      dsimp only
      by_cases hparses : parses code
      · rw [if_pos hparses] at hsome
        cases hsome
        have hmap : (arguments.mapM fun arg => itypeToWtype arg.ty) =
            (arguments.map FunctionArg.ty).mapM itypeToWtype := by
          rw [List.mapM_map]
          rfl
        rw [if_pos hparses, hmap]
        refine ⟨isOk_mapM_pair itypeToWtype_isOk _ _ _, ?_⟩
        exact (FailsOnly.mapM itypeToWtype_failsOnly _).bind fun _ =>
          (FailsOnly.mapM itypeToWtype_failsOnly _).bind fun _ _ h => nomatch h
      · rw [if_neg hparses] at hsome
        cases hsome
    · cases hsome

theorem extractRawExport_spec (wasmInstance : WasmInstance) (e : Export) :
    ((ITInstance.extractRawExport wasmInstance e.name).isOk ↔ ExportConverts wasmInstance e) ∧
      (ITInstance.extractRawExport wasmInstance e.name = .error .panicked ↔
        ExportPanics wasmInstance e) := by
  unfold ExportConverts ExportPanics exportTypes ITInstance.extractRawExport
  refine conversion_spec (fun hnone => ?_) fun ts hsome => ?_
  · cases hfunc : wasmInstance.getFunction e.name with
    | error err => exact ⟨err, rfl⟩
    | ok func =>
      rw [hfunc] at hnone
      cases hnone
  · cases hfunc : wasmInstance.getFunction e.name with
    | error err =>
      rw [hfunc] at hsome
      cases hsome
    | ok func =>
      rw [hfunc] at hsome
      cases hsome
      refine ⟨isOk_mapM_pair wtypeToItype_isOk _ _ _, ?_⟩
      exact (FailsOnly.mapM wtypeToItype_failsOnly _).bind fun _ =>
        (FailsOnly.mapM wtypeToItype_failsOnly _).bind fun _ _ h => nomatch h

/-! ## Imports of other modules -/

/-- The module is loaded, the type of the import is that of a function, and the
module exports it. -/
def LinksTo (modules : AList fun _ : String => MModule) (wit : MITInterfaces) (i : Import) : Prop :=
  2 ≤ i.functionType ∧ ∃ module arguments outputTypes callable,
    modules.lookup i.nameSpace = some module ∧
    wit.typeByIdx (i.functionType - 2) = some (.function arguments outputTypes) ∧
    module.exportFuncs.lookup i.name = some callable

theorem extractImport_ne_panicked (moduleName : String)
    (modules : AList fun _ : String => MModule) (wit : MITInterfaces) (i : Import) :
    ITInstance.extractImport moduleName modules wit i ≠ .error .panicked := by
  unfold ITInstance.extractImport
  split
  · refine bind_ne_error_iff.mpr ⟨?_, fun signature _ => ?_⟩
    · unfold importSignature
      split <;> simp
    · show WITFunction.fromImport _ _ _ signature.1 signature.2 ≠ _
      unfold WITFunction.fromImport
      split <;> simp
  · simp

theorem extractImportIn_panics_iff (moduleName : String)
    (modules : AList fun _ : String => MModule) (wit : MITInterfaces) (i : Import) :
    extractImportIn true moduleName modules wit i = .error .panicked ↔ underflows modules i := by
  unfold extractImportIn
  by_cases h : underflows modules i
  · simp [h]
  · simp [h, extractImport_ne_panicked]

/-- The import links to a loaded module, whatever its type is before the subtraction. -/
theorem extractImport_isOk_iff (moduleName : String)
    (modules : AList fun _ : String => MModule) (wit : MITInterfaces) (i : Import) :
    (ITInstance.extractImport moduleName modules wit i).isOk ↔
      ∃ module arguments outputTypes callable, modules.lookup i.nameSpace = some module ∧
        wit.typeByIdx (wrappingSub i.functionType 2) = some (.function arguments outputTypes) ∧
        module.exportFuncs.lookup i.name = some callable := by
  unfold ITInstance.extractImport
  cases hmodule : modules.lookup i.nameSpace with
  | none => simp
  | some module =>
    unfold importSignature MITInterfaces.typeByIdxR MITInterfaces.typeByIdx
    cases hty : wit.types[wrappingSub i.functionType 2]? with
    | none => simp [bind, Except.bind]
    | some ty =>
      cases ty with
      | record r => simp [bind, Except.bind]
      | function arguments outputTypes =>
        show (WITFunction.fromImport module moduleName i.name arguments outputTypes).isOk ↔ _
        unfold WITFunction.fromImport MModule.getCallable
        cases hcallable : module.exportFuncs.lookup i.name with
        | none => simp [hcallable]
        | some callable => simp [hcallable]

theorem extractImportIn_isOk_iff (moduleName : String)
    (modules : AList fun _ : String => MModule) (wit : MITInterfaces) (i : Import) :
    (extractImportIn true moduleName modules wit i).isOk ↔ LinksTo modules wit i := by
  unfold extractImportIn LinksTo
  by_cases hunder : underflows modules i
  · have hnot : ¬ 2 ≤ i.functionType := Nat.not_le.mpr hunder.2
    simp [hunder, hnot]
  · rw [if_neg fun h => hunder h.2, extractImport_isOk_iff]
    by_cases hle : 2 ≤ i.functionType
    · have hsub : wrappingSub i.functionType 2 = i.functionType - 2 := if_pos hle
      rw [hsub]
      exact (and_iff_right hle).symm
    · refine iff_of_false ?_ fun h => hle h.1
      rintro ⟨module, -, -, -, hmodule, -⟩
      exact hunder ⟨hmodule ▸ rfl, Nat.not_le.mp hle⟩

/-! ## A whole section -/

/-- The steps before the instance succeed. -/
structure Instantiates (run : ModuleRun) (wit : MITInterfaces) (wasmInstance : WasmInstance) :
    Prop where
  imports : ∀ p ∈ implementedImports wit, WitImportConverts run.parses wit p
  register : run.register = .ok ()
  wasi : run.addWasiImports = .ok ()
  host : run.addHostImports = .ok ()
  instantiate : run.instantiate = .ok wasmInstance

/-- No panic is reached, stage by stage. -/
structure SafeToLoad (run : ModuleRun) (modules : AList fun _ : String => MModule)
    (wit : MITInterfaces) : Prop where
  /-- `itype_to_wtype` knows the types of the implemented imports, whichever comes first. -/
  implemented : ∀ p ∈ implementedImports wit, ¬ WitImportPanics run.parses wit p
  /-- `wtype_to_itype` knows the types of the exports. -/
  exports : ∀ wasmInstance, Instantiates run wit wasmInstance →
    Avoids (ExportConverts wasmInstance) (ExportPanics wasmInstance) wit.exports
  /-- `function_type - 2` stays above zero. -/
  imports : ∀ wasmInstance, Instantiates run wit wasmInstance →
    (∀ e ∈ wit.exports, ExportConverts wasmInstance e) →
    Avoids (LinksTo modules wit) (underflows modules) (adapterImports wit)

section Loading

variable {run : ModuleRun} {wit : MITInterfaces}

theorem addWitImports_ne_panicked_iff : addWitImports run wit ≠ .error .panicked ↔
    Avoids (WitImportConverts run.parses wit) (WitImportPanics run.parses wit)
      (implementedImports wit) := by
  rw [addWitImports, bind_ne_error_iff, mapM_ne_error_iff (fun p => (witImport_spec _ wit p).1)
    fun p => (witImport_spec _ wit p).2]
  refine and_iff_left fun imports _ => bind_ne_error_iff.mpr ⟨orError_ne_panicked _, fun _ _ => ?_⟩
  nofun

theorem addWitImports_ok_iff : (∃ imports, addWitImports run wit = .ok imports) ↔
    (∀ p ∈ implementedImports wit, WitImportConverts run.parses wit p) ∧
      run.register = .ok () := by
  rw [← mapM_isOk_iff fun p => (witImport_spec run.parses wit p).1, isOk_iff_exists]
  constructor
  · rintro ⟨imports, h⟩
    obtain ⟨imports', himports, h⟩ := bind_eq_ok_iff.mp h
    obtain ⟨⟨⟩, hregister, -⟩ := bind_eq_ok_iff.mp h
    exact ⟨⟨imports', himports⟩, orError_eq_ok_iff.mp hregister⟩
  · rintro ⟨⟨imports, himports⟩, hregister⟩
    exact ⟨imports, bind_eq_ok_iff.mpr ⟨imports, himports,
      bind_eq_ok_iff.mpr ⟨(), orError_eq_ok_iff.mpr hregister, rfl⟩⟩⟩

/-- **Spec of `ITInstance::new`** where overflows are checked. -/
theorem newInstanceIn_ne_panicked_iff (wasmInstance : WasmInstance) (name : String)
    (modules : AList fun _ : String => MModule) :
    newInstanceIn true wasmInstance name wit modules ≠ .error .panicked ↔
      Avoids (ExportConverts wasmInstance) (ExportPanics wasmInstance) wit.exports ∧
      ((∀ e ∈ wit.exports, ExportConverts wasmInstance e) →
        Avoids (LinksTo modules wit) (underflows modules) (adapterImports wit)) := by
  have hexports : ITInstance.extractRawExports wasmInstance wit ≠ .error .panicked ↔
      Avoids (ExportConverts wasmInstance) (ExportPanics wasmInstance) wit.exports :=
    mapM_zipIdx_ne_error_iff id 0 (fun e => (extractRawExport_spec wasmInstance e).1)
      fun e => (extractRawExport_spec wasmInstance e).2
  have hexportsOk : (ITInstance.extractRawExports wasmInstance wit).isOk ↔
      ∀ e ∈ wit.exports, ExportConverts wasmInstance e :=
    mapM_zipIdx_isOk_iff id 0 fun e => (extractRawExport_spec wasmInstance e).1
  have himports : ∀ start, extractImportsIn true name modules wit start ≠ .error .panicked ↔
      Avoids (LinksTo modules wit) (underflows modules) (adapterImports wit) := fun start =>
    mapM_zipIdx_ne_error_iff (fun idx => start + idx) 0
      (extractImportIn_isOk_iff name modules wit) (extractImportIn_panics_iff name modules wit)
  rw [newInstanceIn, bind_ne_error_iff, hexports, ← hexportsOk, isOk_iff_exists]
  refine and_congr_right fun _ => ⟨?_, fun h exports hok => ?_⟩
  · rintro h ⟨exports, hok⟩
    exact (himports _).mp (bind_ne_error_iff.mp (h exports hok)).1
  · refine bind_ne_error_iff.mpr ⟨(himports _).mpr (h ⟨exports, hok⟩), fun imports _ hpanic => ?_⟩
    cases hpanic

/-- **Loading in one order** of the implementations. -/
theorem processTables_ne_panicked_iff (run : ModuleRun) (name : String)
    (modules : AList fun _ : String => MModule) (wit : MITInterfaces) :
    processTables true run name modules wit ≠ .error .panicked ↔
      Avoids (WitImportConverts run.parses wit) (WitImportPanics run.parses wit)
        (implementedImports wit) ∧
      ∀ wasmInstance, Instantiates run wit wasmInstance →
        newInstanceIn true wasmInstance name wit modules ≠ .error .panicked := by
  unfold processTables
  simp only [bind_ne_error_iff, addWitImports_ne_panicked_iff, orError_eq_ok_iff,
    orError_ne_panicked, ne_eq, not_false_eq_true, true_and]
  refine and_congr_right fun _ => ⟨fun h wasmInstance hi => ?_, fun h => ?_⟩
  · obtain ⟨imports, himports⟩ := addWitImports_ok_iff.mpr ⟨hi.imports, hi.register⟩
    exact (h imports himports () hi.wasi () hi.host wasmInstance hi.instantiate).1
  · rintro imports himports ⟨⟩ hwasi ⟨⟩ hhost wasmInstance hinstantiate
    obtain ⟨hconverts, hregister⟩ := addWitImports_ok_iff.mp ⟨imports, himports⟩
    refine ⟨h wasmInstance ⟨hconverts, hregister, hwasi, hhost, hinstantiate⟩, ?_⟩
    rintro itInstance - exportFuncs - hpanic
    cases hpanic

/-! ### Orders -/

theorem mem_implementedImports {p : Nat × String × String} :
    p ∈ implementedImports wit ↔ ∃ core names, (p.1, core) ∈ wit.implementations ∧
      wit.importsByType core = some names ∧ p.2 ∈ names := by
  rw [implementedImports, List.mem_flatMap]
  constructor
  · rintro ⟨q, hq, hp⟩
    obtain ⟨i, hi, hnames⟩ := List.mem_filterMap.mp hq
    obtain ⟨names, himports, rfl⟩ := Option.map_eq_some_iff.mp hnames
    obtain ⟨n, hn, rfl⟩ := List.mem_map.mp hp
    exact ⟨i.2, names, hi, himports, hn⟩
  · rintro ⟨core, names, hi, himports, hp⟩
    refine ⟨(p.1, names), List.mem_filterMap.mpr ⟨(p.1, core), hi, ?_⟩, ?_⟩
    · show (wit.importsByType core).map _ = _
      rw [himports]
      rfl
    · exact List.mem_map.mpr ⟨p.2, hp, rfl⟩

section Orders

variable {implementations : AList fun _ : Nat => List Nat}

theorem mem_implementedImports_reordered
    (hperm : implementations.entries.Perm wit.adapterTypeToCore.entries)
    {p : Nat × String × String} :
    p ∈ implementedImports (wit.reordered implementations) ↔ p ∈ implementedImports wit := by
  simp only [mem_implementedImports, (MITInterfaces.implementations_reordered hperm).mem_iff]
  exact Iff.rfl

theorem instantiates_reordered
    (hperm : implementations.entries.Perm wit.adapterTypeToCore.entries)
    {wasmInstance : WasmInstance} :
    Instantiates run (wit.reordered implementations) wasmInstance ↔
      Instantiates run wit wasmInstance := by
  have hmem := fun p => mem_implementedImports_reordered (p := p) hperm
  constructor
  · intro hi
    exact ⟨fun p hp => hi.imports p ((hmem p).mpr hp), hi.register, hi.wasi, hi.host,
      hi.instantiate⟩
  · intro hi
    exact ⟨fun p hp => hi.imports p ((hmem p).mp hp), hi.register, hi.wasi, hi.host,
      hi.instantiate⟩

end Orders

/-- **The order matters.**  A faulty import is met, whatever the others are, in the orders
that begin with its adapter: all imports of one adapter are converted to one signature. -/
theorem exists_order_panics {parses : List Instruction → Bool} {p : Nat × String × String}
    (hp : p ∈ implementedImports wit) (hpanics : WitImportPanics parses wit p) :
    ∃ implementations : AList fun _ : Nat => List Nat,
      implementations.entries.Perm wit.adapterTypeToCore.entries ∧
      ¬ Avoids (WitImportConverts parses wit) (WitImportPanics parses wit)
        (implementedImports (wit.reordered implementations)) := by
  obtain ⟨core, names, hi, himports, hname⟩ := mem_implementedImports.mp hp
  obtain ⟨implementations, hperm, rest, hfirst⟩ := MITInterfaces.exists_reordered_first hi
  obtain ⟨n, ns, rfl⟩ := List.exists_cons_of_ne_nil (List.ne_nil_of_mem hname)
  have himports' : (wit.reordered implementations).importsByType core = some (n :: ns) := himports
  refine ⟨implementations, hperm, fun havoids => ?_⟩
  rw [implementedImports, hfirst] at havoids
  simp only [List.filterMap_cons, himports', Option.map_some, List.flatMap_cons, List.map_cons,
    List.cons_append] at havoids
  exact havoids.1 hpanics

/-- **Loading never panics** on a section, in any order of its implementations, exactly
when it is safe to load; an underflow counts as a panic. -/
theorem loading_never_panics_iff (run : ModuleRun) (name : String)
    (modules : AList fun _ : String => MModule) (it : Interfaces) :
    (∀ implementations : AList fun _ : Nat => List Nat,
      implementations.entries.Perm (MITInterfaces.new it).adapterTypeToCore.entries →
      processTables true run name modules ((MITInterfaces.new it).reordered implementations) ≠
        .error .panicked) ↔
      SafeToLoad run modules (.new it) := by
  simp only [processTables_ne_panicked_iff, newInstanceIn_ne_panicked_iff]
  constructor
  · intro h
    have hstages := (h (MITInterfaces.new it).adapterTypeToCore (.refl _)).2
    refine ⟨fun p hp hpanics => ?_, fun w hi => (hstages w hi).1, fun w hi => (hstages w hi).2⟩
    obtain ⟨implementations, hperm, hmet⟩ := exists_order_panics hp hpanics
    exact hmet (h implementations hperm).1
  · intro h implementations hperm
    refine ⟨avoids_of_forall fun p hp => ?_, fun w hi => ?_⟩
    · exact h.implemented p ((mem_implementedImports_reordered hperm).mp hp)
    · have hi' := (instantiates_reordered hperm).mp hi
      exact ⟨h.exports w hi', h.imports w hi'⟩

end Loading

/-- Engine and parsers succeed. -/
def quietRun (wasmInstance : WasmInstance) : ModuleRun where
  wasmModule := .ok ()
  checkSdkVersion := .ok ()
  extractIt := .ok ⟨[], [], [], [], []⟩
  checkItVersion := .ok ()
  parses _ := true
  register := .ok ()
  addWasiImports := .ok ()
  addHostImports := .ok ()
  instantiate := .ok wasmInstance
  callFunction _ := .ok ()

/-- An instance whose functions all have one signature, without a memory. -/
def plainInstance (func : ExportFunction) : WasmInstance where
  getFunction _ := .ok func
  exportMemories := []
  getMemory _ := none

/-- The implementation of an import takes a string. -/
def stringImport : Interfaces where
  types := [.function [⟨"name", .string⟩] []]
  imports := [⟨"host", "greet", 0⟩]
  adapters := [⟨0, []⟩]
  exports := []
  implementations := [⟨0, 0⟩]

/-- Any exported function. -/
def mainExport : Interfaces := ⟨[], [], [], [⟨"main", 0⟩], []⟩

/-- The core type of an import is 1, where the IT type should be two below. -/
def earlyImport : Interfaces where
  types := [.function [] []]
  imports := [⟨"store", "get", 1⟩]
  adapters := [⟨0, []⟩]
  exports := []
  implementations := [⟨1, 0⟩]

/-- A malformed section reaches each of the three panics. -/
theorem malformed_sections_panic :
    processInterfaces true (quietRun (plainInstance ⟨[], []⟩)) "guest" ∅ stringImport =
      .error .panicked ∧
    processInterfaces true (quietRun (plainInstance ⟨[.v128], []⟩)) "guest" ∅ mainExport =
      .error .panicked ∧
    processInterfaces true (quietRun (plainInstance ⟨[], []⟩)) "guest"
      ((∅ : AList fun _ : String => MModule).insert "store" ⟨none, ∅, ∅⟩) earlyImport =
      .error .panicked :=
  ⟨rfl, rfl, rfl⟩

end Marine.Loader
