import Marine.Loader.LoadingSuccess
import Marine.Runtime.InterfaceCache
import Marine.Runtime.OomAttribution

/-!
# Memories of loaded modules

`memory_size` expects that `MModule::new` has checked for a memory, and no step
of `MModule::new` does.  So the registry of a core stays free of modules without
a memory exactly as long as every module that is loaded exports one.

* `newModule_memory`: the memory of a new module.
* `answers_iff`: when the statistics of a registry can be read.
* `keepsMemories_step_iff`: one load or unload.
* `memories_checked_iff`: every run.
-/

namespace Marine.Runtime

/-! ## New modules -/

/-- **Spec of `MModule::new`.**  Its memory is the first one that the instance exports. -/
theorem newModule_memory {checks : Bool} {run : Loader.ModuleRun} {name : String}
    {modules : AList fun _ : String => MModule} {module : MModule}
    (h : Loader.newModule checks run name modules = .ok module) :
    ∃ wasmInstance, run.instantiate = .ok wasmInstance ∧
      module.memory = wasmInstance.exportMemories.head? := by
  obtain ⟨_, -, h⟩ := Fallible.bind_eq_ok_iff.mp h
  obtain ⟨_, -, h⟩ := Fallible.bind_eq_ok_iff.mp h
  obtain ⟨it, -, h⟩ := Fallible.bind_eq_ok_iff.mp h
  obtain ⟨_, -, h⟩ := Fallible.bind_eq_ok_iff.mp h
  obtain ⟨⟨wasmInstance, exportFuncs, exportRecordTypes⟩, hprocess, h⟩ :=
    Fallible.bind_eq_ok_iff.mp h
  obtain ⟨_, -, h⟩ := Fallible.bind_eq_ok_iff.mp h
  obtain ⟨_, -, h⟩ := Fallible.bind_eq_ok_iff.mp h
  cases h
  obtain ⟨_, -, hprocess⟩ := Fallible.bind_eq_ok_iff.mp hprocess
  obtain ⟨_, -, hprocess⟩ := Fallible.bind_eq_ok_iff.mp hprocess
  obtain ⟨_, -, hprocess⟩ := Fallible.bind_eq_ok_iff.mp hprocess
  obtain ⟨w, hw, hprocess⟩ := Fallible.bind_eq_ok_iff.mp hprocess
  obtain ⟨_, -, hprocess⟩ := Fallible.bind_eq_ok_iff.mp hprocess
  obtain ⟨_, -, hprocess⟩ := Fallible.bind_eq_ok_iff.mp hprocess
  cases hprocess
  exact ⟨wasmInstance, Loader.orError_eq_ok_iff.mp hw, rfl⟩

/-! ## Registries -/

/-- The statistics can be read, and errors be converted. -/
def Answers (core : MarineCore) : Prop :=
  core.moduleMemoryStats.isSome ∧ ∀ e, (checkForOomAndConvertError core e).isSome

theorem answers_iff (core : MarineCore) : Answers core ↔ AllHaveMemory core := by
  rw [← moduleMemoryStats_isSome]
  refine ⟨And.left, fun h => ⟨h, fun e => ?_⟩⟩
  obtain ⟨stats, hstats⟩ := Option.isSome_iff_exists.mp h
  simp only [checkForOomAndConvertError, hstats, Option.bind_eq_bind, Option.bind_some]
  split
  · rfl
  · split
    · rfl
    · split <;> rfl

theorem allHaveMemory_iff (core : MarineCore) : AllHaveMemory core ↔
    ∀ name module, core.modules.lookup name = some module → module.memory ≠ none := by
  constructor
  · intro h name module hlookup
    exact h ⟨name, module⟩ (AList.mem_lookup_iff.mp hlookup)
  · rintro h ⟨name, module⟩ he
    exact h name module (AList.mem_lookup_iff.mpr he)

/-! ## Loads and unloads -/

/-- What changes the registry: a load with the growth requests of its engine, and
an unload. -/
inductive LoadOp
  | load (name : String) (requests : List Backend.GrowRequest) (run : Loader.ModuleRun)
  | unload (name : String)

/-- `none` when `MModule::new` panics. -/
def MarineCore.loadStep (checks : Bool) (core : MarineCore) : LoadOp → Option MarineCore
  | .load name requests run =>
    match Loader.newModule checks run name core.modules with
    | .ok module => some (core.loadModule name ⟨requests, .ok module⟩).2
    | .error (.error e) => some (core.loadModule name ⟨requests, .error e⟩).2
    | .error .panicked => none
  | .unload name => some (core.unloadModule name).2

/-- A binary that passes the steps of loading, under a name that is free, exports a
memory. -/
def ExportsMemory (checks : Bool) (core : MarineCore) : LoadOp → Prop
  | .load name _ run => core.modules.lookup name = none → ∀ wasmInstance,
      Loader.LoadsAs .new checks run core.modules wasmInstance → wasmInstance.exportMemories ≠ []
  | .unload _ => True

theorem allHaveMemory_insert_iff {core core' : MarineCore} {name : String} {module : MModule}
    (h : AllHaveMemory core) (hnew : core.modules.lookup name = none)
    (hmodules : core'.modules = core.modules.insert name module) :
    AllHaveMemory core' ↔ module.memory ≠ none := by
  rw [allHaveMemory_iff, hmodules]
  constructor
  · intro h'
    exact h' name module (AList.lookup_insert _)
  · intro hmemory name' module' hlookup
    by_cases hname : name' = name
    · subst hname
      rw [AList.lookup_insert] at hlookup
      cases hlookup
      exact hmemory
    · rw [AList.lookup_insert_ne hname] at hlookup
      exact (allHaveMemory_iff core).mp h name' module' hlookup

theorem allHaveMemory_erase {core core' : MarineCore} {name : String} (h : AllHaveMemory core)
    (hmodules : core'.modules = core.modules.erase name) : AllHaveMemory core' := by
  rw [allHaveMemory_iff, hmodules]
  intro name' module hlookup
  by_cases hname : name' = name
  · subst hname
    rw [AList.lookup_erase] at hlookup
    cases hlookup
  · rw [AList.lookup_erase_ne hname] at hlookup
    exact (allHaveMemory_iff core).mp h name' module hlookup

theorem allHaveMemory_congr {core core' : MarineCore} (hmodules : core'.modules = core.modules) :
    AllHaveMemory core' ↔ AllHaveMemory core := by
  unfold AllHaveMemory
  rw [hmodules]

/-- **Step lemma.** -/
theorem keepsMemories_step_iff (checks : Bool) {core : MarineCore} (h : AllHaveMemory core)
    (op : LoadOp) : ExportsMemory checks core op ↔
      ∀ core' ∈ core.loadStep checks op, AllHaveMemory core' := by
  cases op with
  | unload name =>
    refine iff_of_true trivial fun core' hcore' => ?_
    cases hcore'
    unfold MarineCore.unloadModule
    cases core.modules.lookup name with
    | none => exact h
    | some module => exact allHaveMemory_erase h rfl
  | load name requests run =>
    simp only [ExportsMemory, MarineCore.loadStep]
    have hloads : (Loader.newModule checks run name core.modules).isOk ↔
        ∃ wasmInstance, Loader.LoadsAs .new checks run core.modules wasmInstance :=
      Loader.newModuleFrom_isOk_iff .new
    cases hmodule : Loader.newModule checks run name core.modules with
    | error failure =>
      have hnone : ∀ wasmInstance, ¬ Loader.LoadsAs .new checks run core.modules wasmInstance := by
        intro wasmInstance h
        have hok : (Loader.newModule checks run name core.modules).isOk := hloads.mpr ⟨_, h⟩
        rw [hmodule] at hok
        cases hok
      refine iff_of_true (fun _ w hw => absurd hw (hnone w)) ?_
      cases failure with
      | panicked => exact fun core' hcore' => nomatch hcore'
      | error e =>
        rintro core' ⟨⟩
        exact (allHaveMemory_congr rfl).mpr h
    | ok module =>
      obtain ⟨wasmInstance, hinstance, hmemory⟩ := newModule_memory hmodule
      have hexports : module.memory ≠ none ↔ wasmInstance.exportMemories ≠ [] := by
        rw [hmemory, ne_eq, List.head?_eq_none_iff]
      have hthis : ∀ w, Loader.LoadsAs .new checks run core.modules w → w = wasmInstance := by
        rintro w ⟨-, -, ⟨it, -, hi, -⟩, -, -, -⟩
        exact Except.ok.inj (hi.instantiate.symm.trans hinstance)
      obtain ⟨w, hw⟩ := hloads.mp (Fallible.isOk_iff_exists.mpr ⟨module, hmodule⟩)
      cases hthis w hw
      simp only [Option.mem_some_iff, forall_eq']
      cases hnew : core.modules.lookup name with
      | some loaded =>
        refine iff_of_true (fun hfree => nomatch hfree) ?_
        simp only [MarineCore.loadModule, hnew]
        exact (allHaveMemory_congr rfl).mpr h
      | none =>
        simp only [MarineCore.loadModule, hnew]
        rw [allHaveMemory_insert_iff h hnew rfl, hexports]
        refine ⟨fun hmem => hmem trivial _ hw, fun hmem _ w' hw' => ?_⟩
        rw [hthis w' hw']
        exact hmem

/-- **Every loaded module has a memory**, and the statistics and the conversion
of errors never panic, exactly when every module that is added exports one. -/
theorem memories_checked_iff (checks : Bool) (config : MarineCoreConfig) (ops : List LoadOp) :
    Runs.Always (MarineCore.loadStep checks) (fun core => AllHaveMemory core ∧ Answers core)
        (MarineCore.new config) ops ↔
      Runs.Along (MarineCore.loadStep checks) (ExportsMemory checks) (MarineCore.new config)
        ops := by
  have hstart : AllHaveMemory (MarineCore.new config) := fun _ h => nomatch h
  refine Runs.always_iff_along (I := fun core => AllHaveMemory core ∧ Answers core)
    (fun core op hI => ?_) ⟨hstart, (answers_iff _).mpr hstart⟩
  rw [keepsMemories_step_iff checks hI.1]
  refine forall₂_congr fun core' _ => ⟨fun h => ⟨h, (answers_iff core').mpr h⟩, And.left⟩

/-- A module without functions and without a memory. -/
def emptyRun : Loader.ModuleRun where
  wasmModule := .ok ()
  checkSdkVersion := .ok ()
  extractIt := .ok ⟨[], [], [], [], []⟩
  checkItVersion := .ok ()
  parses _ := true
  register := .ok ()
  addWasiImports := .ok ()
  addHostImports := .ok ()
  instantiate := .ok ⟨fun name => .error (.wasmBackendError name), [], fun _ => none⟩
  callFunction _ := .ok ()

/-- It is loaded, and no statistics can be read then. -/
theorem empty_module_has_no_memory :
    ∃ core, Runs.run (MarineCore.loadStep false) (MarineCore.new ⟨infiniteMemoryLimit⟩)
        [.load "empty" [] emptyRun] = some core ∧
      (core.modules.lookup "empty").isSome ∧ ¬ AllHaveMemory core ∧
      core.moduleMemoryStats = none ∧
      checkForOomAndConvertError core (.noSuchModule "other") = none := by
  have hrun : Runs.run (MarineCore.loadStep false) (MarineCore.new ⟨infiniteMemoryLimit⟩)
      [.load "empty" [] emptyRun] = some ⟨(∅ : AList fun _ : String => MModule).insert "empty"
        ⟨none, ∅, ∅⟩, (MarineCore.new ⟨infiniteMemoryLimit⟩).store⟩ := rfl
  refine ⟨_, hrun, rfl, fun h => ?_, rfl, rfl⟩
  exact (allHaveMemory_iff _).mp h "empty" ⟨none, ∅, ∅⟩ (AList.lookup_insert _) rfl

end Marine.Runtime
