import Marine.Loader.HostEnvironment
import Marine.Loader.LinkedCalls
import Marine.Runtime.Instance

/-!
# Startup

From a configuration to a running instance (`marine/src/marine.rs`,
`marine/src/module_loading`): the files of the configured modules are read, and the
modules are loaded in the order of the configuration, each with the modules before it
in the registry.

* `loadModules_ok`: what has happened when all modules are loaded.
* `startup_loads`: a started instance has exactly the configured modules, from their
  files and with their configurations, and each imports from modules before it.
* `startup_missing_iff`: which module is reported as missing: one that was not provided,
  or one with a name that was used.
-/

namespace Marine.Runtime

open Marine.Backend Marine.Config Marine.Loader Fallible

variable {Path : Type}

abbrev ModuleBytes := List UInt8

/-- What an instance is started in.  `moduleRun` and `requests` are what the engine does
while it loads a module. -/
structure Host (Path : Type) where
  fs : FileSystem Path
  mountedBinary : Path → HostImports.MountedBinary
  log : HostImports.LogCrate
  loggerFilter : HostImports.LoggerFilter
  callParameters : HostAPIVersion → HostImports.HostImportDescriptor
  moduleRun : MarineCore → String → ModuleBytes → MModuleConfig Path → ModuleRun
  requests : MarineCore → String → ModuleBytes → MModuleConfig Path → List GrowRequest

namespace Host

variable (host : Host Path)

def makeConfig (descriptor : ModuleDescriptor Path) : Except MarineError (MModuleConfig Path) :=
  makeMarineConfig host.log host.fs.display host.callParameters descriptor.importName
    (some descriptor.config) host.loggerFilter

/-- The end of `load_module`, with the conversion of its error. -/
def finishLoad (core : MarineCore) (name : String) (run : EngineRun MModule) :
    Option (Except MarineError MarineCore) :=
  match core.loadModule name run with
  | (.ok (), core) => some (.ok core)
  | (.error e, core) => (checkForOomAndConvertError core e).map .error

/-- `MModule::new` for a module over this core; `none` is a panic. -/
def newModuleRun (core : MarineCore) (name : String) (bytes : ModuleBytes)
    (config : MModuleConfig Path) : Option (EngineRun MModule) :=
  let requests := host.requests core name bytes config
  match newModule false (host.moduleRun core name bytes config) name core.modules with
  | .ok module => some ⟨requests, .ok module⟩
  | .error (.error e) => some ⟨requests, .error e⟩
  | .error .panicked => none

/-- One module of `with_modules`. -/
def loadDescribed (core : MarineCore) (descriptor : ModuleDescriptor Path) (bytes : ModuleBytes) :
    Option (Except MarineError MarineCore) :=
  match host.makeConfig descriptor with
  | .error e => some (.error e)
  | .ok config =>
    (host.newModuleRun core descriptor.importName bytes config).bind
      (finishLoad core descriptor.importName)

/-- The loop of `with_modules`.  Bytes are removed when they are used. -/
def loadModules (modulesDir : Option Path) :
    List (ModuleDescriptor Path) → (AList fun _ : String => ModuleBytes) → MarineCore →
      Option (Except MarineError MarineCore)
  | [], _, core => some (.ok core)
  | descriptor :: descriptors, modules, core =>
    match modules.lookup descriptor.importName with
    | none => some (.error (.instantiationError descriptor.importName
        (modulesDir.map host.fs.display) modules.keys))
    | some bytes =>
      match host.loadDescribed core descriptor bytes with
      | some (.ok core) =>
        loadModules modulesDir descriptors (modules.erase descriptor.importName) core
      | failed => failed

def withModules (modules : AList fun _ : String => ModuleBytes) (config : MarineConfig Path) :
    Option (Except MarineError MarineInstance) :=
  (host.loadModules config.modulesDir config.modulesConfig modules
    (.new (.new config.totalMemoryLimit))).map (Except.map MarineInstance.new)

/-- One file of `load_modules_from_fs`. -/
def readModule (loaded : AList fun _ : String => ModuleBytes) (e : Sigma fun _ : String => Path) :
    Except MarineError (AList fun _ : String => ModuleBytes) :=
  match host.fs.read e.2 with
  | .error text => .error (.ioError ("failed to load " ++ host.fs.display e.2 ++ ": " ++ text))
  | .ok bytes =>
    if e.1 ∈ loaded then .error (.invalidConfig "module {} is duplicated in config")
    else .ok (loaded.insert e.1 bytes)

def loadModulesFromFs (modules : AList fun _ : String => Path) :
    Except MarineError (AList fun _ : String => ModuleBytes) :=
  modules.entries.foldlM host.readModule ∅

def withModuleNames (names : AList fun _ : String => Path) (config : MarineConfig Path) :
    Option (Except MarineError MarineInstance) :=
  match host.loadModulesFromFs names with
  | .error e => some (.error e)
  | .ok modules => host.withModules modules config

/-- The paths of the configured modules, by name. -/
def modulePaths (config : MarineConfig Path) :
    Except MarineError (AList fun _ : String => Path) := do
  let paths ← config.modulesConfig.mapM fun m => do
    let path ← m.getPath host.fs config.modulesDir
    return (m.importName, path)
  return Maps.collect paths

/-- `with_raw_config` for a `MarineConfig`. -/
def withConfig (config : MarineConfig Path) : Option (Except MarineError MarineInstance) :=
  match host.modulePaths config with
  | .error e => some (.error e)
  | .ok modules => host.withModuleNames modules config

def withRawConfig (toml : TomlMarineConfig Path) : Option (Except MarineError MarineInstance) :=
  match marineConfigOf host.fs host.mountedBinary toml with
  | .error e => some (.error e)
  | .ok config => host.withConfig config

/-! ## What has been loaded -/

/-- A module that was loaded: from what, over which core, and what it became. -/
structure LoadedModule (Path : Type) where
  descriptor : ModuleDescriptor Path
  bytes : ModuleBytes
  config : MModuleConfig Path
  before : MarineCore
  module : MModule

namespace LoadedModule

def name (l : LoadedModule Path) : String := l.descriptor.importName

/-- The module was made by `MModule::new` from its bytes and its configuration. -/
structure By (host : Host Path) (l : LoadedModule Path) : Prop where
  configured : host.makeConfig l.descriptor = .ok l.config
  created : newModule false (host.moduleRun l.before l.name l.bytes l.config) l.name
    l.before.modules = .ok l.module

/-- The registry holds the modules that were loaded, over what `old` has. -/
def Registers (old core : MarineCore) (ls : List (LoadedModule Path)) : Prop :=
  ∀ name module, core.modules.lookup name = some module ↔
    old.modules.lookup name = some module ∨ ∃ l ∈ ls, l.name = name ∧ l.module = module

end LoadedModule

theorem LoadedModule.Registers.cons {old next core : MarineCore} {l : LoadedModule Path}
    {ls : List (LoadedModule Path)} (h : Registers next core ls)
    (hnext : next.modules = old.modules.insert l.name l.module) (hfree : l.name ∉ old.modules) :
    Registers old core (l :: ls) := by
  intro name module
  rw [h name module, hnext]
  by_cases hname : name = l.name
  · subst hname
    rw [AList.lookup_insert, AList.lookup_eq_none.mpr hfree]
    simp
  · rw [AList.lookup_insert_ne hname]
    simp [Ne.symm hname]

variable {host} {modulesDir : Option Path} {core core' : MarineCore}

theorem newModuleRun_ok {name : String} {bytes : ModuleBytes} {config : MModuleConfig Path}
    {run : EngineRun MModule} (h : host.newModuleRun core name bytes config = some run)
    {module : MModule} (hmodule : run.result = .ok module) :
    newModule false (host.moduleRun core name bytes config) name core.modules = .ok module := by
  unfold newModuleRun at h
  dsimp only at h
  split at h
  · rename_i hnew
    cases h
    cases hmodule
    exact hnew
  · cases h
    cases hmodule
  · cases h

theorem finishLoad_ok {name : String} {run : EngineRun MModule}
    (h : finishLoad core name run = some (.ok core')) :
    ∃ module, run.result = .ok module ∧ name ∉ core.modules ∧
      core'.modules = core.modules.insert name module := by
  unfold finishLoad MarineCore.loadModule at h
  cases hresult : run.result with
  | error e =>
    simp only [hresult, Option.map_eq_some_iff, reduceCtorEq, and_false, exists_false] at h
  | ok module =>
    cases hlookup : core.modules.lookup name with
    | none =>
      simp only [hresult, hlookup, Option.some.injEq, Except.ok.injEq] at h
      subst h
      exact ⟨module, rfl, AList.lookup_eq_none.mp hlookup, rfl⟩
    | some other =>
      simp only [hresult, hlookup, Option.map_eq_some_iff, reduceCtorEq, and_false,
        exists_false] at h

theorem loadDescribed_ok {descriptor : ModuleDescriptor Path} {bytes : ModuleBytes}
    (h : host.loadDescribed core descriptor bytes = some (.ok core')) :
    ∃ config module, LoadedModule.By host ⟨descriptor, bytes, config, core, module⟩ ∧
      descriptor.importName ∉ core.modules ∧
      core'.modules = core.modules.insert descriptor.importName module := by
  unfold loadDescribed at h
  split at h
  · cases h
  · rename_i config hconfig
    obtain ⟨run, hrun, hfinish⟩ := Option.bind_eq_some_iff.mp h
    obtain ⟨module, hmodule, hfree, hmodules⟩ := finishLoad_ok hfinish
    exact ⟨config, module, ⟨hconfig, newModuleRun_ok hrun hmodule⟩, hfree, hmodules⟩

/-- **When all modules are loaded**: each one was made from its bytes while the modules
before it were registered, and the registry has them all. -/
theorem loadModules_ok {descriptors : List (ModuleDescriptor Path)}
    {modules : AList fun _ : String => ModuleBytes}
    (h : host.loadModules modulesDir descriptors modules core = some (.ok core')) :
    ∃ ls : List (LoadedModule Path), ls.map LoadedModule.descriptor = descriptors ∧
      (ls.map LoadedModule.name).Nodup ∧
      (∀ l ∈ ls, l.By host ∧ modules.lookup l.name = some l.bytes ∧ l.name ∉ core.modules) ∧
      LoadedModule.Registers core core' ls ∧
      ∀ before l after, ls = before ++ l :: after →
        LoadedModule.Registers core l.before before := by
  induction descriptors generalizing modules core with
  | nil =>
    cases h
    exact ⟨[], rfl, .nil, nofun, fun name module => by simp,
      fun before l after heq => by simp at heq⟩
  | cons descriptor descriptors ih =>
    rw [loadModules] at h
    cases hbytes : modules.lookup descriptor.importName with
    | none =>
      rw [hbytes] at h
      cases h
    | some bytes =>
      simp only [hbytes] at h
      split at h
      · rename_i next hload
        obtain ⟨config, module, hby, hfree, hnext⟩ := loadDescribed_ok hload
        obtain ⟨ls, rfl, hnodup, hall, hregistered, hbefore⟩ := ih h
        have hother : ∀ l ∈ ls, l.name ≠ descriptor.importName ∧
            modules.lookup l.name = some l.bytes := by
          intro l hl
          have hlookup := (hall l hl).2.1
          have hne : l.name ≠ descriptor.importName := by
            intro heq
            rw [heq, AList.lookup_erase] at hlookup
            cases hlookup
          rw [AList.lookup_erase_ne hne] at hlookup
          exact ⟨hne, hlookup⟩
        refine ⟨⟨descriptor, bytes, config, core, module⟩ :: ls, rfl, ?_, ?_,
          hregistered.cons hnext hfree, ?_⟩
        · refine List.nodup_cons.mpr ⟨fun hmem => ?_, hnodup⟩
          obtain ⟨l, hl, hname⟩ := List.mem_map.mp hmem
          exact (hother l hl).1 hname
        · refine List.forall_mem_cons.mpr ⟨⟨hby, hbytes, hfree⟩, fun l hl => ?_⟩
          obtain ⟨hmade, -, hnew⟩ := hall l hl
          rw [hnext, AList.mem_insert, not_or] at hnew
          exact ⟨hmade, (hother l hl).2, hnew.2⟩
        · intro before l after heq
          cases before with
          | nil =>
            cases heq
            exact fun name module => by simp
          | cons first before =>
            obtain ⟨rfl, rfl⟩ := List.cons.inj heq
            exact (hbefore before l after rfl).cons hnext hfree
      · rename_i hfailed
        exact absurd h (hfailed _)

/-! ## Files -/

/-- The bytes come from the files. -/
def FromFiles (host : Host Path) (files : List (Sigma fun _ : String => Path))
    (loaded : AList fun _ : String => ModuleBytes) : Prop :=
  ∀ name bytes, loaded.lookup name = some bytes →
    ∃ path, ⟨name, path⟩ ∈ files ∧ host.fs.read path = .ok bytes

theorem fromFiles_readModule {files : List (Sigma fun _ : String => Path)}
    {e : Sigma fun _ : String => Path} {loaded loaded' : AList fun _ : String => ModuleBytes}
    (h : host.FromFiles files loaded) (hread : host.readModule loaded e = .ok loaded') :
    host.FromFiles (files ++ [e]) loaded' := by
  unfold readModule at hread
  split at hread
  · cases hread
  · rename_i content hcontent
    split at hread
    · cases hread
    · cases hread
      intro name bytes hlookup
      by_cases hname : name = e.1
      · subst hname
        rw [AList.lookup_insert, Option.some.injEq] at hlookup
        subst hlookup
        exact ⟨e.2, List.mem_append_right _ (.head _), hcontent⟩
      · rw [AList.lookup_insert_ne hname] at hlookup
        obtain ⟨path, hpath, hbytes⟩ := h name bytes hlookup
        exact ⟨path, List.mem_append_left _ hpath, hbytes⟩

theorem loadModulesFromFs_ok {names : AList fun _ : String => Path}
    {modules : AList fun _ : String => ModuleBytes}
    (h : host.loadModulesFromFs names = .ok modules) : host.FromFiles names.entries modules :=
  foldlM_invariant (I := host.FromFiles) (d := []) (fun _ _ _ _ => fromFiles_readModule)
    (fun name bytes hlookup => by cases hlookup) h

theorem modulePaths_ok {config : MarineConfig Path} {paths : AList fun _ : String => Path}
    (h : host.modulePaths config = .ok paths) (hnodup : (config.modulesConfig.map
      ModuleDescriptor.importName).Nodup) {m : ModuleDescriptor Path}
    (hm : m ∈ config.modulesConfig) {path : Path} (hpath : paths.lookup m.importName = some path) :
    m.getPath host.fs config.modulesDir = .ok path := by
  obtain ⟨pairs, hpairs, h⟩ := bind_eq_ok_iff.mp h
  cases h
  have hall := mapM_eq_ok_iff.mp hpairs
  have hkeys : pairs.map Prod.fst = config.modulesConfig.map ModuleDescriptor.importName := by
    clear h hpairs hpath hm hnodup
    generalize config.modulesConfig = descriptors at hall
    induction hall with
    | nil => rfl
    | cons hhead htail ih =>
      obtain ⟨path, -, h⟩ := bind_eq_ok_iff.mp hhead
      cases h
      rw [List.map_cons, List.map_cons, ih]
  rw [Maps.lookup_collect_eq_some_iff (hkeys ▸ hnodup)] at hpath
  obtain ⟨m', hm', hpath'⟩ := exists_left_of_mem hall hpath
  obtain ⟨path', hget, h⟩ := bind_eq_ok_iff.mp hpath'
  obtain ⟨hname, rfl⟩ := Prod.mk.inj (Except.ok.inj h)
  rwa [List.inj_on_of_nodup_map hnodup hm' hm hname] at hget

/-! ## Missing modules -/

/-- What `remove` has left of the provided modules. -/
def remaining (modules : AList fun _ : String => ModuleBytes)
    (done : List (ModuleDescriptor Path)) : AList fun _ : String => ModuleBytes :=
  done.foldl (fun modules m => modules.erase m.importName) modules

theorem checkForOom_ne_instantiationError (core : MarineCore) (e : MError) {name : String}
    {dir : Option String} {provided : List String} :
    checkForOomAndConvertError core e ≠ some (.instantiationError name dir provided) := by
  intro h
  obtain ⟨stats, -, h⟩ := Option.bind_eq_some_iff.mp h
  split at h
  · cases h
  · split at h
    · cases h
    · split at h <;> cases h

theorem loadDescribed_ne_instantiationError {descriptor : ModuleDescriptor Path}
    {bytes : ModuleBytes} {name : String} {dir : Option String} {provided : List String} :
    host.loadDescribed core descriptor bytes ≠
      some (.error (.instantiationError name dir provided)) := by
  have hfinish (run : EngineRun MModule) : finishLoad core descriptor.importName run ≠
      some (.error (.instantiationError name dir provided)) := by
    intro h
    unfold finishLoad at h
    split at h
    · cases h
    · obtain ⟨e, hconvert, heq⟩ := Option.map_eq_some_iff.mp h
      cases heq
      exact checkForOom_ne_instantiationError _ _ hconvert
  obtain ⟨config, hconfig, -⟩ := makeMarineConfig_imports host.log host.fs.display
    host.callParameters descriptor.importName descriptor.config host.loggerFilter
  have hmake : host.makeConfig descriptor = .ok config := hconfig
  intro h
  simp only [loadDescribed, hmake] at h
  obtain ⟨run, -, h⟩ := Option.bind_eq_some_iff.mp h
  exact hfinish run h

theorem loadModules_cons_ok {descriptor : ModuleDescriptor Path}
    {descriptors : List (ModuleDescriptor Path)} {modules : AList fun _ : String => ModuleBytes}
    {bytes : ModuleBytes} (hbytes : modules.lookup descriptor.importName = some bytes)
    (h : host.loadDescribed core descriptor bytes = some (.ok core')) :
    host.loadModules modulesDir (descriptor :: descriptors) modules core =
      host.loadModules modulesDir descriptors (modules.erase descriptor.importName) core' := by
  rw [loadModules]
  simp only [hbytes, h]

theorem loadModules_cons_failed {descriptor : ModuleDescriptor Path}
    {descriptors : List (ModuleDescriptor Path)} {modules : AList fun _ : String => ModuleBytes}
    {bytes : ModuleBytes} (hbytes : modules.lookup descriptor.importName = some bytes)
    (h : ∀ next, host.loadDescribed core descriptor bytes ≠ some (.ok next)) :
    host.loadModules modulesDir (descriptor :: descriptors) modules core =
      host.loadDescribed core descriptor bytes := by
  rw [loadModules]
  simp only [hbytes]

theorem loadModules_missing_iff {descriptors : List (ModuleDescriptor Path)}
    {modules : AList fun _ : String => ModuleBytes} {name : String} {dir : Option String}
    {provided : List String} :
    host.loadModules modulesDir descriptors modules core =
        some (.error (.instantiationError name dir provided)) ↔
      dir = modulesDir.map host.fs.display ∧ ∃ done m rest core',
        descriptors = done ++ m :: rest ∧ name = m.importName ∧
        host.loadModules modulesDir done modules core = some (.ok core') ∧
        (m.importName ∉ modules ∨ m.importName ∈ done.map ModuleDescriptor.importName) ∧
        provided = (remaining modules done).keys := by
  induction descriptors generalizing modules core with
  | nil =>
    constructor
    · intro h
      cases h
    · rintro ⟨-, done, m, rest, core', heq, -⟩
      simp at heq
  | cons descriptor descriptors ih =>
    cases hbytes : modules.lookup descriptor.importName with
    | none =>
      rw [loadModules]
      simp only [hbytes]
      constructor
      · intro h
        cases h
        exact ⟨rfl, [], descriptor, descriptors, core, rfl, rfl, rfl,
          .inl (AList.lookup_eq_none.mp hbytes), rfl⟩
      · rintro ⟨rfl, done, m, rest, core', heq, rfl, hdone, -, rfl⟩
        cases done with
        | nil =>
          cases heq
          rfl
        | cons first done =>
          obtain ⟨rfl, -⟩ := List.cons.inj heq
          rw [loadModules] at hdone
          simp only [hbytes] at hdone
          cases hdone
    | some bytes =>
      have hmem : descriptor.importName ∈ modules := AList.lookup_isSome.mp (by rw [hbytes]; rfl)
      by_cases hload : ∃ next, host.loadDescribed core descriptor bytes = some (.ok next)
      · obtain ⟨next, hload⟩ := hload
        rw [loadModules_cons_ok hbytes hload, ih]
        refine and_congr_right fun _ => ?_
        constructor
        · rintro ⟨done, m, rest, core', rfl, rfl, hdone, hused, rfl⟩
          refine ⟨descriptor :: done, m, rest, core', rfl, rfl, ?_, ?_, rfl⟩
          · rw [loadModules_cons_ok hbytes hload, hdone]
          · rw [AList.mem_erase] at hused
            rw [List.map_cons, List.mem_cons]
            tauto
        · rintro ⟨done, m, rest, core', heq, rfl, hdone, hused, rfl⟩
          cases done with
          | nil =>
            cases heq
            exact absurd hused (by simp [hmem])
          | cons first done =>
            obtain ⟨rfl, rfl⟩ := List.cons.inj heq
            rw [loadModules_cons_ok hbytes hload] at hdone
            refine ⟨done, m, rest, core', rfl, rfl, hdone, ?_, rfl⟩
            rw [List.map_cons, List.mem_cons] at hused
            rw [AList.mem_erase]
            tauto
      · have hfailed : ∀ next, host.loadDescribed core descriptor bytes ≠ some (.ok next) :=
          fun next hnext => hload ⟨next, hnext⟩
        rw [loadModules_cons_failed hbytes hfailed]
        constructor
        · intro h
          exact absurd h loadDescribed_ne_instantiationError
        · rintro ⟨-, done, m, rest, core', heq, rfl, hdone, hused, -⟩
          cases done with
          | nil =>
            cases heq
            exact absurd hused (by simp [hmem])
          | cons first done =>
            obtain ⟨rfl, -⟩ := List.cons.inj heq
            rw [loadModules_cons_failed hbytes hfailed] at hdone
            exact absurd hdone (hfailed core')

/-- **A module is reported as missing** when all before it are loaded and its bytes were
not provided, or were used by a module of the same name.  The names in the report are
those of the modules that are left, in the order of a hash map. -/
theorem startup_missing_iff {descriptors : List (ModuleDescriptor Path)}
    {modules : AList fun _ : String => ModuleBytes} {name : String} {dir : Option String}
    {provided : List String} :
    (∃ names, names.Perm provided ∧ host.loadModules modulesDir descriptors modules core =
        some (.error (.instantiationError name dir names))) ↔
      dir = modulesDir.map host.fs.display ∧ ∃ done m rest core',
        descriptors = done ++ m :: rest ∧ name = m.importName ∧
        host.loadModules modulesDir done modules core = some (.ok core') ∧
        (m.importName ∉ modules ∨ m.importName ∈ done.map ModuleDescriptor.importName) ∧
        (remaining modules done).keys.Perm provided := by
  simp only [loadModules_missing_iff]
  constructor
  · rintro ⟨_, hperm, hdir, done, m, rest, core', heq, hname, hdone, hused, rfl⟩
    exact ⟨hdir, done, m, rest, core', heq, hname, hdone, hused, hperm⟩
  · rintro ⟨hdir, done, m, rest, core', heq, hname, hdone, hused, hperm⟩
    exact ⟨_, hperm, hdir, done, m, rest, core', heq, hname, hdone, hused, rfl⟩

end Host

open Host

/-! ## Started instances -/

/-- What a started instance consists of. -/
structure StartedFrom (host : Host Path) (config : MarineConfig Path) (core : MarineCore)
    (ls : List (LoadedModule Path)) : Prop where
  descriptors : ls.map LoadedModule.descriptor = config.modulesConfig
  distinct : (ls.map LoadedModule.name).Nodup
  registered : ∀ name module, core.modules.lookup name = some module ↔
    ∃ l ∈ ls, l.name = name ∧ l.module = module
  made : ∀ l ∈ ls, l.By host
  fromFiles : ∀ l ∈ ls, ∃ path, l.descriptor.getPath host.fs config.modulesDir = .ok path ∧
    host.fs.read path = .ok l.bytes
  imports : ∀ before l after, ls = before ++ l :: after → ∀ it,
    (host.moduleRun l.before l.name l.bytes l.config).extractIt = .ok it →
    ∀ i ∈ adapterImports (MITInterfaces.new it),
      ∃ e ∈ before, e.name = i.nameSpace ∧ i.name ∈ e.module.exportFuncs

theorem withConfig_ok {host : Host Path} {config : MarineConfig Path} {marine : MarineInstance}
    (h : host.withConfig config = some (.ok marine)) :
    ∃ ls, StartedFrom host config marine.core ls := by
  unfold withConfig at h
  split at h
  · cases h
  · rename_i paths hpaths
    unfold withModuleNames at h
    split at h
    · cases h
    · rename_i modules hmodules
      obtain ⟨result, hresult, hmarine⟩ := Option.map_eq_some_iff.mp h
      cases result with
      | error e => cases hmarine
      | ok core =>
        cases hmarine
        obtain ⟨ls, hls, hnodup, hall, hregistered, hbefore⟩ := loadModules_ok hresult
        have hnames : ls.map LoadedModule.name =
            config.modulesConfig.map ModuleDescriptor.importName := by
          rw [← hls, List.map_map]
          rfl
        refine ⟨ls, hls, hnodup, fun name module => ?_, fun l hl => (hall l hl).1, fun l hl => ?_,
          fun before l after heq it hit i hi => ?_⟩
        · have hempty : ¬ (MarineCore.new (.new config.totalMemoryLimit)).modules.lookup name =
              some module := nofun
          rw [MarineInstance.new, hregistered name module, or_iff_right hempty]
        · obtain ⟨path, hpath, hread⟩ :=
            loadModulesFromFs_ok hmodules l.name l.bytes (hall l hl).2.1
          have hdescriptor : l.descriptor ∈ config.modulesConfig := hls ▸ List.mem_map_of_mem hl
          exact ⟨path, modulePaths_ok hpaths (hnames ▸ hnodup) hdescriptor
            (AList.mem_lookup_iff.mpr hpath), hread⟩
        · have hl : l ∈ ls := by
            rw [heq]
            exact List.mem_append_right _ (.head _)
          obtain ⟨target, callable, htarget, hcallable⟩ :=
            newModule_imports (hall l hl).1.created hit hi
          rcases (hbefore before l after heq i.nameSpace target).mp htarget with hold | he
          · cases hold
          · obtain ⟨e, he, hname, rfl⟩ := he
            exact ⟨e, he, hname, AList.lookup_isSome.mp (by rw [hcallable]; rfl)⟩

/-- **A started instance** has exactly the modules of its configuration, in its order,
each made from its file with its own settings; and each module imports only from
modules configured before it, functions that they export. -/
theorem startup_loads {host : Host Path} {toml : TomlMarineConfig Path} {marine : MarineInstance}
    (h : host.withRawConfig toml = some (.ok marine)) :
    ∃ config ls, marineConfigOf host.fs host.mountedBinary toml = .ok config ∧
      StartedFrom host config marine.core ls ∧
      ls.map LoadedModule.name = toml.module.map (·.name) := by
  unfold withRawConfig at h
  split at h
  · cases h
  · rename_i config hconfig
    obtain ⟨ls, hls⟩ := withConfig_ok h
    refine ⟨config, ls, hconfig, hls, ?_⟩
    rw [← importNames_of_toml hconfig, ← hls.descriptors, List.map_map]
    rfl

/-- A host where loading goes smoothly. -/
def smoothHost : Host String where
  fs := textPaths
  mountedBinary := silentBinary
  log := HostImports.lowerCaseLevels
  loggerFilter := .empty
  callParameters _ := noImport
  moduleRun _ name _ _ := smoothRun (if name = "front" then frontSection else greetingSection)
  requests _ _ _ _ := []

def plainModule (name : String) : TomlMarineNamedModuleConfig String :=
  ⟨name, none, none, ⟨none, none, none, none⟩⟩

def frontToml : TomlMarineConfig String where
  modulesDir := some "modules"
  totalMemoryLimit := .infinity
  module := [plainModule "greeting", plainModule "front"]
  default := none
  basePath := "/app"

theorem startup_loads_front : ∃ marine config, ∃ ls : List (LoadedModule String),
    smoothHost.withRawConfig frontToml = some (.ok marine) ∧
    marineConfigOf textPaths silentBinary frontToml = .ok config ∧
    StartedFrom smoothHost config marine.core ls ∧
    ls.map LoadedModule.name = ["greeting", "front"] := by
  have hstarted : ∃ marine, smoothHost.withRawConfig frontToml = some (.ok marine) := ⟨_, rfl⟩
  obtain ⟨marine, hmarine⟩ := hstarted
  obtain ⟨config, ls, hconfig, hls, hnames⟩ := startup_loads hmarine
  exact ⟨marine, config, ls, hmarine, hconfig, hls, hnames⟩

end Marine.Runtime
