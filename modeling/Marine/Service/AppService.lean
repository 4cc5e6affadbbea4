import Marine.Runtime.InterfaceCache
import Marine.Runtime.Startup
import Marine.Service.ServiceInterface

/-!
# Services

`crates/fluence-app-service/src/service.rs`: a service is a Marine instance with a
facade, the last module of its configuration, or the module without a name.  Before its
modules are loaded they get the variables of the service, and their directories are
resolved against its working directory, where absolute ones stay as they are, and created.

* `service_environment`: what each module of a started service runs with.
* `service_interface`: in every run, when the service can describe itself, and that the
  description stays.
-/

namespace Marine.Service

open Marine.Config Marine.Runtime Fallible

variable {Path JValue : Type}

inductive AppServiceError (Path : Type)
  | ioError (text : String)
  | marineError (e : MarineError)
  | createDir (err : String) (path : Path)
  | configParseError (message : String)

inductive CreateDirError
  | alreadyExists
  | other (err : String)

structure ServiceHost (Path : Type) extends Host Path where
  currentDir : Except String Path
  createDirAll : Path → Except CreateDirError Unit

structure AppServiceConfig (Path : Type) where
  serviceWorkingDir : Path
  marineConfig : MarineConfig Path

structure TomlAppServiceConfig (Path : Type) where
  serviceWorkingDir : Option String
  tomlMarineConfig : TomlMarineConfig Path

structure AppService where
  marine : MarineInstance
  facadeModuleName : String

def serviceIdEnvName : String := "service_id"

def emptyConfigMessage : String := "config should contain at least one module"

namespace ServiceHost

variable (host : ServiceHost Path)

def appServiceConfigOf (toml : TomlAppServiceConfig Path) :
    Except (AppServiceError Path) (AppServiceConfig Path) := do
  let marineConfig ←
    (marineConfigOf host.fs host.mountedBinary toml.tomlMarineConfig).mapError .marineError
  let serviceWorkingDir ← toml.serviceWorkingDir.elim (host.currentDir.mapError .ioError)
    fun dir => pure (host.fs.ofText dir)
  return ⟨serviceWorkingDir, marineConfig⟩

def create (dir : Path) : Except (AppServiceError Path) Unit :=
  match host.createDirAll dir with
  | .error .alreadyExists => .ok ()
  | .error (.other err) => .error (.createDir err dir)
  | .ok () => .ok ()

def createWasiDirs (config : MarineModuleConfig Path) : Except (AppServiceError Path) Unit :=
  match config.wasi with
  | some wasi => wasi.mappedDirs.entries.forM fun e => host.create e.2
  | none => .ok ()

/-- What `set_env_and_dirs` does with one module. -/
def prepareModule (workingDir : Path) (envs : AList fun _ : String => String)
    (m : ModuleDescriptor Path) : Except (AppServiceError Path) (ModuleDescriptor Path) := do
  let config := (m.config.extendWasiEnvs envs).rootWasiFilesAt host.fs workingDir
  host.createWasiDirs config
  return { m with config := config }

def setEnvAndDirs (config : AppServiceConfig Path) (serviceId : String)
    (envs : AList fun _ : String => String) :
    Except (AppServiceError Path) (MarineConfig Path) := do
  let envs := envs.insert serviceIdEnvName serviceId
  let modulesConfig ←
    config.marineConfig.modulesConfig.mapM (host.prepareModule config.serviceWorkingDir envs)
  return { config.marineConfig with modulesConfig := modulesConfig }

/-- The common end of the constructors. -/
def start (facadeModuleName : String) (config : AppServiceConfig Path) (serviceId : String)
    (envs : AList fun _ : String => String) :
    Option (Except (AppServiceError Path) AppService) :=
  match host.setEnvAndDirs config serviceId envs with
  | .error e => some (.error e)
  | .ok marineConfig => (host.withConfig marineConfig).map fun marine =>
      (marine.mapError AppServiceError.marineError).map (⟨·, facadeModuleName⟩)

def newWithBackend (config : AppServiceConfig Path) (serviceId : String)
    (envs : AList fun _ : String => String) : Option (Except (AppServiceError Path) AppService) :=
  match config.marineConfig.modulesConfig.getLast? with
  | none => some (.error (.configParseError emptyConfigMessage))
  | some facade => host.start facade.importName config serviceId envs

def newWithEmptyFacade (config : AppServiceConfig Path) (serviceId : String)
    (envs : AList fun _ : String => String) : Option (Except (AppServiceError Path) AppService) :=
  host.start "" config serviceId envs

/-- `Marine::load_module`. -/
def loadModule (marine : MarineInstance) (name : String) (wasmBytes : ModuleBytes)
    (config : Option (MarineModuleConfig Path)) :
    Option (Except MarineError Unit × MarineInstance) :=
  match makeMarineConfig host.log host.fs.display host.callParameters name config
      host.loggerFilter with
  | .error e => some (.error e, marine)
  | .ok config => (host.newModuleRun marine.core name wasmBytes config).bind
      (marine.loadModule name (.ok ()))

end ServiceHost

/-! ## Operations -/

/-- `Marine::get_interface`. -/
def marineInterface (marine : MarineInstance) : AList fun _ : String => MModuleInterface :=
  Maps.mapValues MarineCore.getModuleInterface marine.core.modules

/-- `none` is a panic. -/
def AppService.getInterface (service : AppService) : Option ServiceInterface :=
  ((marineInterface service.marine).lookup service.facadeModuleName).bind fun facade =>
    (intoServiceInterface facade).toOption

/-- An operation on a service, with what the engine does in a call. -/
inductive ServiceOp (Path JValue : Type)
  | call (funcName : String) (arguments : JValue) (run : List IValue → EngineRun (List IValue))
  | callWithIvalues (funcName : String) (arguments : List IValue)
      (run : List IValue → EngineRun (List IValue))
  | callModule (moduleName funcName : String) (arguments : JValue)
      (run : List IValue → EngineRun (List IValue))
  | loadModule (name : String) (wasmBytes : ModuleBytes) (config : Option (MarineModuleConfig Path))
  | unloadModule (moduleName : String)

namespace AppService

/-- A result or an error, and the service after it; `none` is a panic. -/
abbrev Outcome (Path α : Type) := Option (Except (AppServiceError Path) α × AppService)

/-- What an operation of the instance means for the service. -/
def withMarine {α : Type} (service : AppService)
    (r : Option (Except MarineError α × MarineInstance)) : Outcome Path α :=
  r.map fun r => (r.1.mapError .marineError, { service with marine := r.2 })

variable (host : ServiceHost Path) (serde : ItJsonSerde JValue) (service : AppService)

def callAsync (funcName : String) (arguments : JValue)
    (run : List IValue → EngineRun (List IValue)) : Outcome Path JValue :=
  service.withMarine <|
    service.marine.callWithJsonAsync serde service.facadeModuleName funcName arguments run

def callWithIvaluesAsync (funcName : String) (arguments : List IValue)
    (run : List IValue → EngineRun (List IValue)) : Outcome Path (List IValue) :=
  service.withMarine <|
    service.marine.callWithIvaluesAsync service.facadeModuleName funcName arguments run

def callModule (moduleName funcName : String) (arguments : JValue)
    (run : List IValue → EngineRun (List IValue)) : Outcome Path JValue :=
  service.withMarine (service.marine.callWithJsonAsync serde moduleName funcName arguments run)

def loadModule (name : String) (wasmBytes : ModuleBytes)
    (config : Option (MarineModuleConfig Path)) : Outcome Path Unit :=
  service.withMarine (host.loadModule service.marine name wasmBytes config)

def unloadModule (moduleName : String) : Outcome Path Unit :=
  service.withMarine (some (service.marine.unloadModule moduleName))

/-- The service after an operation, whether it has failed or not. -/
def step (service : AppService) : ServiceOp Path JValue → Option AppService
  | .call funcName arguments run =>
    (callAsync serde service funcName arguments run : Outcome Path JValue).map Prod.snd
  | .callWithIvalues funcName arguments run =>
    (callWithIvaluesAsync service funcName arguments run : Outcome Path (List IValue)).map Prod.snd
  | .callModule moduleName funcName arguments run =>
    (callModule serde service moduleName funcName arguments run : Outcome Path JValue).map Prod.snd
  | .loadModule name wasmBytes config =>
    (loadModule host service name wasmBytes config).map Prod.snd
  | .unloadModule moduleName => (unloadModule service moduleName : Outcome Path Unit).map Prod.snd

end AppService

/-! ## What a module runs with -/

/-- A loaded module and its descriptor in the configuration of the service. -/
structure Prepared (host : ServiceHost Path) (workingDir : Path) (serviceId : String)
    (envs : AList fun _ : String => String) (m : ModuleDescriptor Path)
    (l : Host.LoadedModule Path) : Prop where
  name : l.name = m.importName
  /-- Directories are resolved against the working directory. -/
  dirs : ∀ name, l.config.wasiParameters.mappedDirs.lookup name =
    (m.config.wasiDirs.lookup name).map (host.fs.join workingDir)
  /-- Absolute ones are kept. -/
  absolute : ∀ name dir, m.config.wasiDirs.lookup name = some dir →
    host.fs.isAbsolute dir = true → l.config.wasiParameters.mappedDirs.lookup name = some dir
  /-- They exist. -/
  created : ∀ name dir, m.config.wasiDirs.lookup name = some dir →
    host.create (host.fs.join workingDir dir) = .ok ()
  /-- Variables of directories come first, then the service. -/
  envs : ∀ name, l.config.wasiParameters.envs.lookup name =
    ((m.config.wasiDirs.lookup name).map fun dir =>
      host.fs.display (host.fs.join workingDir dir)).or
      (if name = serviceIdEnvName then some serviceId
        else (envs.lookup name).or (m.config.wasiEnvs.lookup name))

namespace ServiceHost

variable {host : ServiceHost Path} {config : AppServiceConfig Path} {serviceId : String}
  {envs : AList fun _ : String => String}

theorem createWasiDirs_ok {config : MarineModuleConfig Path}
    (h : host.createWasiDirs config = .ok ()) {name : String} {dir : Path}
    (hdir : config.wasiDirs.lookup name = some dir) : host.create dir = .ok () := by
  unfold createWasiDirs at h
  unfold MarineModuleConfig.wasiDirs at hdir
  cases hwasi : config.wasi with
  | none =>
    rw [hwasi] at hdir
    cases hdir
  | some wasi =>
    rw [hwasi] at h hdir
    exact forM_eq_ok_iff.mp h ⟨name, dir⟩ (AList.mem_lookup_iff.mp hdir)

theorem prepareModule_ok {workingDir : Path} {m prepared : ModuleDescriptor Path}
    (h : host.prepareModule workingDir envs m = .ok prepared) :
    prepared.importName = m.importName ∧
      prepared.config = (m.config.extendWasiEnvs envs).rootWasiFilesAt host.fs workingDir ∧
      ∀ name dir, m.config.wasiDirs.lookup name = some dir →
        host.create (host.fs.join workingDir dir) = .ok () := by
  obtain ⟨⟨⟩, hdirs, h⟩ := bind_eq_ok_iff.mp h
  cases h
  refine ⟨rfl, rfl, fun name dir hdir => ?_⟩
  have hrooted : ((m.config.extendWasiEnvs envs).rootWasiFilesAt host.fs
      workingDir).wasiDirs.lookup name = some (host.fs.join workingDir dir) := by
    rw [(prepared_wasi host.fs m.config envs workingDir).2.2, hdir, Option.map_some]
  exact createWasiDirs_ok hdirs hrooted

/-- **Spec of the constructors.** -/
theorem start_ok {facadeModuleName : String} {service : AppService}
    (h : host.start facadeModuleName config serviceId envs = some (.ok service)) :
    service.facadeModuleName = facadeModuleName ∧ ∃ prepared,
      List.Forall₂ (fun m m' => host.prepareModule config.serviceWorkingDir
        (envs.insert serviceIdEnvName serviceId) m = .ok m')
        config.marineConfig.modulesConfig prepared ∧
      ∃ ls, StartedFrom host.toHost { config.marineConfig with modulesConfig := prepared }
        service.marine.core ls := by
  unfold start at h
  split at h
  · cases h
  · rename_i marineConfig hprepared
    obtain ⟨result, hresult, hservice⟩ := Option.map_eq_some_iff.mp h
    cases result with
    | error e => cases hservice
    | ok marine =>
      cases hservice
      obtain ⟨modulesConfig, hall, hprepared⟩ := bind_eq_ok_iff.mp hprepared
      cases hprepared
      exact ⟨rfl, modulesConfig, mapM_eq_ok_iff.mp hall, withConfig_ok hresult⟩

end ServiceHost

/-- A service as one of the constructors makes it. -/
inductive Started (host : ServiceHost Path) (config : AppServiceConfig Path) (serviceId : String)
    (envs : AList fun _ : String => String) (service : AppService) : Prop
  | withFacade (h : host.newWithBackend config serviceId envs = some (.ok service))
  | withoutFacade (h : host.newWithEmptyFacade config serviceId envs = some (.ok service))

section Started

variable {host : ServiceHost Path} {config : AppServiceConfig Path} {serviceId : String}
  {envs : AList fun _ : String => String} {service : AppService}

theorem Started.start (h : Started host config serviceId envs service) :
    ∃ facadeModuleName, host.start facadeModuleName config serviceId envs = some (.ok service) := by
  cases h with
  | withFacade h =>
    unfold ServiceHost.newWithBackend at h
    split at h
    · cases h
    · exact ⟨_, h⟩
  | withoutFacade h => exact ⟨"", h⟩

/-- The facade of a service from a TOML file is its last module. -/
theorem facade_of_toml {toml : TomlAppServiceConfig Path}
    (hconfig : host.appServiceConfigOf toml = .ok config)
    (h : host.newWithBackend config serviceId envs = some (.ok service)) :
    (toml.tomlMarineConfig.module.map (·.name)).getLast? = some service.facadeModuleName := by
  obtain ⟨marineConfig, hmarine, hconfig⟩ := bind_eq_ok_iff.mp hconfig
  obtain ⟨serviceWorkingDir, -, hconfig⟩ := bind_eq_ok_iff.mp hconfig
  cases hconfig
  unfold ServiceHost.newWithBackend at h
  split at h
  · cases h
  · rename_i facade hfacade
    obtain ⟨hname, -⟩ := ServiceHost.start_ok h
    rw [← importNames_of_toml (mapError_eq_ok_iff.mp hmarine), List.getLast?_map, hfacade, hname]
    rfl

/-- **What the modules of a service run with.**  A started service has the modules of its
configuration.  Each has its directories resolved against the working directory of the
service, an absolute one as it is, and they were created; its variables are, in this
order, its directories, the service id, the variables of the service and its own. -/
theorem service_environment (h : Started host config serviceId envs service) :
    ∃ ls, List.Forall₂ (Prepared host config.serviceWorkingDir serviceId envs)
        config.marineConfig.modulesConfig ls ∧
      ∀ name module, service.marine.core.modules.lookup name = some module ↔
        ∃ l ∈ ls, l.name = name ∧ l.module = module := by
  obtain ⟨facadeModuleName, hstart⟩ := h.start
  obtain ⟨-, prepared, hprepared, ls, hls⟩ := ServiceHost.start_ok hstart
  refine ⟨ls, ?_, hls.registered⟩
  have hdescriptors : ls.map Host.LoadedModule.descriptor = prepared := hls.descriptors
  rw [← hdescriptors, List.forall₂_map_right_iff] at hprepared
  refine ((List.forall₂_and_left _ _).mpr ⟨hls.made, hprepared.flip⟩).flip.imp ?_
  rintro m l ⟨hl, hm⟩
  obtain ⟨hname, hconfig, hcreated⟩ := ServiceHost.prepareModule_ok hm
  obtain ⟨hwasi, henvs, hdirs⟩ := prepared_wasi host.fs m.config
    (envs.insert serviceIdEnvName serviceId) config.serviceWorkingDir
  have hbuilt := hl.configured
  rw [Host.makeConfig, hconfig] at hbuilt
  obtain ⟨hmapped, hvariables⟩ := makeMarineConfig_wasi host.log host.fs.display
    host.callParameters l.descriptor.importName host.loggerFilter hbuilt hwasi
  refine ⟨hname, fun name => ?_, fun name dir hdir habsolute => ?_, hcreated, fun name => ?_⟩
  · rw [hmapped, hdirs]
  · rw [hmapped, hdirs, hdir, Option.map_some, host.fs.join_absolute _ _ habsolute]
  · rw [hvariables, hdirs, henvs, Option.map_map]
    congr 1
    by_cases hid : name = serviceIdEnvName
    · subst hid
      rw [AList.lookup_insert, if_pos rfl, Option.some_or]
    · rw [AList.lookup_insert_ne hid, if_neg hid]

end Started

/-- A host where directories exist already. -/
def readyHost : ServiceHost String where
  toHost := smoothHost
  currentDir := .ok "/"
  createDirAll _ := .error .alreadyExists

/-- A module with a directory `tmp`, an absolute one, and a service id of its own. -/
def moduleWithTmp (name : String) : ModuleDescriptor String where
  loadFrom := none
  fileName := name ++ ".wasm"
  importName := name
  config := ⟨true, ∅, some ⟨(∅ : AList fun _ : String => String).insert "service_id" "own",
    ((∅ : AList fun _ : String => String).insert "tmp" "data").insert "cache" "/var/cache"⟩, 0⟩

def frontService : AppServiceConfig String where
  serviceWorkingDir := "/service"
  marineConfig := ⟨some "/app", none, [moduleWithTmp "greeting", moduleWithTmp "front"], none⟩

theorem service_environment_front : ∃ service,
    readyHost.newWithBackend frontService "42" ∅ = some (.ok service) ∧
    ∃ l : Host.LoadedModule String,
      service.marine.core.modules.lookup "greeting" = some l.module ∧
      l.config.wasiParameters.mappedDirs.lookup "tmp" = some "/service/data" ∧
      l.config.wasiParameters.mappedDirs.lookup "cache" = some "/var/cache" ∧
      l.config.wasiParameters.envs.lookup "service_id" = some "42" := by
  have hstarted : ∃ service, readyHost.newWithBackend frontService "42" ∅ = some (.ok service) :=
    ⟨_, rfl⟩
  obtain ⟨service, hservice⟩ := hstarted
  obtain ⟨ls, hls, hregistered⟩ := service_environment (.withFacade hservice)
  obtain ⟨l, hl, hprepared⟩ := exists_right_of_mem hls (List.mem_cons_self ..)
  refine ⟨service, hservice, l, (hregistered "greeting" l.module).mpr ⟨l, hl, ?_, rfl⟩, ?_, ?_, ?_⟩
  · exact hprepared.name
  · rw [hprepared.dirs]
    decide
  · exact hprepared.absolute "cache" "/var/cache" rfl (by decide)
  · rw [hprepared.envs]
    rfl

/-! ## Runs -/

namespace AppService

/-- The interfaces of all modules can be published. -/
def Described (service : AppService) : Prop :=
  ∀ name module, service.marine.core.modules.lookup name = some module →
    SelfContained (MarineCore.getModuleInterface module)

variable {host : ServiceHost Path} {serde : ItJsonSerde JValue} {service service' : AppService}

theorem loadModule_change {name : String} {wasmBytes : ModuleBytes}
    {config : Option (MarineModuleConfig Path)} {marine marine' : MarineInstance}
    {result : Except MarineError Unit}
    (h : host.loadModule marine name wasmBytes config = some (result, marine')) :
    marine'.core.modules = marine.core.modules ∨
      ∃ run module, Loader.newModule false run name marine.core.modules = .ok module ∧
        name ∉ marine.core.modules ∧
        marine'.core.modules = marine.core.modules.insert name module := by
  unfold ServiceHost.loadModule at h
  split at h
  · cases h
    exact .inl rfl
  · obtain ⟨run, hrun, hload⟩ := Option.bind_eq_some_iff.mp h
    unfold MarineInstance.loadModule MarineCore.loadModule at hload
    cases hmodule : run.result with
    | error e =>
      simp only [hmodule, Option.map_eq_some_iff, Prod.mk.injEq] at hload
      obtain ⟨e, -, -, rfl⟩ := hload
      exact .inl rfl
    | ok module =>
      cases hlookup : marine.core.modules.lookup name with
      | none =>
        simp only [hmodule, hlookup, Option.some.injEq, Prod.mk.injEq] at hload
        obtain ⟨-, rfl⟩ := hload
        exact .inr ⟨_, module, Host.newModuleRun_ok hrun hmodule, AList.lookup_eq_none.mp hlookup,
          rfl⟩
      | some other =>
        simp only [hmodule, hlookup, Option.map_eq_some_iff, Prod.mk.injEq] at hload
        obtain ⟨e, -, -, rfl⟩ := hload
        exact .inl rfl

/-- What an operation does to the registry. -/
inductive Change (service : AppService) (op : ServiceOp Path JValue) (service' : AppService) : Prop
  | same (h : service'.marine.core.modules = service.marine.core.modules)
  | loaded {run : Loader.ModuleRun} {name : String} {module : MModule}
      (made : Loader.newModule false run name service.marine.core.modules = .ok module)
      (free : name ∉ service.marine.core.modules)
      (h : service'.marine.core.modules = service.marine.core.modules.insert name module)
  | unloaded {name : String} (unload : op = .unloadModule name)
      (h : service'.marine.core.modules = service.marine.core.modules.erase name)

theorem withMarine_eq_some {α : Type} {r : Option (Except MarineError α × MarineInstance)}
    (h : (service.withMarine r : Outcome Path α).map Prod.snd = some service') :
    ∃ result marine', r = some (result, marine') ∧
      service' = { service with marine := marine' } := by
  obtain ⟨p, hp, rfl⟩ := Option.map_eq_some_iff.mp h
  obtain ⟨⟨result, marine'⟩, hr, rfl⟩ := Option.map_eq_some_iff.mp hp
  exact ⟨result, marine', hr, rfl⟩

theorem step_change {op : ServiceOp Path JValue} (h : step host serde service op = some service') :
    service'.facadeModuleName = service.facadeModuleName ∧ Change service op service' := by
  cases op with
  | call funcName arguments run =>
    obtain ⟨result, marine', hcall, rfl⟩ := withMarine_eq_some h
    exact ⟨rfl, .same (MarineInstance.callWithJson_state hcall).1⟩
  | callWithIvalues funcName arguments run =>
    obtain ⟨result, marine', hcall, rfl⟩ := withMarine_eq_some h
    exact ⟨rfl, .same (MarineInstance.callCore_state hcall).1⟩
  | callModule moduleName funcName arguments run =>
    obtain ⟨result, marine', hcall, rfl⟩ := withMarine_eq_some h
    exact ⟨rfl, .same (MarineInstance.callWithJson_state hcall).1⟩
  | loadModule name wasmBytes config =>
    obtain ⟨result, marine', hload, rfl⟩ := withMarine_eq_some h
    rcases loadModule_change hload with hsame | ⟨run, module, hmade, hfree, hmodules⟩
    · exact ⟨rfl, .same hsame⟩
    · exact ⟨rfl, .loaded hmade hfree hmodules⟩
  | unloadModule moduleName =>
    have hmarine : (service.withMarine (some (service.marine.unloadModule moduleName)) :
        Outcome Path Unit).map Prod.snd = some service' := h
    obtain ⟨result, marine', hunload, rfl⟩ := withMarine_eq_some hmarine
    have hmodules := (service.marine.unloadModule_state moduleName).2
    have heq : (service.marine.unloadModule moduleName).2 = marine' :=
      congrArg Prod.snd (Option.some.inj hunload)
    rw [heq] at hmodules
    split at hmodules
    · exact ⟨rfl, .unloaded rfl hmodules⟩
    · exact ⟨rfl, .same hmodules⟩

theorem change_described {op : ServiceOp Path JValue} (h : service.Described)
    (hchange : Change service op service') : service'.Described := by
  intro name module hmodule
  cases hchange with
  | same hsame =>
    rw [hsame] at hmodule
    exact h name module hmodule
  | @loaded run added new hmade hfree hinsert =>
    rw [hinsert] at hmodule
    by_cases hname : name = added
    · subst hname
      rw [AList.lookup_insert, Option.some.injEq] at hmodule
      exact hmodule ▸ newModule_selfContained hmade
    · rw [AList.lookup_insert_ne hname] at hmodule
      exact h name module hmodule
  | @unloaded removed hop herase =>
    rw [herase] at hmodule
    by_cases hname : name = removed
    · subst hname
      rw [AList.lookup_erase] at hmodule
      cases hmodule
    · rw [AList.lookup_erase_ne hname] at hmodule
      exact h name module hmodule

/-- A loaded module stays until it is unloaded. -/
theorem change_lookup {op : ServiceOp Path JValue} (hchange : Change service op service')
    {name : String} {module : MModule} (hop : op ≠ .unloadModule name)
    (h : service.marine.core.modules.lookup name = some module) :
    service'.marine.core.modules.lookup name = some module := by
  cases hchange with
  | same hsame => rwa [hsame]
  | @loaded run added new hmade hfree hinsert =>
    have hmem : name ∈ service.marine.core.modules := AList.lookup_isSome.mp (by rw [h]; rfl)
    have hne : name ≠ added := fun heq => hfree (heq ▸ hmem)
    rw [hinsert, AList.lookup_insert_ne hne, h]
  | @unloaded removed hremoved herase =>
    have hne : name ≠ removed := fun heq => hop (heq ▸ hremoved)
    rw [herase, AList.lookup_erase_ne hne, h]

theorem lookup_marineInterface (marine : MarineInstance) (name : String) :
    (marineInterface marine).lookup name =
      (marine.core.modules.lookup name).map MarineCore.getModuleInterface :=
  Maps.lookup_mapValues _ _ _

/-- **When a service can describe itself**: while its facade is loaded. -/
theorem getInterface_isSome_iff (h : service.Described) :
    service.getInterface.isSome ↔ service.facadeModuleName ∈ service.marine.core.modules := by
  rw [getInterface, lookup_marineInterface, ← AList.lookup_isSome]
  cases hmodule : service.marine.core.modules.lookup service.facadeModuleName with
  | none => simp
  | some module =>
    have hok := (intoServiceInterface_isOk_iff _).mpr (h _ _ hmodule)
    obtain ⟨published, hpublished⟩ := isOk_iff_exists.mp hok
    simp [hpublished, Except.toOption]

theorem getInterface_names {published : ServiceInterface}
    (h : service.getInterface = some published) :
    ∃ facade, service.marine.core.modules.lookup service.facadeModuleName = some facade ∧
      published.functionSignatures.map FunctionSignature.name = facade.exportFuncs.keys := by
  obtain ⟨described, hdescribed, hpublished⟩ := Option.bind_eq_some_iff.mp h
  rw [lookup_marineInterface, Option.map_eq_some_iff] at hdescribed
  obtain ⟨facade, hfacade, rfl⟩ := hdescribed
  cases hinto : intoServiceInterface (MarineCore.getModuleInterface facade) with
  | error e =>
    rw [hinto] at hpublished
    cases hpublished
  | ok other =>
    rw [hinto] at hpublished
    cases hpublished
    refine ⟨facade, hfacade, (intoServiceInterface_names hinto).trans ?_⟩
    rw [MarineCore.getModuleInterface, MModule.getExportsSignatures, List.map_map]
    rfl

theorem getInterface_congr (hname : service'.facadeModuleName = service.facadeModuleName)
    (h : service'.marine.core.modules.lookup service.facadeModuleName =
      service.marine.core.modules.lookup service.facadeModuleName) :
    service'.getInterface = service.getInterface := by
  rw [getInterface, getInterface, lookup_marineInterface, lookup_marineInterface, hname, h]

end AppService

section Runs

variable {host : ServiceHost Path} {config : AppServiceConfig Path} {serviceId : String}
  {envs : AList fun _ : String => String} {service service' : AppService}

theorem Started.described (h : Started host config serviceId envs service) : service.Described := by
  obtain ⟨facadeModuleName, hstart⟩ := h.start
  obtain ⟨-, prepared, -, ls, hls⟩ := ServiceHost.start_ok hstart
  intro name module hmodule
  obtain ⟨l, hl, rfl, rfl⟩ := (hls.registered name module).mp hmodule
  exact newModule_selfContained (hls.made l hl).created

theorem facade_loaded (h : host.newWithBackend config serviceId envs = some (.ok service)) :
    service.facadeModuleName ∈ service.marine.core.modules := by
  unfold ServiceHost.newWithBackend at h
  split at h
  · cases h
  · rename_i facade hfacade
    obtain ⟨hname, prepared, hprepared, ls, hls⟩ := ServiceHost.start_ok h
    obtain ⟨m, hm, hprepare⟩ := exists_right_of_mem hprepared (List.mem_of_getLast? hfacade)
    have hdescriptors : ls.map Host.LoadedModule.descriptor = prepared := hls.descriptors
    rw [← hdescriptors] at hm
    obtain ⟨l, hl, rfl⟩ := List.mem_map.mp hm
    have hlookup := (hls.registered l.name l.module).mpr ⟨l, hl, rfl, rfl⟩
    rw [hname, ← (ServiceHost.prepareModule_ok hprepare).1]
    exact AList.lookup_isSome.mp (Option.isSome_iff_exists.mpr ⟨_, hlookup⟩)

/-- **The interface of a service.**  In every state that a started service comes to, the
interface can be read exactly while the facade is loaded, otherwise reading it panics;
it names the functions that the facade exports.  Until the facade is unloaded it is the
interface from the start, and a service with a facade has one there. -/
theorem service_interface {serde : ItJsonSerde JValue}
    (h : Started host config serviceId envs service) {ops : List (ServiceOp Path JValue)}
    (hrun : Runs.run (AppService.step host serde) service ops = some service') :
    (service'.getInterface.isSome ↔
      service.facadeModuleName ∈ service'.marine.core.modules) ∧
    (∀ published, service'.getInterface = some published → ∃ facade,
      service'.marine.core.modules.lookup service.facadeModuleName = some facade ∧
      published.functionSignatures.map FunctionSignature.name = facade.exportFuncs.keys) ∧
    (service.getInterface.isSome → (∀ op ∈ ops, op ≠ .unloadModule service.facadeModuleName) →
      service'.getInterface = service.getInterface) ∧
    (host.newWithBackend config serviceId envs = some (.ok service) →
      service.getInterface.isSome) := by
  have hdescribed := h.described
  have hafter : service'.Described ∧ service'.facadeModuleName = service.facadeModuleName := by
    refine Runs.run_invariant
      (I := fun s => s.Described ∧ s.facadeModuleName = service.facadeModuleName)
      (fun s op hs _ s' hstep => ?_) ⟨hdescribed, rfl⟩ (Runs.along_true service ops) hrun
    obtain ⟨hname, hchange⟩ := AppService.step_change hstep
    exact ⟨AppService.change_described hs.1 hchange, hname.trans hs.2⟩
  refine ⟨?_, fun published hpublished => ?_, fun hsome hkept => ?_, fun hfacade => ?_⟩
  · rw [AppService.getInterface_isSome_iff hafter.1, hafter.2]
  · rw [← hafter.2]
    exact AppService.getInterface_names hpublished
  · rw [AppService.getInterface_isSome_iff hdescribed] at hsome
    obtain ⟨module, hmodule⟩ := Option.isSome_iff_exists.mp (AList.lookup_isSome.mpr hsome)
    have hstays : service'.marine.core.modules.lookup service.facadeModuleName = some module :=
      Runs.run_invariant
        (I := fun s => s.marine.core.modules.lookup service.facadeModuleName = some module)
        (fun s op hs hop s' hstep =>
          AppService.change_lookup (AppService.step_change hstep).2 hop hs)
        hmodule (Runs.along_of_forall hkept service) hrun
    exact AppService.getInterface_congr hafter.2 (hstays.trans hmodule.symm)
  · exact (AppService.getInterface_isSome_iff hdescribed).mpr (facade_loaded hfacade)

end Runs

/-- `greeting` is unloaded and its facade `front` stays. -/
theorem service_interface_front : ∃ service service' : AppService,
    readyHost.newWithBackend frontService "42" ∅ = some (.ok service) ∧
    Runs.run (AppService.step readyHost noArgsSerde) service [.unloadModule "greeting"] =
      some service' ∧
    service'.getInterface = service.getInterface ∧ service.getInterface.isSome := by
  have hstarted : ∃ service service', readyHost.newWithBackend frontService "42" ∅ =
      some (.ok service) ∧ service.facadeModuleName = "front" ∧
      Runs.run (AppService.step readyHost noArgsSerde) service [.unloadModule "greeting"] =
        some service' := ⟨_, _, rfl, rfl, rfl⟩
  obtain ⟨service, service', hservice, hfacade, hrun⟩ := hstarted
  obtain ⟨-, -, hstays, hsome⟩ := service_interface (.withFacade hservice) hrun
  refine ⟨service, service', hservice, hrun, hstays (hsome hservice) fun op hop => ?_,
    hsome hservice⟩
  rw [List.mem_singleton.mp hop, hfacade]
  intro heq
  injection heq with hname
  exact absurd hname (by decide)

end Marine.Service
