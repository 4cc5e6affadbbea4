import Marine.Errors
import Marine.HostImports.Calls
import Marine.HostImports.LoggerFilter
import Marine.Lib.Maps

/-!
# The configuration of a module

`marine/src/config`: from a `MarineModuleConfig` to the `MModuleConfig` that a
module is loaded with.  The level from the log filter is put into the
environment first, and the environment of a WASI section is assigned behind it.

* `lookup_envs`: what the environment holds in the end.
* `logLevelReaches_iff`: the level of the filter arrives exactly when there is
  none, or no WASI section, or the section has it already.
* `lookup_extendWasiEnvs`: a service always has a WASI section.
-/

namespace Marine.Config

open HostImports

inductive HostAPIVersion
  | v0 | v1 | v2 | v3
  deriving DecidableEq, Repr

/-- The closure that logs for a module. -/
structure RawImportCreator where
  loggingMask : Int32
  module : String
  deriving DecidableEq, Repr

/-- A map of maps by version and name. -/
abbrev Imports (α : Type) := AList fun _ : HostAPIVersion => AList fun _ : String => α

/-- `entry(api_version).or_default().insert(name, import)`. -/
def Imports.insertUnder {α : Type} (imports : Imports α) (version : HostAPIVersion) (name : String)
    (value : α) : Imports α :=
  imports.insert version (((imports.lookup version).getD ∅).insert name value)

section Configs

variable (Path : Type)

structure MarineWASIConfig where
  envs : AList fun _ : String => String
  mappedDirs : AList fun _ : String => Path

structure MarineModuleConfig where
  loggerEnabled : Bool
  hostImports : Imports HostImportDescriptor
  wasi : Option (MarineWASIConfig Path)
  loggingMask : Int32

structure WasiParameters where
  args : List String
  envs : AList fun _ : String => String
  mappedDirs : AList fun _ : String => Path

structure MModuleConfig where
  rawImports : Imports RawImportCreator
  hostImports : Imports HostImportDescriptor
  wasiParameters : WasiParameters Path

end Configs

variable {Path : Type}

def MModuleConfig.default : MModuleConfig Path := ⟨∅, ∅, ⟨[], ∅, ∅⟩⟩

namespace MarineModuleConfig

def default : MarineModuleConfig Path := ⟨false, ∅, none, 0⟩

/-- The new variables replace old ones. -/
def extendWasiEnvs (config : MarineModuleConfig Path) (newEnvs : AList fun _ : String => String) :
    MarineModuleConfig Path :=
  match config.wasi with
  | some wasi => { config with wasi := some { wasi with envs := newEnvs ∪ wasi.envs } }
  | none => { config with wasi := some ⟨newEnvs, ∅⟩ }

end MarineModuleConfig

def wasmLogEnvName : String := "WASM_LOG"

/-- The text of a level in the environment. -/
def logLevelStr (log : LogCrate) (levelFilter : LevelFilter) : String :=
  match levelFilter.toLevel with
  | some logLevel => log.levelText logLevel
  | none => "off"

/-! ## The builder -/

namespace MModuleConfigBuilder

def populateLogger (log : LogCrate) (config : MModuleConfig Path) (loggerEnabled : Bool)
    (loggingMask : Int32) (loggerFilter : LoggerFilter) (moduleName : String) :
    MModuleConfig Path :=
  if loggerEnabled then
    let envs := config.wasiParameters.envs
    { config with
      wasiParameters := { config.wasiParameters with
        envs :=
          match loggerFilter.moduleLevel moduleName with
          | some levelFilter => envs.insert wasmLogEnvName (logLevelStr log levelFilter)
          | none => envs }
      rawImports := [HostAPIVersion.v0, .v1, .v2, .v3].foldl
        (fun imports version =>
          imports.insertUnder version "log_utf8_string" ⟨loggingMask, moduleName⟩)
        config.rawImports }
  else config

/-- `callParameters` is the import for the call parameters of a version. -/
def populateHostImports (callParameters : HostAPIVersion → HostImportDescriptor)
    (config : MModuleConfig Path) (hostImports : Imports HostImportDescriptor) :
    MModuleConfig Path :=
  { config with
    hostImports := [HostAPIVersion.v0, .v1, .v2, .v3].foldl
      (fun imports version =>
        imports.insertUnder version "get_call_parameters" (callParameters version))
      hostImports }

/-- The variables for the mapped directories. -/
def dirVariables (toStringLossy : Path → String) (mappedDirs : AList fun _ : String => Path) :
    AList fun _ : String => String :=
  Maps.collect (mappedDirs.entries.map fun e => (e.1, toStringLossy e.2))

def populateWasi (toStringLossy : Path → String) (config : MModuleConfig Path)
    (wasi : Option (MarineWASIConfig Path)) : Except MarineError (MModuleConfig Path) :=
  match wasi with
  | none => .ok config
  | some wasi => .ok { config with
      wasiParameters := { config.wasiParameters with
        envs := dirVariables toStringLossy wasi.mappedDirs ∪ wasi.envs
        mappedDirs := wasi.mappedDirs } }

def build (log : LogCrate) (toStringLossy : Path → String)
    (callParameters : HostAPIVersion → HostImportDescriptor) (config : MModuleConfig Path)
    (moduleName : String) (marineModuleConfig : Option (MarineModuleConfig Path))
    (loggerFilter : LoggerFilter) : Except MarineError (MModuleConfig Path) :=
  match marineModuleConfig with
  | none => .ok config
  | some source =>
    let config := populateLogger log config source.loggerEnabled source.loggingMask loggerFilter
      moduleName
    let config := populateHostImports callParameters config source.hostImports
    populateWasi toStringLossy config source.wasi

end MModuleConfigBuilder

def makeMarineConfig (log : LogCrate) (toStringLossy : Path → String)
    (callParameters : HostAPIVersion → HostImportDescriptor) (moduleName : String)
    (marineModuleConfig : Option (MarineModuleConfig Path)) (loggerFilter : LoggerFilter) :
    Except MarineError (MModuleConfig Path) :=
  MModuleConfigBuilder.build log toStringLossy callParameters .default moduleName
    marineModuleConfig loggerFilter

/-! ## The environment in the end -/

section Environment

variable (log : LogCrate) (toStringLossy : Path → String)
  (callParameters : HostAPIVersion → HostImportDescriptor) (moduleName : String)
  (source : MarineModuleConfig Path) (loggerFilter : LoggerFilter)

theorem notMem_dirVariables {mappedDirs : AList fun _ : String => Path} {name : String}
    (h : name ∉ mappedDirs) :
    name ∉ MModuleConfigBuilder.dirVariables toStringLossy mappedDirs := by
  rw [MModuleConfigBuilder.dirVariables, ← AList.lookup_eq_none, Maps.lookup_collect,
    List.getLast?_eq_none_iff]
  apply List.eq_nil_iff_forall_not_mem.mpr
  intro text htext
  obtain ⟨e, he, heq⟩ := List.mem_map.mp (Maps.mem_valuesOf.mp htext)
  cases heq
  exact h (AList.mem_keys.mpr (List.mem_map_of_mem he))

/-- What the configuration itself says about the level. -/
def configuredLevel : Option String :=
  source.wasi.bind fun wasi => wasi.envs.lookup wasmLogEnvName

/-- The text of the level from the filter. -/
def filterLevel : Option String :=
  (loggerFilter.moduleLevel moduleName).map (logLevelStr log)

/-- No directory is mapped under the name of the variable. -/
def NoAlias : Prop := ∀ wasi, source.wasi = some wasi → wasmLogEnvName ∉ wasi.mappedDirs

/-- **Spec of `populate_logger`.** -/
theorem lookup_populateLogger (config : MModuleConfig Path) (loggingMask : Int32) :
    (MModuleConfigBuilder.populateLogger log config true loggingMask loggerFilter
      moduleName).wasiParameters.envs.lookup wasmLogEnvName =
        (filterLevel log moduleName loggerFilter).or
          (config.wasiParameters.envs.lookup wasmLogEnvName) := by
  unfold MModuleConfigBuilder.populateLogger filterLevel
  cases loggerFilter.moduleLevel moduleName with
  | none => simp
  | some level => simp

/-- **Spec of `populate_wasi`.**  The variables of a section replace all that
were there. -/
theorem lookup_populateWasi (config : MModuleConfig Path) (halias : NoAlias source) :
    ∃ built, MModuleConfigBuilder.populateWasi toStringLossy config source.wasi = .ok built ∧
      built.wasiParameters.envs.lookup wasmLogEnvName =
        if source.wasi.isSome then configuredLevel source
        else config.wasiParameters.envs.lookup wasmLogEnvName := by
  unfold MModuleConfigBuilder.populateWasi configuredLevel
  cases hwasi : source.wasi with
  | none => exact ⟨config, rfl, rfl⟩
  | some wasi =>
    refine ⟨_, rfl, ?_⟩
    have hdirs := notMem_dirVariables toStringLossy (halias wasi hwasi)
    simp [AList.lookup_union_right hdirs]

/-- **Spec of `make_marine_config`.**  A WASI section decides alone. -/
theorem lookup_envs (henabled : source.loggerEnabled = true) (halias : NoAlias source) :
    ∃ built, makeMarineConfig log toStringLossy callParameters moduleName (some source)
        loggerFilter = .ok built ∧
      built.wasiParameters.envs.lookup wasmLogEnvName =
        if source.wasi.isSome then configuredLevel source
        else filterLevel log moduleName loggerFilter := by
  have hlogger := lookup_populateLogger log moduleName loggerFilter
    (MModuleConfig.default : MModuleConfig Path) source.loggingMask
  obtain ⟨built, hbuilt, hlookup⟩ := lookup_populateWasi toStringLossy source
    (MModuleConfigBuilder.populateHostImports callParameters
      (MModuleConfigBuilder.populateLogger log .default source.loggerEnabled source.loggingMask
        loggerFilter moduleName) source.hostImports) halias
  refine ⟨built, hbuilt, ?_⟩
  rw [hlookup, henabled]
  simp only [MModuleConfigBuilder.populateHostImports, hlogger]
  simp [MModuleConfig.default]

/-- The level of the filter is in the environment of the module, and without one
the configured level stays. -/
def LogLevelReaches : Prop :=
  ∃ built, makeMarineConfig log toStringLossy callParameters moduleName (some source)
      loggerFilter = .ok built ∧
    built.wasiParameters.envs.lookup wasmLogEnvName =
      (filterLevel log moduleName loggerFilter).or (configuredLevel source)

/-- **The level reaches the module** exactly when the filter has none for it,
there is no WASI section, or the section has that level already. -/
theorem logLevelReaches_iff (henabled : source.loggerEnabled = true) (halias : NoAlias source) :
    LogLevelReaches log toStringLossy callParameters moduleName source loggerFilter ↔
      ∀ level, loggerFilter.moduleLevel moduleName = some level →
        ∀ wasi, source.wasi = some wasi →
          wasi.envs.lookup wasmLogEnvName = some (logLevelStr log level) := by
  obtain ⟨built, hbuilt, hlookup⟩ := lookup_envs log toStringLossy callParameters moduleName source
    loggerFilter henabled halias
  have hreaches : LogLevelReaches log toStringLossy callParameters moduleName source loggerFilter ↔
      (if source.wasi.isSome then configuredLevel source
        else filterLevel log moduleName loggerFilter) =
        (filterLevel log moduleName loggerFilter).or (configuredLevel source) := by
    rw [← hlookup]
    constructor
    · rintro ⟨built', hbuilt', hlevel⟩
      cases hbuilt.symm.trans hbuilt'
      exact hlevel
    · intro hlevel
      exact ⟨built, hbuilt, hlevel⟩
  rw [hreaches]
  unfold filterLevel configuredLevel
  cases hwasi : source.wasi with
  | none => simp
  | some wasi =>
    cases hlevel : loggerFilter.moduleLevel moduleName with
    | none => simp
    | some level => simp

/-- A service extends the configuration of each of its modules, which gives all
of them a WASI section. -/
theorem configuredLevel_extendWasiEnvs (newEnvs : AList fun _ : String => String) :
    (source.extendWasiEnvs newEnvs).wasi.isSome ∧
      configuredLevel (source.extendWasiEnvs newEnvs) =
        (newEnvs.lookup wasmLogEnvName).or (configuredLevel source) := by
  unfold configuredLevel MarineModuleConfig.extendWasiEnvs
  cases source.wasi with
  | none => simp
  | some wasi =>
    refine ⟨rfl, ?_⟩
    show (newEnvs ∪ wasi.envs).lookup wasmLogEnvName = _
    cases hnew : newEnvs.lookup wasmLogEnvName with
    | none => simp [AList.lookup_union_right (AList.lookup_eq_none.mp hnew)]
    | some text =>
      have hmem : wasmLogEnvName ∈ newEnvs := AList.lookup_isSome.mp (by rw [hnew]; rfl)
      rw [AList.lookup_union_left hmem, hnew]
      rfl

end Environment

/-! ## A service -/

/-- A module of a service that logs, without a level of its own. -/
def serviceConfig : MarineModuleConfig String :=
  MarineModuleConfig.extendWasiEnvs ⟨true, ∅, none, 0⟩
    ((∅ : AList fun _ : String => String).insert "service_id" "greeting")

def noImport : HostImportDescriptor := ⟨fun _ => none, [], none, none⟩

/-- The level of the filter is dropped. -/
theorem service_level_lost : ¬ LogLevelReaches lowerCaseLevels id (fun _ => noImport) "greeting"
    serviceConfig (LoggerFilter.fromEnvString lowerCaseLevels "greeting=info") := by
  rintro ⟨built, hbuilt, hlevel⟩
  cases hbuilt
  have hlost : configuredLevel serviceConfig = none := rfl
  have hfilter : filterLevel lowerCaseLevels "greeting"
      (LoggerFilter.fromEnvString lowerCaseLevels "greeting=info") = some "INFO" := by decide
  rw [hlost, hfilter] at hlevel
  cases hlevel

/-- A section that has the level already. -/
theorem service_level_reaches : LogLevelReaches lowerCaseLevels id (fun _ => noImport) "greeting"
    (serviceConfig.extendWasiEnvs ((∅ : AList fun _ : String => String).insert "WASM_LOG" "INFO"))
    (LoggerFilter.fromEnvString lowerCaseLevels "greeting=info") := by
  have hlevel : (LoggerFilter.fromEnvString lowerCaseLevels "greeting=info").moduleLevel
      "greeting" = some .info := by decide
  refine (logLevelReaches_iff _ _ _ _ _ _ rfl ?_).mpr ?_
  · rintro wasi ⟨⟩
    exact AList.notMem_empty _
  · rintro level hsome wasi ⟨⟩
    cases hlevel.symm.trans hsome
    rfl

end Marine.Config
