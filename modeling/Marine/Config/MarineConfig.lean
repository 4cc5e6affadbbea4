import Marine.Config.ModuleConfig
import Marine.Lib.Fallible

/-!
# The configuration of Marine

From the TOML of a configuration to a `MarineConfig` (`marine/src/config`): paths are
taken relative to the directory of the configuration, and what is left out has a
default.  The values of TOML tables are texts or make an error of the TOML crate.

* `find_insertAll`: what maps by version and name hold.
* `find_hostImports`: mounted binaries are imports of all versions.
* `modulesConfig_of_toml`: the modules keep their order and names.
* `makeMarineConfig_wasi`, `prepared_wasi`: what the WASI of a module is made of.
-/

namespace Marine.Config

open HostImports Fallible

/-! ## Files -/

/-- Paths and files, as far as configurations use them.  `Path::join` keeps a path that is
absolute. -/
structure FileSystem (Path : Type) where
  ofText : String → Path
  isAbsolute : Path → Bool
  join : Path → Path → Path
  isFile : Path → Bool
  canonicalize : Path → Except String Path
  display : Path → String
  read : Path → Except String (List UInt8)
  join_absolute : ∀ root path, isAbsolute path = true → join root path = path

section Conversions

variable {Path : Type} (fs : FileSystem Path)

def asRelativeToBase (base : Option Path) (path : Path) : Except MarineError Path :=
  if fs.isAbsolute path then .ok path
  else
    let path :=
      match base with
      | none => path
      | some base => fs.join base path
    match fs.canonicalize path with
    | .ok path => .ok path
    | .error e => .error (.ioError
        ("Failed to canonicalize path " ++ fs.display path ++ ": " ++ e))

/-! ## Marine configurations -/

structure ModuleDescriptor (Path : Type) where
  loadFrom : Option Path
  fileName : String
  importName : String
  config : MarineModuleConfig Path

/-- Relative paths of mapped directories move to `root`. -/
def MarineModuleConfig.rootWasiFilesAt (config : MarineModuleConfig Path) (root : Path) :
    MarineModuleConfig Path :=
  match config.wasi with
  | some wasi => { config with
      wasi := some { wasi with mappedDirs := Maps.mapValues (fs.join root) wasi.mappedDirs } }
  | none => config

structure MarineConfig (Path : Type) where
  modulesDir : Option Path
  totalMemoryLimit : Option UInt64
  modulesConfig : List (ModuleDescriptor Path)
  defaultModulesConfig : Option (MarineModuleConfig Path)

def ModuleDescriptor.getPath (descriptor : ModuleDescriptor Path) (modulesDir : Option Path) :
    Except MarineError Path :=
  match descriptor.loadFrom with
  | none =>
    match modulesDir with
    | some dir => .ok (fs.join dir (fs.ofText descriptor.fileName))
    | none => .error (.invalidConfig
        ("\"modules_dir\" field is not defined, but it is required to load module \"" ++
          descriptor.importName ++ "\""))
  | some path =>
    if fs.isFile path then .ok path else .ok (fs.join path (fs.ofText descriptor.fileName))

/-! ## TOML -/

/-- A value that is no text has the error of its conversion. -/
inductive TomlValue
  | string (text : String)
  | other (deError : String)

abbrev TomlTable := AList fun _ : String => TomlValue

structure TomlWASIConfig where
  envs : Option TomlTable
  mappedDirs : Option TomlTable

structure TomlMarineModuleConfig where
  loggerEnabled : Option Bool
  loggingMask : Option Int32
  wasi : Option TomlWASIConfig
  mountedBinaries : Option TomlTable

structure TomlMarineNamedModuleConfig (Path : Type) where
  name : String
  loadFrom : Option Path
  fileName : Option String
  config : TomlMarineModuleConfig

inductive MemoryLimit
  | infinity
  | value (bytes : UInt64)

structure TomlMarineConfig (Path : Type) where
  modulesDir : Option Path
  totalMemoryLimit : MemoryLimit
  module : List (TomlMarineNamedModuleConfig Path)
  default : Option TomlMarineModuleConfig
  basePath : Path

def TomlValue.tryIntoString : TomlValue → Except MarineError String
  | .string text => .ok text
  | .other deError => .error (.parseConfigError deError)

def TomlValue.tryIntoPath (value : TomlValue) : Except MarineError Path := do
  let text ← value.tryIntoString
  return fs.ofText text

/-- The values of a table, converted. -/
def convertTable {α : Type} (convert : TomlValue → Except MarineError α)
    (table : Option TomlTable) : Except MarineError (List (String × α)) :=
  (table.getD ∅).entries.mapM fun elem => do
    let converted ← convert elem.2
    return (elem.1, converted)

def wasiConfigOf (toml : TomlWASIConfig) : Except MarineError (MarineWASIConfig Path) := do
  let envs ← convertTable TomlValue.tryIntoString toml.envs
  let mappedDirs ← convertTable (TomlValue.tryIntoPath fs) toml.mappedDirs
  return ⟨Maps.collect envs, Maps.collect mappedDirs⟩

def allVersions : List HostAPIVersion := [.v0, .v1, .v2, .v3]

/-- An import under each version. -/
def Imports.insertAll {α : Type} (imports : Imports α) (name : String)
    (value : HostAPIVersion → α) : Imports α :=
  allVersions.foldl (fun imports version => imports.insertUnder version name (value version))
    imports

def noHostImports : Imports HostImportDescriptor :=
  allVersions.foldl (fun imports version => imports.insert version ∅) ∅

/-- `mountedBinary` runs the program at a path. -/
def moduleConfigOf (mountedBinary : Path → MountedBinary) (base : Option Path)
    (toml : TomlMarineModuleConfig) : Except MarineError (MarineModuleConfig Path) := do
  let mountedBinaries ← convertTable (TomlValue.tryIntoPath fs) toml.mountedBinaries
  let hostImports ← mountedBinaries.foldlM (fun (hostImports : Imports HostImportDescriptor) p => do
    let hostCmd ← asRelativeToBase fs base p.2
    return hostImports.insertAll p.1 fun _ => createMountedBinaryImport (mountedBinary hostCmd))
    noHostImports
  let wasi ← toml.wasi.mapM (wasiConfigOf fs)
  return {
    loggerEnabled := toml.loggerEnabled.getD true
    hostImports := hostImports
    wasi := wasi
    loggingMask := toml.loggingMask.getD Int32.maxValue }

def moduleDescriptorOf (mountedBinary : Path → MountedBinary) (base : Option Path)
    (toml : TomlMarineNamedModuleConfig Path) : Except MarineError (ModuleDescriptor Path) := do
  let fileName := toml.fileName.getD (toml.name ++ ".wasm")
  let loadFrom ← toml.loadFrom.mapM (asRelativeToBase fs base)
  let config ← moduleConfigOf fs mountedBinary base toml.config
  return ⟨loadFrom, fileName, toml.name, config⟩

/-- `TryFrom<TomlMarineConfig>`. -/
def marineConfigOf (mountedBinary : Path → MountedBinary) (toml : TomlMarineConfig Path) :
    Except MarineError (MarineConfig Path) := do
  let base := some toml.basePath
  let modulesDir ← toml.modulesDir.mapM (asRelativeToBase fs base)
  let defaultModulesConfig ← toml.default.mapM (moduleConfigOf fs mountedBinary base)
  let modulesConfig ← toml.module.mapM (moduleDescriptorOf fs mountedBinary base)
  let totalMemoryLimit :=
    match toml.totalMemoryLimit with
    | .infinity => none
    | .value bytes => some bytes
  return ⟨modulesDir, totalMemoryLimit, modulesConfig, defaultModulesConfig⟩

/-! ## What configurations hold -/

namespace Imports

variable {α : Type}

def find (imports : Imports α) (version : HostAPIVersion) (name : String) : Option α :=
  (imports.lookup version).bind (AList.lookup name)

theorem find_insertUnder (imports : Imports α) (version : HostAPIVersion) (name : String)
    (value : α) (version' : HostAPIVersion) (name' : String) :
    (imports.insertUnder version name value).find version' name' =
      if version' = version ∧ name' = name then some value else imports.find version' name' := by
  rw [find, insertUnder, find]
  by_cases hversion : version' = version
  · subst hversion
    rw [AList.lookup_insert, Option.bind_some]
    by_cases hname : name' = name
    · subst hname
      rw [AList.lookup_insert, if_pos ⟨rfl, rfl⟩]
    · rw [AList.lookup_insert_ne hname, if_neg fun h => hname h.2]
      cases imports.lookup version' with
      | none => rfl
      | some functions => rfl
  · rw [AList.lookup_insert_ne hversion, if_neg fun h => hversion h.1]

/-- **An import under all versions.** -/
theorem find_insertAll (imports : Imports α) (name : String) (value : HostAPIVersion → α)
    (version : HostAPIVersion) (name' : String) :
    (imports.insertAll name value).find version name' =
      if name' = name then some (value version) else imports.find version name' := by
  simp only [insertAll, allVersions, List.foldl_cons, List.foldl_nil, find_insertUnder]
  by_cases hname : name' = name
  · cases version <;> simp [hname]
  · simp [hname]

end Imports

theorem find_noHostImports (version : HostAPIVersion) (name : String) :
    noHostImports.find version name = none := by
  cases version <;> rfl

variable {fs} {mountedBinary : Path → MountedBinary} {base : Option Path}

theorem convertTable_ok {α : Type} {convert : TomlValue → Except MarineError α}
    {table : Option TomlTable} {l : List (String × α)} (h : convertTable convert table = .ok l) :
    (l.map Prod.fst).Nodup ∧ ∀ name a, (name, a) ∈ l ↔
      ∃ value, (table.getD ∅).lookup name = some value ∧ convert value = .ok a := by
  have hall := mapM_eq_ok_iff.mp h
  have hkeys : l.map Prod.fst = (table.getD ∅).keys := by
    rw [AList.keys, List.keys]
    clear h
    generalize (table.getD ∅).entries = entries at hall
    induction hall with
    | nil => rfl
    | cons hhead htail ih =>
      obtain ⟨a, -, h⟩ := bind_eq_ok_iff.mp hhead
      cases h
      rw [List.map_cons, List.map_cons, ih]
  refine ⟨hkeys ▸ (table.getD ∅).keys_nodup, fun name a => ⟨fun hmem => ?_, ?_⟩⟩
  · obtain ⟨⟨key, value⟩, helem, hconvert⟩ := exists_left_of_mem hall hmem
    obtain ⟨converted, hvalue, h⟩ := bind_eq_ok_iff.mp hconvert
    cases h
    exact ⟨value, AList.mem_lookup_iff.mpr helem, hvalue⟩
  · rintro ⟨value, hlookup, hvalue⟩
    obtain ⟨p, hp, hconvert⟩ := exists_right_of_mem hall (AList.mem_lookup_iff.mp hlookup)
    obtain ⟨converted, hvalue', h⟩ := bind_eq_ok_iff.mp hconvert
    cases h
    cases hvalue.symm.trans hvalue'
    exact hp

/-- Mounting programs one after another. -/
theorem find_mounted {l : List (String × Path)} (hkeys : (l.map Prod.fst).Nodup)
    {hostImports : Imports HostImportDescriptor}
    (h : l.foldlM (fun (hostImports : Imports HostImportDescriptor) p => do
      let hostCmd ← asRelativeToBase fs base p.2
      return hostImports.insertAll p.1 fun _ => createMountedBinaryImport (mountedBinary hostCmd))
      noHostImports = .ok hostImports)
    (version : HostAPIVersion) (name : String) (descriptor : HostImportDescriptor) :
    hostImports.find version name = some descriptor ↔ ∃ path hostCmd, (name, path) ∈ l ∧
      asRelativeToBase fs base path = .ok hostCmd ∧
        descriptor = createMountedBinaryImport (mountedBinary hostCmd) := by
  induction l using List.reverseRecOn generalizing hostImports with
  | nil =>
    cases h
    simp [find_noHostImports]
  | append_singleton l p ih =>
    obtain ⟨before, hbefore, hlast⟩ := foldlM_concat_eq_ok_iff.mp h
    obtain ⟨hostCmd, hpath, hlast⟩ := bind_eq_ok_iff.mp hlast
    cases hlast
    rw [List.map_append, List.nodup_append] at hkeys
    rw [Imports.find_insertAll]
    by_cases hname : name = p.1
    · subst hname
      rw [if_pos rfl, Option.some.injEq]
      constructor
      · rintro rfl
        exact ⟨p.2, hostCmd, List.mem_append_right _ (.head _), hpath, rfl⟩
      · rintro ⟨path, hostCmd', hmem, hpath', rfl⟩
        rcases List.mem_append.mp hmem with hmem | hmem
        · exact absurd rfl (hkeys.2.2 p.1 (List.mem_map.mpr ⟨_, hmem, rfl⟩) p.1 (.head _))
        · rw [← List.mem_singleton.mp hmem] at hpath
          cases hpath.symm.trans hpath'
          rfl
    · rw [if_neg hname, ih hkeys.1 hbefore]
      refine exists_congr fun path => exists_congr fun hostCmd' => and_congr_left fun _ => ?_
      rw [List.mem_append, List.mem_singleton]
      refine (or_iff_left fun heq => hname ?_).symm
      rw [← heq]

/-- The program that a configuration mounts under a name. -/
def Mounts (fs : FileSystem Path) (base : Option Path) (toml : TomlMarineModuleConfig)
    (name : String) (hostCmd : Path) : Prop :=
  ∃ text, (toml.mountedBinaries.getD ∅).lookup name = some (.string text) ∧
    asRelativeToBase fs base (fs.ofText text) = .ok hostCmd

/-- **Mounted binaries are imports of all versions**, and there are no others. -/
theorem find_hostImports {toml : TomlMarineModuleConfig} {config : MarineModuleConfig Path}
    (h : moduleConfigOf fs mountedBinary base toml = .ok config) (version : HostAPIVersion)
    (name : String) (descriptor : HostImportDescriptor) :
    config.hostImports.find version name = some descriptor ↔ ∃ hostCmd,
      Mounts fs base toml name hostCmd ∧
        descriptor = createMountedBinaryImport (mountedBinary hostCmd) := by
  obtain ⟨binaries, hbinaries, h⟩ := bind_eq_ok_iff.mp h
  obtain ⟨hostImports, hmounted, h⟩ := bind_eq_ok_iff.mp h
  obtain ⟨wasi, -, h⟩ := bind_eq_ok_iff.mp h
  cases h
  obtain ⟨hkeys, hmem⟩ := convertTable_ok hbinaries
  rw [find_mounted hkeys hmounted]
  constructor
  · rintro ⟨path, hostCmd, hpath, hresolved, rfl⟩
    obtain ⟨value, hlookup, hvalue⟩ := (hmem name path).mp hpath
    obtain ⟨text, htext, h⟩ := bind_eq_ok_iff.mp hvalue
    cases h
    cases value with
    | string text =>
      cases htext
      exact ⟨hostCmd, ⟨text, hlookup, hresolved⟩, rfl⟩
    | other deError => cases htext
  · rintro ⟨hostCmd, ⟨text, hlookup, hresolved⟩, rfl⟩
    exact ⟨fs.ofText text, hostCmd, (hmem name _).mpr ⟨.string text, hlookup, rfl⟩, hresolved, rfl⟩

/-- **The modules keep their order and names**, and what is left out has its default. -/
theorem modulesConfig_of_toml {toml : TomlMarineConfig Path} {config : MarineConfig Path}
    (h : marineConfigOf fs mountedBinary toml = .ok config) :
    List.Forall₂ (fun named descriptor =>
      descriptor.importName = named.name ∧
      descriptor.fileName = named.fileName.getD (named.name ++ ".wasm") ∧
      moduleConfigOf fs mountedBinary (some toml.basePath) named.config = .ok descriptor.config)
      toml.module config.modulesConfig := by
  obtain ⟨modulesDir, -, h⟩ := bind_eq_ok_iff.mp h
  obtain ⟨defaultModulesConfig, -, h⟩ := bind_eq_ok_iff.mp h
  obtain ⟨modulesConfig, hmodules, h⟩ := bind_eq_ok_iff.mp h
  cases h
  refine (mapM_eq_ok_iff.mp hmodules).imp fun named descriptor hdescriptor => ?_
  obtain ⟨loadFrom, -, hdescriptor⟩ := bind_eq_ok_iff.mp hdescriptor
  obtain ⟨moduleConfig, hconfig, hdescriptor⟩ := bind_eq_ok_iff.mp hdescriptor
  cases hdescriptor
  exact ⟨rfl, rfl, hconfig⟩

theorem importNames_of_toml {toml : TomlMarineConfig Path} {config : MarineConfig Path}
    (h : marineConfigOf fs mountedBinary toml = .ok config) :
    config.modulesConfig.map ModuleDescriptor.importName = toml.module.map (·.name) := by
  rw [← List.forall₂_eq_eq_eq, List.forall₂_map_left_iff, List.forall₂_map_right_iff]
  exact (modulesConfig_of_toml h).flip.imp fun _ _ h => h.1

/-! ## WASI -/

/-- The variables that a configuration has of its own. -/
def MarineModuleConfig.wasiEnvs (config : MarineModuleConfig Path) :
    AList fun _ : String => String :=
  config.wasi.elim ∅ MarineWASIConfig.envs

/-- The directories that a configuration maps. -/
def MarineModuleConfig.wasiDirs (config : MarineModuleConfig Path) : AList fun _ : String => Path :=
  config.wasi.elim ∅ MarineWASIConfig.mappedDirs

/-- **Spec of `make_marine_config`**, for WASI: the name of a mapped directory is also a
variable, and replaces one of that name. -/
theorem makeMarineConfig_wasi (log : LogCrate) (toStringLossy : Path → String)
    (callParameters : HostAPIVersion → HostImportDescriptor) (moduleName : String)
    {source : MarineModuleConfig Path} (loggerFilter : LoggerFilter) {built : MModuleConfig Path}
    (h : makeMarineConfig log toStringLossy callParameters moduleName (some source) loggerFilter =
      .ok built) (hwasi : source.wasi.isSome) :
    built.wasiParameters.mappedDirs = source.wasiDirs ∧
      ∀ name, built.wasiParameters.envs.lookup name =
        ((source.wasiDirs.lookup name).map toStringLossy).or (source.wasiEnvs.lookup name) := by
  obtain ⟨wasi, hwasi⟩ := Option.isSome_iff_exists.mp hwasi
  simp only [makeMarineConfig, MModuleConfigBuilder.build, hwasi,
    MModuleConfigBuilder.populateWasi, Except.ok.injEq] at h
  subst h
  simp only [MarineModuleConfig.wasiDirs, MarineModuleConfig.wasiEnvs, hwasi, Option.elim_some,
    true_and]
  intro name
  rw [Maps.lookup_union_or]
  exact congrArg (Option.or · _) (Maps.lookup_mapValues toStringLossy wasi.mappedDirs name)

/-- **A prepared configuration** has a WASI section, new variables replace its own and its
directories are moved. -/
theorem prepared_wasi (fs : FileSystem Path) (config : MarineModuleConfig Path)
    (newEnvs : AList fun _ : String => String) (root : Path) :
    let prepared := (config.extendWasiEnvs newEnvs).rootWasiFilesAt fs root
    prepared.wasi.isSome ∧
      (∀ name, prepared.wasiEnvs.lookup name =
        (newEnvs.lookup name).or (config.wasiEnvs.lookup name)) ∧
      ∀ name, prepared.wasiDirs.lookup name =
        (config.wasiDirs.lookup name).map (fs.join root) := by
  unfold MarineModuleConfig.rootWasiFilesAt MarineModuleConfig.extendWasiEnvs
    MarineModuleConfig.wasiEnvs MarineModuleConfig.wasiDirs
  cases config.wasi with
  | none => simp [Maps.lookup_mapValues]
  | some wasi => simp [Maps.lookup_union_or, Maps.lookup_mapValues]

end Conversions

end Marine.Config
