import Marine.Backend.Linker
import Marine.Config.MarineConfig
import Marine.Loader.ModuleLoading

/-!
# The host functions of a module

From the configuration of a module to what its code can import from the host:
`make_marine_config` (`marine/src/config/to_marine_config.rs`) adds the logger and the
call parameters, and `add_host_imports` (`core/src/module/marine_module.rs`) registers
all of it under the namespaces of the API versions, in the linker that already has the
adapters of the imports and WASI.

* `mem_hostEntries`, `nodup_hostEntries_iff`: what is registered.
* `link_perm`: the order of the maps does not matter.
* `hostFunctions_of_config`: which host functions a configured module has, and when it
  cannot be linked.
-/

namespace Marine.Loader

open Marine.Backend Marine.Config Registration

/-- A function in the linker: one that runs the adapter of an import, one of WASI, one that
the configuration gives as it is, or one behind a descriptor. -/
inductive HostFunction
  | adapter (witImport : WitImport)
  | wasi (name : String)
  | raw (creator : RawImportCreator)
  | described (descriptor : HostImports.HostImportDescriptor)

/-- `HostAPIVersion::namespace`. -/
def nameSpaceOf : HostAPIVersion → String
  | .v0 => "host"
  | .v1 => "__marine_host_api_v1"
  | .v2 => "__marine_host_api_v2"
  | .v3 => "__marine_host_api_v3"

theorem nameSpaceOf_injective {v v' : HostAPIVersion} (h : nameSpaceOf v = nameSpaceOf v') :
    v = v' := by
  cases v <;> cases v' <;> first | rfl | exact absurd h (by decide)

section Registered

variable {α : Type}

/-- The imports of all versions, as they are registered. -/
def nameSpaces (imports : Imports α) (function : α → HostFunction) : Namespaces HostFunction :=
  imports.entries.map fun e => (nameSpaceOf e.1, e.2.entries.map fun f => (f.1, function f.2))

theorem mem_nameSpaces {imports : Imports α} {function : α → HostFunction} {key : ImportKey}
    {f : HostFunction} : (key, f) ∈ entriesOf (nameSpaces imports function) ↔
      ∃ version name a, imports.find version name = some a ∧ key = (nameSpaceOf version, name) ∧
        f = function a := by
  simp only [entriesOf, nameSpaces, List.mem_flatMap, List.mem_map, Imports.find,
    Option.bind_eq_some_iff]
  constructor
  · rintro ⟨_, ⟨⟨version, functions⟩, he, rfl⟩, _, hf, heq⟩
    obtain ⟨⟨name, a⟩, hmem, rfl⟩ := List.mem_map.mp hf
    cases heq
    exact ⟨version, name, a, ⟨functions, AList.mem_lookup_iff.mpr he,
      AList.mem_lookup_iff.mpr hmem⟩, rfl, rfl⟩
  · rintro ⟨version, name, a, ⟨functions, he, hf⟩, rfl, rfl⟩
    have hfunctions := AList.mem_lookup_iff.mp he
    have hmem := AList.mem_lookup_iff.mp hf
    exact ⟨_, ⟨⟨version, functions⟩, hfunctions, rfl⟩, (name, function a),
      List.mem_map.mpr ⟨⟨name, a⟩, hmem, rfl⟩, rfl⟩

theorem mem_keys_nameSpaces {imports : Imports α} {function : α → HostFunction}
    {version : HostAPIVersion} {name : String} :
    (nameSpaceOf version, name) ∈ (entriesOf (nameSpaces imports function)).map Prod.fst ↔
      imports.find version name ≠ none := by
  rw [Option.ne_none_iff_exists', List.mem_map]
  constructor
  · rintro ⟨⟨key, f⟩, hmem, rfl⟩
    obtain ⟨version', name', a, ha, heq, -⟩ := mem_nameSpaces.mp hmem
    obtain ⟨hversion, rfl⟩ := Prod.mk.inj heq
    cases nameSpaceOf_injective hversion
    exact ⟨a, ha⟩
  · rintro ⟨a, ha⟩
    exact ⟨(_, function a), mem_nameSpaces.mpr ⟨version, name, a, ha, rfl, rfl⟩, rfl⟩

/-- Keys are those of a version. -/
theorem exists_of_mem_keys {imports : Imports α} {function : α → HostFunction} {key : ImportKey}
    (h : key ∈ (entriesOf (nameSpaces imports function)).map Prod.fst) :
    ∃ version name, key = (nameSpaceOf version, name) := by
  obtain ⟨⟨_, _⟩, hmem, rfl⟩ := List.mem_map.mp h
  obtain ⟨version, name, -, -, rfl, -⟩ := mem_nameSpaces.mp hmem
  exact ⟨version, name, rfl⟩

/-- Maps have no key twice. -/
theorem nodup_nameSpaces (imports : Imports α) (function : α → HostFunction) :
    ((entriesOf (nameSpaces imports function)).map Prod.fst).Nodup := by
  rw [entriesOf, nameSpaces, List.flatMap_map, List.map_flatMap, List.nodup_flatMap]
  constructor
  · intro e he
    have hkeys : (e.2.entries.map Sigma.fst).Nodup := e.2.keys_nodup
    simp only [List.map_map]
    exact (List.nodup_map_iff_inj_on (List.Nodup.of_map _ hkeys)).mpr
      fun f hf f' hf' heq => List.inj_on_of_nodup_map hkeys hf hf' (Prod.mk.inj heq).2
  · have hversions : (imports.entries.map Sigma.fst).Nodup := imports.keys_nodup
    refine (List.pairwise_map.mp hversions).imp fun {e e'} hne key hkey hkey' => ?_
    simp only [List.map_map, List.mem_map, Function.comp] at hkey hkey'
    obtain ⟨_, -, rfl⟩ := hkey
    obtain ⟨_, -, heq⟩ := hkey'
    exact hne (nameSpaceOf_injective (Prod.mk.inj heq).1).symm

end Registered

variable {Path : Type}

/-- What `add_wit_imports` registers. -/
def witEntries (witImports : List WitImport) : List (ImportKey × HostFunction) :=
  witImports.map fun i => ((i.nameSpace, i.name), .adapter i)

/-- What `add_host_imports` registers, raw imports first. -/
def hostNameSpaces (config : MModuleConfig Path) : Namespaces HostFunction :=
  nameSpaces config.rawImports .raw ++ nameSpaces config.hostImports .described

def hostEntries (config : MModuleConfig Path) : List (ImportKey × HostFunction) :=
  entriesOf (hostNameSpaces config)

section Entries

variable {config : MModuleConfig Path}

theorem hostEntries_eq : hostEntries config = entriesOf (nameSpaces config.rawImports .raw) ++
    entriesOf (nameSpaces config.hostImports .described) := by
  rw [hostEntries, hostNameSpaces, entriesOf, entriesOf, entriesOf, List.flatMap_append]

/-- **What is registered.** -/
theorem mem_hostEntries {version : HostAPIVersion} {name : String} {f : HostFunction} :
    ((nameSpaceOf version, name), f) ∈ hostEntries config ↔
      (∃ creator, config.rawImports.find version name = some creator ∧ f = .raw creator) ∨
        ∃ descriptor, config.hostImports.find version name = some descriptor ∧
          f = .described descriptor := by
  have hkey {α : Type} {imports : Imports α} {function : α → HostFunction} :
      ((nameSpaceOf version, name), f) ∈ entriesOf (nameSpaces imports function) ↔
        ∃ a, imports.find version name = some a ∧ f = function a := by
    rw [mem_nameSpaces]
    constructor
    · rintro ⟨version', name', a, ha, heq, rfl⟩
      obtain ⟨hversion, rfl⟩ := Prod.mk.inj heq
      cases nameSpaceOf_injective hversion
      exact ⟨a, ha, rfl⟩
    · rintro ⟨a, ha, rfl⟩
      exact ⟨version, name, a, ha, rfl, rfl⟩
  rw [hostEntries_eq, List.mem_append, hkey, hkey]

theorem hostKey_of_mem {key : ImportKey} (h : key ∈ (hostEntries config).map Prod.fst) :
    ∃ version name, key = (nameSpaceOf version, name) := by
  rw [hostEntries_eq, List.map_append, List.mem_append] at h
  rcases h with h | h
  · exact exists_of_mem_keys h
  · exact exists_of_mem_keys h

/-- A key that is registered twice is a raw import and another one. -/
theorem both_of_two_le_count {key : ImportKey}
    (h : 2 ≤ ((hostEntries config).map Prod.fst).count key) :
    ∃ version name, key = (nameSpaceOf version, name) ∧
      config.rawImports.find version name ≠ none ∧
        config.hostImports.find version name ≠ none := by
  have hmem : key ∈ (hostEntries config).map Prod.fst :=
    List.count_pos_iff.mp (Nat.lt_of_lt_of_le Nat.two_pos h)
  obtain ⟨version, name, rfl⟩ := hostKey_of_mem hmem
  rw [hostEntries_eq, List.map_append, List.count_append] at h
  have hraw := List.nodup_iff_count_le_one.mp (nodup_nameSpaces config.rawImports .raw)
    (nameSpaceOf version, name)
  have hdescribed := List.nodup_iff_count_le_one.mp
    (nodup_nameSpaces config.hostImports .described) (nameSpaceOf version, name)
  have hraw' := List.count_pos_iff.mp (show 0 < List.count (nameSpaceOf version, name)
    ((entriesOf (nameSpaces config.rawImports .raw)).map Prod.fst) by omega)
  have hdescribed' := List.count_pos_iff.mp (show 0 < List.count (nameSpaceOf version, name)
    ((entriesOf (nameSpaces config.hostImports .described)).map Prod.fst) by omega)
  exact ⟨version, name, rfl, mem_keys_nameSpaces.mp hraw', mem_keys_nameSpaces.mp hdescribed'⟩

/-- No key is registered twice if no name is both a raw import and another one. -/
theorem nodup_hostEntries_iff : ((hostEntries config).map Prod.fst).Nodup ↔ ∀ version name,
    config.rawImports.find version name = none ∨ config.hostImports.find version name = none := by
  constructor
  · intro h version name
    rw [hostEntries_eq, List.map_append, List.nodup_append] at h
    by_contra hboth
    rw [not_or] at hboth
    exact h.2.2 _ (mem_keys_nameSpaces.mpr hboth.1) _ (mem_keys_nameSpaces.mpr hboth.2) rfl
  · intro h
    rw [List.nodup_iff_count_le_one]
    intro key
    by_contra htwice
    have htwice : 2 ≤ ((hostEntries config).map Prod.fst).count key := by omega
    obtain ⟨version, name, -, hraw, hdescribed⟩ := both_of_two_le_count htwice
    rcases h version name with hnone | hnone
    · exact hraw hnone
    · exact hdescribed hnone

end Entries

/-! ## Orders -/

section Orders

variable {L : Type} [Linker L HostFunction] {wit host : Namespaces HostFunction}
  {witList hostList : List (ImportKey × HostFunction)}

/-- **The maps are walked in any order**: it matters neither to whether the functions are
accepted nor to what the linker holds then. -/
theorem link_perm (wasi : List (ImportKey × HostFunction)) (hwit : (entriesOf wit).Perm witList)
    (hhost : (entriesOf host).Perm hostList) :
    ((∃ linker : L, WasmtimeImports.link wit wasi host = .ok linker) ↔
      ((witList ++ (wasi ++ hostList)).map Prod.fst).Nodup) ∧
    (∀ linker : L, WasmtimeImports.link wit wasi host = .ok linker → ∀ key f,
      Registry.lookup linker key = some f ↔ (key, f) ∈ witList ++ (wasi ++ hostList)) ∧
    ∀ key, (WasmtimeImports.link wit wasi host : Except ImportKey L) = .error key →
      2 ≤ ((witList ++ (wasi ++ hostList)).map Prod.fst).count key := by
  have hperm : (entriesOf wit ++ (wasi ++ entriesOf host)).Perm
      (witList ++ (wasi ++ hostList)) := hwit.append (hhost.append_left wasi)
  have haccepted : (∃ linker : L, defineAll Registry.empty _ = .ok linker) ↔ _ :=
    (defineAll_perm hperm).1
  rw [wasmtimeLink_eq_defineAll]
  refine ⟨?_, fun linker hlinker key f => ?_, fun key hkey => ?_⟩
  · rw [haccepted, isOk_defineAll_empty_iff]
  · obtain ⟨linker', hlinker'⟩ := haccepted.mp ⟨linker, hlinker⟩
    rw [(defineAll_perm hperm).2 linker linker' hlinker hlinker' key,
      lookup_defineAll_empty hlinker']
  · rw [← (hperm.map Prod.fst).count_eq key]
    exact two_le_count_of_defineAll_error hkey (Registry.lookup_empty key)

end Orders

/-! ## Configured modules -/

section Configured

variable (log : HostImports.LogCrate) (toStringLossy : Path → String)
  (callParameters : HostAPIVersion → HostImports.HostImportDescriptor) (moduleName : String)
  (source : MarineModuleConfig Path) (loggerFilter : HostImports.LoggerFilter)

theorem find_populateLogger (version : HostAPIVersion) (name : String) :
    (MModuleConfigBuilder.populateLogger log (MModuleConfig.default : MModuleConfig Path)
      source.loggerEnabled source.loggingMask loggerFilter moduleName).rawImports.find
        version name =
        if source.loggerEnabled = true ∧ name = "log_utf8_string" then
          some ⟨source.loggingMask, moduleName⟩ else none := by
  have hnone : (∅ : Imports RawImportCreator).find version name = none := rfl
  have hall := (∅ : Imports RawImportCreator).find_insertAll "log_utf8_string"
    (fun _ => ⟨source.loggingMask, moduleName⟩) version name
  rw [hnone] at hall
  unfold MModuleConfigBuilder.populateLogger
  cases source.loggerEnabled with
  | true =>
    simp only [true_and]
    exact hall
  | false =>
    simp only [reduceCtorEq, false_and, if_false]
    exact hnone

theorem find_populateHostImports (config : MModuleConfig Path) (version : HostAPIVersion)
    (name : String) :
    (MModuleConfigBuilder.populateHostImports callParameters config
      source.hostImports).hostImports.find version name =
        if name = "get_call_parameters" then some (callParameters version)
        else source.hostImports.find version name :=
  source.hostImports.find_insertAll _ callParameters version name

theorem populateWasi_imports (config : MModuleConfig Path) (wasi : Option (MarineWASIConfig Path)) :
    ∃ built, MModuleConfigBuilder.populateWasi toStringLossy config wasi = .ok built ∧
      built.rawImports = config.rawImports ∧ built.hostImports = config.hostImports := by
  cases wasi with
  | none => exact ⟨config, rfl, rfl, rfl⟩
  | some wasi => exact ⟨_, rfl, rfl, rfl⟩

/-- **Spec of `make_marine_config`**, for the imports. -/
theorem makeMarineConfig_imports :
    ∃ config, makeMarineConfig log toStringLossy callParameters moduleName (some source)
        loggerFilter = .ok config ∧
      ∀ version name,
        config.rawImports.find version name =
          (if source.loggerEnabled = true ∧ name = "log_utf8_string" then
            some ⟨source.loggingMask, moduleName⟩ else none) ∧
        config.hostImports.find version name =
          if name = "get_call_parameters" then some (callParameters version)
          else source.hostImports.find version name := by
  obtain ⟨built, hbuilt, hraw, hhost⟩ := populateWasi_imports toStringLossy
    (MModuleConfigBuilder.populateHostImports callParameters
      (MModuleConfigBuilder.populateLogger log .default source.loggerEnabled source.loggingMask
        loggerFilter moduleName) source.hostImports) source.wasi
  refine ⟨built, hbuilt, fun version name => ⟨?_, ?_⟩⟩
  · rw [hraw]
    exact find_populateLogger log moduleName source loggerFilter version name
  · rw [hhost]
    exact find_populateHostImports callParameters source _ version name

end Configured

/-- The host functions that a configuration asks for: the call parameters, the logger and
the mounted binaries, all under each version. -/
def ConfiguredFunction (fs : FileSystem Path) (mountedBinary : Path → HostImports.MountedBinary)
    (base : Option Path) (toml : TomlMarineModuleConfig)
    (callParameters : HostAPIVersion → HostImports.HostImportDescriptor) (moduleName : String)
    (version : HostAPIVersion) (name : String) (f : HostFunction) : Prop :=
  (name = "get_call_parameters" ∧ f = .described (callParameters version)) ∨
  (name = "log_utf8_string" ∧ toml.loggerEnabled.getD true = true ∧
    f = .raw ⟨toml.loggingMask.getD Int32.maxValue, moduleName⟩) ∨
  (name ≠ "get_call_parameters" ∧ ∃ hostCmd, Mounts fs base toml name hostCmd ∧
    f = .described (HostImports.createMountedBinaryImport (mountedBinary hostCmd)))

section FromToml

variable {fs : FileSystem Path} {mountedBinary : Path → HostImports.MountedBinary}
  {base : Option Path} {toml : TomlMarineModuleConfig} {source : MarineModuleConfig Path}

/-- **What a configuration makes**: its host functions, and when two of them have one key. -/
theorem hostEntries_of_config (hsource : moduleConfigOf fs mountedBinary base toml = .ok source)
    (log : HostImports.LogCrate)
    (callParameters : HostAPIVersion → HostImports.HostImportDescriptor)
    (moduleName : String) (loggerFilter : HostImports.LoggerFilter) :
    ∃ config, makeMarineConfig log fs.display callParameters moduleName (some source)
        loggerFilter = .ok config ∧
      (∀ version name f, ((nameSpaceOf version, name), f) ∈ hostEntries config ↔
        ConfiguredFunction fs mountedBinary base toml callParameters moduleName version name f) ∧
      (((hostEntries config).map Prod.fst).Nodup ↔
        ¬ (toml.loggerEnabled.getD true = true ∧
          ∃ hostCmd, Mounts fs base toml "log_utf8_string" hostCmd)) ∧
      ∀ key, 2 ≤ ((hostEntries config).map Prod.fst).count key → key.2 = "log_utf8_string" := by
  obtain ⟨config, hconfig, hfind⟩ := makeMarineConfig_imports log fs.display callParameters
    moduleName source loggerFilter
  have hmounts := find_hostImports hsource
  have hdefaults : source.loggerEnabled = toml.loggerEnabled.getD true ∧
      source.loggingMask = toml.loggingMask.getD Int32.maxValue := by
    obtain ⟨binaries, -, h⟩ := Fallible.bind_eq_ok_iff.mp hsource
    obtain ⟨hostImports, -, h⟩ := Fallible.bind_eq_ok_iff.mp h
    obtain ⟨wasi, -, h⟩ := Fallible.bind_eq_ok_iff.mp h
    cases h
    exact ⟨rfl, rfl⟩
  refine ⟨config, hconfig, fun version name f => ?_, ?_, fun key hkey => ?_⟩
  · have hraw : (∃ creator, config.rawImports.find version name = some creator ∧
        f = .raw creator) ↔ name = "log_utf8_string" ∧ toml.loggerEnabled.getD true = true ∧
          f = .raw ⟨toml.loggingMask.getD Int32.maxValue, moduleName⟩ := by
      rw [(hfind version name).1, hdefaults.1, hdefaults.2]
      by_cases hlogger : toml.loggerEnabled.getD true = true ∧ name = "log_utf8_string"
      · simp [hlogger, eq_comm]
      · rw [if_neg hlogger]
        simp only [reduceCtorEq, false_and, exists_false, false_iff]
        exact fun h => hlogger ⟨h.2.1, h.1⟩
    have hdescribed : (∃ descriptor, config.hostImports.find version name = some descriptor ∧
        f = .described descriptor) ↔
          (name = "get_call_parameters" ∧ f = .described (callParameters version)) ∨
          (name ≠ "get_call_parameters" ∧ ∃ hostCmd, Mounts fs base toml name hostCmd ∧
            f = .described (HostImports.createMountedBinaryImport (mountedBinary hostCmd))) := by
      by_cases hname : name = "get_call_parameters"
      · subst hname
        have hfound := (hfind version "get_call_parameters").2
        rw [if_pos rfl] at hfound
        simp [hfound, eq_comm]
      · have hfound := (hfind version name).2
        rw [if_neg hname] at hfound
        constructor
        · rintro ⟨descriptor, hdescriptor, rfl⟩
          obtain ⟨hostCmd, hmounted, rfl⟩ := (hmounts _ _ _).mp (hfound.symm.trans hdescriptor)
          exact .inr ⟨hname, hostCmd, hmounted, rfl⟩
        · rintro (⟨heq, -⟩ | ⟨-, hostCmd, hmounted, rfl⟩)
          · exact absurd heq hname
          · exact ⟨_, hfound.trans ((hmounts _ _ _).mpr ⟨hostCmd, hmounted, rfl⟩), rfl⟩
    rw [mem_hostEntries, hraw, hdescribed]
    exact or_left_comm
  · rw [nodup_hostEntries_iff]
    constructor
    · rintro hnone ⟨henabled, hostCmd, hmounted⟩
      rcases hnone .v0 "log_utf8_string" with h | h
      · rw [(hfind _ _).1, hdefaults.1, if_pos ⟨henabled, rfl⟩] at h
        cases h
      · rw [(hfind _ _).2, if_neg (by decide),
          (hmounts _ _ _).mpr ⟨hostCmd, hmounted, rfl⟩] at h
        cases h
    · intro hnot version name
      rw [(hfind version name).1, (hfind version name).2, hdefaults.1]
      by_cases hlogger : toml.loggerEnabled.getD true = true ∧ name = "log_utf8_string"
      · obtain ⟨henabled, rfl⟩ := hlogger
        right
        rw [if_neg (by decide), Option.eq_none_iff_forall_ne_some]
        intro descriptor hdescriptor
        obtain ⟨hostCmd, hmounted, -⟩ := (hmounts _ _ _).mp hdescriptor
        exact hnot ⟨henabled, hostCmd, hmounted⟩
      · exact .inl (if_neg hlogger)
  · obtain ⟨version, name, rfl, hraw, -⟩ := both_of_two_le_count hkey
    rw [(hfind version name).1] at hraw
    by_contra hname
    exact hraw (if_neg fun h => hname h.2)

/-- **The host functions of a configured module**, beside the adapters of its imports and
WASI, in any order of the maps.  Linking fails if one of these others has the key of a host
function, if two of them have one key, and for a logger beside a binary with its name. -/
theorem hostFunctions_of_config
    (hsource : moduleConfigOf fs mountedBinary base toml = .ok source)
    (log : HostImports.LogCrate)
    (callParameters : HostAPIVersion → HostImports.HostImportDescriptor)
    (moduleName : String) (loggerFilter : HostImports.LoggerFilter)
    (witImports : List WitImport) (wasi : List (ImportKey × HostFunction))
    (L : Type) [Linker L HostFunction] :
    ∃ config, makeMarineConfig log fs.display callParameters moduleName (some source)
        loggerFilter = .ok config ∧
      ∀ wit host : Namespaces HostFunction, (entriesOf wit).Perm (witEntries witImports) →
        (entriesOf host).Perm (hostEntries config) →
        ((∃ linker : L, WasmtimeImports.link wit wasi host = .ok linker) ↔
          ((witEntries witImports ++ wasi).map Prod.fst).Nodup ∧
          (∀ version name f, ConfiguredFunction fs mountedBinary base toml callParameters
            moduleName version name f →
              (nameSpaceOf version, name) ∉ (witEntries witImports ++ wasi).map Prod.fst) ∧
          ¬ (toml.loggerEnabled.getD true = true ∧
            ∃ hostCmd, Mounts fs base toml "log_utf8_string" hostCmd)) ∧
        (∀ key, (WasmtimeImports.link wit wasi host : Except ImportKey L) = .error key →
          key ∈ (witEntries witImports ++ wasi).map Prod.fst ∨ key.2 = "log_utf8_string") ∧
        ∀ linker : L, WasmtimeImports.link wit wasi host = .ok linker → ∀ version name f,
          Registry.lookup linker (nameSpaceOf version, name) = some f ↔
            ((nameSpaceOf version, name), f) ∈ witEntries witImports ++ wasi ∨
            ConfiguredFunction fs mountedBinary base toml callParameters moduleName version name
              f := by
  obtain ⟨config, hconfig, hmem, hnodup, htwice⟩ := hostEntries_of_config hsource log
    callParameters moduleName loggerFilter
  refine ⟨config, hconfig, fun wit host hwit hhost => ?_⟩
  obtain ⟨haccepted, hlookup, herror⟩ := link_perm (L := L) wasi hwit hhost
  refine ⟨?_, fun key hkey => ?_, fun linker hlinker version name f => ?_⟩
  · rw [haccepted, ← List.append_assoc, List.map_append, List.nodup_append, hnodup]
    refine and_congr_right fun _ => (and_comm.trans (and_congr_left fun _ => ?_))
    constructor
    · intro hdisjoint version name f hf hothers
      exact hdisjoint _ hothers _ (List.mem_map_of_mem ((hmem version name f).mpr hf)) rfl
    · rintro hdisjoint key hothers _ hkey rfl
      obtain ⟨version, name, rfl⟩ := hostKey_of_mem hkey
      obtain ⟨⟨_, f⟩, hf, heq⟩ := List.mem_map.mp hkey
      cases heq
      exact hdisjoint version name f ((hmem version name f).mp hf) hothers
  · by_contra hneither
    rw [not_or] at hneither
    have hcount := herror key hkey
    rw [← List.append_assoc, List.map_append, List.count_append,
      List.count_eq_zero_of_not_mem hneither.1, Nat.zero_add] at hcount
    exact hneither.2 (htwice key hcount)
  · rw [hlookup linker hlinker, ← List.append_assoc, List.mem_append, hmem]

end FromToml

/-- A configuration file under `/app`, where all paths are canonical. -/
def textPaths : FileSystem String where
  ofText := id
  isAbsolute path := path.toList.head? = some '/'
  join base path := if path.toList.head? = some '/' then path else base ++ "/" ++ path
  isFile _ := true
  canonicalize := .ok
  display := id
  read _ := .ok []
  join_absolute _ _ h := if_pos (of_decide_eq_true h)

/-- The SDK and a program that prints nothing. -/
def silentBinary (_ : String) : HostImports.MountedBinary where
  fromError retCode error := ⟨retCode, error, [], []⟩
  toInterfaceValue _ := .ok (.record [])
  command _ := .ok ⟨some 0, [], []⟩

/-- `mounted_binaries = { curl = "/usr/bin/curl" }`. -/
def curlConfig : TomlMarineModuleConfig where
  loggerEnabled := none
  loggingMask := none
  wasi := none
  mountedBinaries := some ((∅ : TomlTable).insert "curl" (.string "/usr/bin/curl"))

/-- An adapter, and a function of WASI. -/
def greetImport : WitImport := ⟨"greeting", "greet", [.i32, .i32], []⟩

def wasiFunctions : List (ImportKey × HostFunction) :=
  [(("wasi_snapshot_preview1", "fd_write"), .wasi "fd_write")]

/-- `curl` can be imported beside them; a module cannot be linked whose section implements
`curl` of the host itself. -/
theorem hostFunctions_of_config_curl : ∃ source config,
    ∃ linker : AList fun _ : ImportKey => HostFunction,
    moduleConfigOf textPaths silentBinary (some "/app") curlConfig = .ok source ∧
    makeMarineConfig HostImports.lowerCaseLevels id (fun _ => noImport) "front" (some source)
      .empty = .ok config ∧
    WasmtimeImports.link [("greeting", [("greet", .adapter greetImport)])] wasiFunctions
      (hostNameSpaces config) = .ok linker ∧
    Registry.lookup linker ("__marine_host_api_v2", "curl") =
      some (.described (HostImports.createMountedBinaryImport (silentBinary "/usr/bin/curl"))) ∧
    ∀ linker' : AList fun _ : ImportKey => HostFunction,
      WasmtimeImports.link [("host", [("curl", .adapter ⟨"host", "curl", [], []⟩)])] wasiFunctions
        (hostNameSpaces config) ≠ .ok linker' := by
  obtain ⟨source, hsource⟩ : ∃ source,
      moduleConfigOf textPaths silentBinary (some "/app") curlConfig = .ok source := ⟨_, rfl⟩
  have hmounted : Mounts textPaths (some "/app") curlConfig "curl" "/usr/bin/curl" :=
    ⟨"/usr/bin/curl", rfl, rfl⟩
  have hcurl : ∀ version, ConfiguredFunction textPaths silentBinary (some "/app") curlConfig
      (fun _ => noImport) "front" version "curl"
      (.described (HostImports.createMountedBinaryImport (silentBinary "/usr/bin/curl"))) :=
    fun version => .inr (.inr ⟨by decide, "/usr/bin/curl", hmounted, rfl⟩)
  obtain ⟨config, hconfig, hlinked⟩ := hostFunctions_of_config hsource
    HostImports.lowerCaseLevels (fun _ => noImport) "front" .empty [greetImport] wasiFunctions
    (AList fun _ : ImportKey => HostFunction)
  obtain ⟨config', hconfig', hrefused⟩ := hostFunctions_of_config hsource
    HostImports.lowerCaseLevels (fun _ => noImport) "front" .empty [⟨"host", "curl", [], []⟩]
    wasiFunctions (AList fun _ : ImportKey => HostFunction)
  cases hconfig.symm.trans hconfig'
  obtain ⟨hok, -, hlookup⟩ := hlinked [("greeting", [("greet", .adapter greetImport)])]
    (hostNameSpaces config) (.refl _) (.refl _)
  obtain ⟨hok', -, -⟩ := hrefused [("host", [("curl", .adapter ⟨"host", "curl", [], []⟩)])]
    (hostNameSpaces config) (.refl _) (.refl _)
  have hapart : ∀ version name,
      (nameSpaceOf version, name) ∉ (witEntries [greetImport] ++ wasiFunctions).map Prod.fst := by
    intro version name
    cases version <;> simp [witEntries, wasiFunctions, greetImport, nameSpaceOf]
  have hfreeName : ¬ (curlConfig.loggerEnabled.getD true = true ∧
      ∃ hostCmd, Mounts textPaths (some "/app") curlConfig "log_utf8_string" hostCmd) := by
    rintro ⟨-, hostCmd, text, htext, -⟩
    cases htext
  obtain ⟨linker, hlinker⟩ := hok.mpr ⟨by decide, fun version name f _ => hapart version name,
    hfreeName⟩
  refine ⟨source, config, linker, hsource, hconfig, hlinker,
    (hlookup linker hlinker .v2 "curl" _).mpr (.inr (hcurl .v2)), fun linker' hlinker' => ?_⟩
  exact (hok'.mp ⟨linker', hlinker'⟩).2.1 .v0 "curl" _ (hcurl .v0) List.mem_cons_self

end Marine.Loader
