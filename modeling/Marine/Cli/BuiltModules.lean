import Marine.Cli.Tools
import Marine.Generator.Dangling
import Marine.Loader.Acceptance
import Marine.Loader.DeclaredInterface
import Marine.Loader.InterfaceClosure
import Marine.Loader.LinkedCalls
import Marine.Service.ServiceInterface

/-!
# Loading of built modules

From the description of a module to the module in the runtime: `marine build` writes two
sections, and `MModule::new` reads them (`core/src/misc/version_checker.rs`,
`core/src/module/marine_module.rs`).

* `newModule_ok_iff`: when a module that carries the two sections is loaded.
* `declared_of_newModule`: a loaded module exports what its description declares.
* `builtModule_declared`: both, for what `marine build` has made.
-/

namespace Marine.Cli

open Marine.Runtime Generator Loader CustomSections Fallible

/-! ## Versions -/

inductive PrepareError (Version : Type)
  | moduleVersionParseError (e : ModuleInfoError)
  | incompatibleSDKVersions (moduleName : String) (required provided : Version)
  | incompatibleITVersions (moduleName : String) (required provided : Version)

variable {C Id Version : Type} [DecidableEq Id]

theorem extractIt_eq {tools : Tools C Id Version} {wasmModule : C} {kept : List CustomSection}
    {it : ItSection Version} {version : Version}
    (h : tools.Carries wasmModule kept [it] version) :
    extractItFromModule tools.coll tools.codec wasmModule = .ok it :=
  (h.readers.1.mpr rfl).interfaces

variable [LT Version] [DecidableLT Version]

/-- The minimal versions of `crates/min-it-version`, and the texts of errors. -/
structure VersionChecker (sdk : Sdk Version) where
  minSdkVersion : Version
  minItVersion : Version
  minSdkVersion_eq : sdk.fromStr "0.6.0" = .ok minSdkVersion
  minItVersion_eq : sdk.fromStr "0.20.0" = .ok minItVersion
  prepareText : PrepareError Version → String
  parserText : ITParserError → String

namespace VersionChecker

variable {tools : Tools C Id Version} (checker : VersionChecker tools.sdk)

def checkSdkVersion (name : String) (wasmModule : C) : Except (PrepareError Version) Unit := do
  let moduleVersion ← (extractFromCompiledModule tools.coll tools.sdk.toSemVer wasmModule).mapError
    .moduleVersionParseError
  if moduleVersion < checker.minSdkVersion then
    .error (.incompatibleSDKVersions name checker.minSdkVersion moduleVersion)
  else .ok ()

def checkItVersion (name : String) (itVersion : Version) : Except (PrepareError Version) Unit :=
  if itVersion < checker.minItVersion then
    .error (.incompatibleITVersions name checker.minItVersion itVersion)
  else .ok ()

/-- The stages of `MModule::new` that read the sections; the others are those of `run`. -/
def reading (run : ModuleRun) (name : String) (wasmModule : C) : ModuleRun :=
  let it := extractItFromModule tools.coll tools.codec wasmModule
  { run with
    checkSdkVersion := (checker.checkSdkVersion name wasmModule).mapError
      fun e => .prepareError (checker.prepareText e)
    extractIt := (it.map ItSection.interfaces).mapError
      fun e => .witParseError (checker.parserText e)
    checkItVersion := match it with
      | .ok it => (checker.checkItVersion name it.version).mapError
          fun e => .prepareError (checker.prepareText e)
      | .error _ => .ok () }

end VersionChecker

/-- The stages for interfaces that are known, with accepted versions. -/
def knownInterfaces (run : ModuleRun) (interfaces : Interfaces) : ModuleRun :=
  { run with checkSdkVersion := .ok (), extractIt := .ok interfaces, checkItVersion := .ok () }

section Versions

variable {tools : Tools C Id Version} {checker : VersionChecker tools.sdk} {wasmModule : C}
  {kept : List CustomSection} {it : ItSection Version} {version : Version}

theorem checkSdkVersion_eq (h : tools.Carries wasmModule kept [it] version) (name : String) :
    checker.checkSdkVersion name wasmModule =
      if version < checker.minSdkVersion then
        .error (.incompatibleSDKVersions name checker.minSdkVersion version)
      else .ok () := by
  rw [VersionChecker.checkSdkVersion, h.readers.2.2.compiledModule]
  rfl

/-- **Old modules.** -/
theorem newModule_oldSdk (h : tools.Carries wasmModule kept [it] version) (checks : Bool)
    {run : ModuleRun} (hwasm : run.wasmModule = .ok ()) (name : String)
    (modules : AList fun _ : String => MModule) (hold : version < checker.minSdkVersion) :
    newModule checks (checker.reading run name wasmModule) name modules =
      .error (.error (.prepareError (checker.prepareText
        (.incompatibleSDKVersions name checker.minSdkVersion version)))) := by
  have hchecked : (checker.reading run name wasmModule).checkSdkVersion =
      .error (.prepareError (checker.prepareText
        (.incompatibleSDKVersions name checker.minSdkVersion version))) := by
    simp only [VersionChecker.reading, checkSdkVersion_eq h, if_pos hold]
    rfl
  have hwasm' : (checker.reading run name wasmModule).wasmModule = .ok () := hwasm
  rw [newModule, newModuleFrom, hwasm', hchecked]
  rfl

/-- **A module with both sections** is loaded if its versions are accepted and the rest
of `MModule::new` succeeds for its interfaces. -/
theorem newModule_ok_iff (checker : VersionChecker tools.sdk)
    (h : tools.Carries wasmModule kept [it] version) (checks : Bool) (run : ModuleRun)
    (name : String) (modules : AList fun _ : String => MModule) (module : MModule) :
    newModule checks (checker.reading run name wasmModule) name modules = .ok module ↔
      ¬ version < checker.minSdkVersion ∧ ¬ it.version < checker.minItVersion ∧
        newModule checks (knownInterfaces run it.interfaces) name modules = .ok module := by
  have hsdk : (checker.reading run name wasmModule).checkSdkVersion = .ok () ↔
      ¬ version < checker.minSdkVersion := by
    simp only [VersionChecker.reading, checkSdkVersion_eq h, mapError_eq_ok_iff]
    split <;> simp_all
  have hit : (checker.reading run name wasmModule).extractIt = .ok it.interfaces := by
    simp only [VersionChecker.reading, extractIt_eq h]
    rfl
  have hversion : (checker.reading run name wasmModule).checkItVersion = .ok () ↔
      ¬ it.version < checker.minItVersion := by
    simp only [VersionChecker.reading, extractIt_eq h, mapError_eq_ok_iff,
      VersionChecker.checkItVersion]
    split <;> simp_all
  have hrest : ∀ mit,
      processTables checks (checker.reading run name wasmModule) name modules mit =
        processTables checks (knownInterfaces run it.interfaces) name modules mit :=
    fun _ => rfl
  have hcall : ∀ instance_ funcName,
      callIfExported (checker.reading run name wasmModule) instance_ funcName =
        callIfExported (knownInterfaces run it.interfaces) instance_ funcName :=
    fun _ _ => rfl
  have hwasm : (checker.reading run name wasmModule).wasmModule =
      (knownInterfaces run it.interfaces).wasmModule := rfl
  have hknownSdk : (knownInterfaces run it.interfaces).checkSdkVersion = .ok () := rfl
  have hknownIt : (knownInterfaces run it.interfaces).extractIt = .ok it.interfaces := rfl
  have hknownVersion : (knownInterfaces run it.interfaces).checkItVersion = .ok () := rfl
  simp only [newModule, newModuleFrom, bind_eq_ok_iff, orError_eq_ok_iff, hsdk, hit, hversion,
    hrest, hcall, hwasm, hknownSdk, hknownIt, hknownVersion]
  constructor
  · rintro ⟨⟨⟩, hwasm, ⟨⟩, hsdk, it', hit', ⟨⟩, hversion, hprocessed⟩
    exact ⟨hsdk, hversion, (), hwasm, (), trivial, it', hit', (), trivial, hprocessed⟩
  · rintro ⟨hsdk, hversion, ⟨⟩, hwasm, ⟨⟩, -, it', hit', ⟨⟩, -, hprocessed⟩
    exact ⟨(), hwasm, (), hsdk, it', hit', (), hversion, hprocessed⟩

end Versions

/-! ## Declarations -/

/-- The module exports what is declared: `names` gives the records of the description the
numbers that they have in the module.  A record without a description is the default one. -/
structure Declared (deps : Externals) (moduleAst : ModuleAST) (module : MModule)
    (names : ITResolver) : Prop where
  injective : ∀ name name' id, names.types.lookup name = some id →
    names.types.lookup name' = some id → name = name'
  functionNames : ∀ name, name ∈ module.exportFuncs ↔
    ∃ f ∈ moduleAst.functions, f.signature.name = name
  functions : ∀ name callable, module.exportFuncs.lookup name = some callable →
    ∃ f ∈ moduleAst.functions, f.signature.name = name ∧
      List.Forall₂ (fun arg a => a.name = arg.name ∧ ptypeToItypeChecked names arg.ty = .ok a.ty)
        f.signature.arguments callable.arguments ∧
      List.Forall₂ (fun ty t => ptypeToItypeChecked names ty = .ok t) f.signature.outputTypes
        callable.outputTypes
  records : ∀ id recordType, module.exportRecordTypes.lookup id = some recordType →
    ∃ name, names.types.lookup name = some id ∧
      ((∃ record ∈ moduleAst.records, record.name = name ∧ BuiltFrom names record recordType) ∨
        (described moduleAst.records).lookup name = none ∧ recordType = deps.defaultRecord)

section Declarations

variable {deps : Externals} {moduleAst : ModuleAST} {interfaces : Interfaces}

/-- A record that can be reached from a declared type has a declared name. -/
theorem named_of_reaches {records : List RecordType} {r : ITResolver} {all : RecordTypes}
    (hmatch : RecordsMatch deps records r)
    (hall : ∀ name id, r.types.lookup name = some id → all.lookup id = r.recordOf name)
    (hdefault : ∀ field ∈ deps.defaultRecord.fields, isScalar field.ty) {ty : ParsedType}
    {t : IType} (ht : ptypeToItypeChecked r ty = .ok t) {id : Nat}
    (hreach : ReachesRecord all t id) : ∃ name, r.types.lookup name = some id := by
  obtain ⟨n, hpath⟩ := hreach
  obtain ⟨ty', -, hty'⟩ := hpath.simulate (R := fun t ty => Stands r ty t)
    (fun _ _ hR _ _ hin => innerDescribed_of_innerTypes hmatch hall hdefault hR hin) (.inl ht)
  rcases hty' with hchecked | ⟨-, hscalar⟩
  · exact lookup_of_mentioned hchecked rfl
  · cases hscalar

/-- **A loaded module exports what it declares.** -/
theorem declared_of_newModule (hdefault : ∀ field ∈ deps.defaultRecord.fields, isScalar field.ty)
    (hgenerated : generateInterfaces deps moduleAst = .ok interfaces) {checks : Bool}
    {run : ModuleRun} (hit : run.extractIt = .ok interfaces) {name : String}
    {modules : AList fun _ : String => MModule} {module : MModule}
    (h : newModule checks run name modules = .ok module) :
    ∃ names, Declared deps moduleAst module names := by
  obtain ⟨r, l, hrecords, -, hof, rfl⟩ := generateInterfaces_layout hgenerated
  have hmatch := recordsMatch_records hrecords
  have hall := lookup_getAllRecords hof hmatch.wellNamed
  obtain ⟨it, hit', hexports⟩ := Service.newModule_exports h
  cases hit.symm.trans hit'
  obtain ⟨iface, hiface, hrecordTypes, hnames, hfuncs⟩ := Service.instantiateExports_ok hexports
  obtain ⟨signatures, hsignatures, hperm⟩ := @getExportFuncs_perm deps l (hof.base ▸ hof.api)
  have hsame : iface.functionSignatures = signatures := by
    obtain ⟨signatures', hsignatures', hrest⟩ := bind_eq_ok_iff.mp hiface
    cases hsignatures.symm.trans hsignatures'
    obtain ⟨full, -, hrest⟩ := bind_eq_ok_iff.mp hrest
    cases hrest
    rfl
  -- what a signature of the section is the signature of
  have hdeclared : ∀ s ∈ iface.functionSignatures, ∃ e ∈ l.fns, s.name = e.fn.signature.name ∧
      s.arguments = e.arguments ∧ s.outputs = e.outputTypes := by
    intro s hs
    rw [hsame, hperm.mem_iff, Maps.mem_mapIdx_iff] at hs
    obtain ⟨k, e, he, rfl⟩ := hs
    exact ⟨e, List.mem_of_getElem? he, rfl, rfl, rfl⟩
  have hfn : ∀ e ∈ l.fns, e.fn ∈ moduleAst.functions :=
    fun e he => hof.fns ▸ List.mem_map_of_mem he
  refine ⟨r, hmatch.wellNamed.injective, fun fname => ?_, fun fname callable hcallable => ?_,
    fun id record hid => ?_⟩
  · rw [hnames]
    constructor
    · rintro ⟨s, hs, rfl⟩
      obtain ⟨e, he, hname, -⟩ := hdeclared s hs
      exact ⟨e.fn, hfn e he, hname.symm⟩
    · rintro ⟨f, hf, rfl⟩
      rw [← hof.fns] at hf
      obtain ⟨e, he, rfl⟩ := List.mem_map.mp hf
      obtain ⟨k, hk⟩ := List.mem_iff_getElem?.mp he
      refine ⟨extracted l k e, ?_, rfl⟩
      rw [hsame, hperm.mem_iff, Maps.mem_mapIdx_iff]
      exact ⟨k, e, hk, rfl⟩
  · obtain ⟨s, hs, rfl, hargs, houts⟩ := hfuncs fname callable hcallable
    obtain ⟨e, he, hname, hargs', houts'⟩ := hdeclared s hs
    have hmade := hof.fnsMade e he
    refine ⟨e.fn, hfn e he, hname.symm, ?_, ?_⟩
    · rw [← hargs, hargs']
      exact generateItArgs_forall₂ hmade.arguments
    · rw [← houts, houts']
      exact mapM_eq_ok_iff.mp hmade.outputTypes
  · rw [hrecordTypes] at hid
    obtain ⟨hreached, htypes⟩ := getInterface_closure hiface id
    obtain ⟨s, hs, t, ht, hreach⟩ := hreached.mp (hid ▸ rfl)
    obtain ⟨e, he, -, hargs, houts⟩ := hdeclared s hs
    rw [IFunctionSignature.itypes, hargs, houts] at ht
    obtain ⟨ty, -, hty⟩ := exists_left_of_mem (signatureTypes_made (hof.fnsMade e he)) ht
    obtain ⟨declaredName, hnamed⟩ := named_of_reaches hmatch hall hdefault hty hreach
    have hrecord : r.recordOf declaredName = some record := by
      rw [← hall declaredName id hnamed]
      exact (getAllRecords_eq_some_iff _ id record).mpr (htypes record hid)
    refine ⟨declaredName, hnamed, ?_⟩
    cases hdescribed : (described moduleAst.records).lookup declaredName with
    | none =>
      have hholds := hmatch.holds declaredName record hrecord
      rw [Holds, hdescribed] at hholds
      exact .inr ⟨rfl, hholds⟩
    | some fields =>
      exact .inl (keepsDefinitions_records hrecords declaredName record (hdescribed ▸ rfl) hrecord)

end Declarations

/-- **From the description to the runtime.**  A module that was built is loaded under any
name exactly if its versions are not too old and `MModule::new` succeeds for the
generated interface types, under either profile; an old one is refused by its version.  A
loaded one exports the functions and the records of its description. -/
theorem builtModule_declared {tools : Tools C Id Version} (checker : VersionChecker tools.sdk)
    (hdefault : ∀ field ∈ tools.deps.defaultRecord.fields, isScalar field.ty) {m built : C}
    {sdkVersion : Version} (h : tools.run m (.build sdkVersion) = .ok built) (checks : Bool)
    (run : ModuleRun) (name : String) (modules : AList fun _ : String => MModule) :
    ∃ moduleAst interfaces, tools.wasmAstExtractor m = .ok moduleAst ∧
      generateInterfaces tools.deps moduleAst = .ok interfaces ∧
      (run.wasmModule = .ok () → sdkVersion < checker.minSdkVersion →
        newModule checks (checker.reading run name built) name modules =
          .error (.error (.prepareError (checker.prepareText
            (.incompatibleSDKVersions name checker.minSdkVersion sdkVersion))))) ∧
      ∀ module, (newModule checks (checker.reading run name built) name modules = .ok module ↔
          ¬ sdkVersion < checker.minSdkVersion ∧ ¬ tools.itVersion < checker.minItVersion ∧
            newModule checks (knownInterfaces run interfaces) name modules = .ok module) ∧
        (newModule checks (checker.reading run name built) name modules = .ok module →
          ∃ names, Declared tools.deps moduleAst module names) := by
  obtain ⟨moduleAst, interfaces, hast, hgenerated, hcarries⟩ := Tools.carries_build h
  refine ⟨moduleAst, interfaces, hast, hgenerated, fun hwasm hold => ?_, fun module => ?_⟩
  · exact newModule_oldSdk hcarries checks hwasm name modules hold
  · have hiff := newModule_ok_iff checker hcarries checks run name modules module
    refine ⟨hiff, fun hloaded => ?_⟩
    exact declared_of_newModule hdefault hgenerated rfl (hiff.mp hloaded).2.2

def greetChecker : VersionChecker greetTools.sdk where
  minSdkVersion := "0.6.0"
  minItVersion := "0.20.0"
  minSdkVersion_eq := rfl
  minItVersion_eq := rfl
  prepareText _ := "prepare"
  parserText _ := "parser"

/-- Nothing fails beside the two sections. -/
def greetRun : ModuleRun := smoothRun ⟨[], [], [], [], []⟩

theorem builtModule_declared_greet : ∃ built module,
    greetTools.run greetWasm (.build "0.7.0") = .ok built ∧
    newModule true (greetChecker.reading greetRun "greeter" built) "greeter" ∅ = .ok module ∧
    "greet" ∈ module.exportFuncs := by
  have hbuilt : ∃ built, greetTools.run greetWasm (.build "0.7.0") = .ok built := ⟨_, rfl⟩
  obtain ⟨built, hbuilt⟩ := hbuilt
  obtain ⟨moduleAst, interfaces, hast, hgenerated, -, hmodule⟩ :=
    builtModule_declared greetChecker (by decide) hbuilt true greetRun "greeter" ∅
  cases hast
  have hloads : ∃ module, newModule true (knownInterfaces greetRun interfaces) "greeter" ∅ =
      .ok module := by
    cases hgenerated
    exact ⟨_, rfl⟩
  obtain ⟨module, hloads⟩ := hloads
  obtain ⟨hiff, hdeclared⟩ := hmodule module
  have hloaded := hiff.mpr ⟨by decide, by decide, hloads⟩
  obtain ⟨names, hnames⟩ := hdeclared hloaded
  refine ⟨built, module, hbuilt, hloaded, (hnames.functionNames "greet").mpr ?_⟩
  exact ⟨_, List.mem_cons_self .., rfl⟩

end Marine.Cli
