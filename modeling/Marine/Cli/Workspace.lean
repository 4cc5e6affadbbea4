import Marine.Cli.Tools
import Marine.Lib.Maps
import Mathlib.Logic.Function.Basic

/-!
# Building a workspace

`marine build` on all that `cargo build` reports (`tools/cli/src/build.rs`): it collects the
Wasm files of the artifacts, each with the version of the SDK that its package has in
`Cargo.lock` (`tools/cli/src/cargo_manifest.rs`), and builds them one after another.  It
stops at the first file that cannot be built; what was built before stays.

* `mem_wasmsOf_iff`: which files are built, and with which version.
* `Progress.step`, `Progress.error`: what one file changes, and why one cannot be built.
* `build_workspace`: the files afterwards.
-/

namespace Marine.Cli

open Generator Fallible

/-! ## Versions of the SDK -/

def sdkCrateName : String := "marine-rs-sdk"

/-- A package of `Cargo.lock`. -/
structure LockedPackage (Version : Type) where
  name : String
  version : String
  dependencies : List (String × Version)

structure CargoPackage where
  name : String
  version : String

structure Manifest where
  dependencies : List String
  package : Option CargoPackage

inductive ManifestError
  | nonMarineWasm
  | unreadable (reason : String)
  | packageNotFoundInLockfile (packageName packageVersion : String)
  | sdkDependencyNotFoundInLockfile (packageName packageVersion : String)
  | noPackageInManifest (path : String)

inductive DiagnosticMessage
  | buildScriptExecuted
  | buildFinished
  | compilerArtifact (filenames : List String) (manifestPath : String)
  | runWithArgs

/-- What is read of a workspace: `serde_json` reads the lines of cargo, `cargo_toml` the
manifests. -/
structure Workspace (Version : Type) where
  fromStr : String → Option DiagnosticMessage
  fromPath : String → Except ManifestError Manifest
  lockfile : List (LockedPackage Version)

namespace Workspace

variable {Version : Type} (workspace : Workspace Version)

def extractSdkVersionFromLockfile (targetPackage : CargoPackage) : Except ManifestError Version :=
  match workspace.lockfile.find? fun package =>
      package.name = targetPackage.name ∧ package.version = targetPackage.version with
  | none => .error (.packageNotFoundInLockfile targetPackage.name targetPackage.version)
  | some package =>
    match package.dependencies.find? fun dependency => dependency.1 = sdkCrateName with
    | none => .error (.sdkDependencyNotFoundInLockfile targetPackage.name targetPackage.version)
    | some dependency => .ok dependency.2

def extractSdkVersion (path : String) : Except ManifestError Version := do
  let manifest ← workspace.fromPath path
  if sdkCrateName ∈ manifest.dependencies then
    match manifest.package with
    | none => .error (.noPackageInManifest path)
    | some package => workspace.extractSdkVersionFromLockfile package
  else .error .nonMarineWasm

def isWasm (name : String) : Bool := ".wasm".toList.isSuffixOf name.toList

/-- The Wasm files that one line adds.  A manifest that gives no version is only logged. -/
def newWasms (line : String) : List (String × Version) :=
  match workspace.fromStr line with
  | some (.compilerArtifact filenames manifestPath) =>
    match workspace.extractSdkVersion manifestPath with
    | .ok sdkVersion => (filenames.filter isWasm).map fun name => (name, sdkVersion)
    | .error _ => []
  | _ => []

def wasmsOf (lines : List String) : List (String × Version) :=
  lines.foldl (fun wasms line => wasms ++ workspace.newWasms line) []

variable {name : String} {sdkVersion : Version}

theorem mem_newWasms_iff (line : String) :
    (name, sdkVersion) ∈ workspace.newWasms line ↔ ∃ filenames manifestPath,
      workspace.fromStr line = some (.compilerArtifact filenames manifestPath) ∧
      name ∈ filenames ∧ isWasm name ∧
      workspace.extractSdkVersion manifestPath = .ok sdkVersion := by
  unfold newWasms
  split
  · rename_i filenames manifestPath hline
    simp only [hline, Option.some.injEq, DiagnosticMessage.compilerArtifact.injEq]
    cases hversion : workspace.extractSdkVersion manifestPath with
    | error e =>
      constructor
      · intro hmem
        cases hmem
      · rintro ⟨_, _, ⟨rfl, rfl⟩, -, -, hok⟩
        cases hversion.symm.trans hok
    | ok version =>
      simp only [List.mem_map, List.mem_filter, Prod.mk.injEq]
      constructor
      · rintro ⟨_, ⟨hname, hwasm⟩, rfl, rfl⟩
        exact ⟨_, _, ⟨rfl, rfl⟩, hname, hwasm, hversion⟩
      · rintro ⟨_, _, ⟨rfl, rfl⟩, hname, hwasm, hok⟩
        cases hversion.symm.trans hok
        exact ⟨_, ⟨hname, hwasm⟩, rfl, rfl⟩
  · rename_i hother
    constructor
    · intro hmem
      cases hmem
    · rintro ⟨filenames, manifestPath, hline, -⟩
      exact absurd hline (hother filenames manifestPath)

theorem foldl_newWasms (lines : List String) (wasms : List (String × Version)) :
    lines.foldl (fun wasms line => wasms ++ workspace.newWasms line) wasms =
      wasms ++ lines.flatMap workspace.newWasms := by
  induction lines generalizing wasms with
  | nil => simp
  | cons line lines ih => rw [List.foldl_cons, ih, List.flatMap_cons, List.append_assoc]

/-- **Which files are built.** -/
theorem mem_wasmsOf_iff (lines : List String) :
    (name, sdkVersion) ∈ workspace.wasmsOf lines ↔ ∃ line ∈ lines, ∃ filenames manifestPath,
      workspace.fromStr line = some (.compilerArtifact filenames manifestPath) ∧
      name ∈ filenames ∧ isWasm name ∧
      workspace.extractSdkVersion manifestPath = .ok sdkVersion := by
  rw [wasmsOf, foldl_newWasms, List.nil_append, List.mem_flatMap]
  exact exists_congr fun line => and_congr_right fun _ => workspace.mem_newWasms_iff line

end Workspace

/-! ## Building -/

inductive BuildError
  | corruptedWasm (path : String)
  | command (e : CLIError)

variable {C Id Version : Type} [DecidableEq Id]

namespace Tools

variable (tools : Tools C Id Version)

/-- One file; `none` stands for what is no module. -/
def buildFile (files : String → Option C) (wasm : String × Version) :
    Except BuildError (String → Option C) :=
  match files wasm.1 with
  | none => .error (.corruptedWasm wasm.1)
  | some wasmModule => do
    let built ← (tools.run wasmModule (.build wasm.2)).mapError .command
    return Function.update files wasm.1 (some built)

/-- The loop over the files, with what it leaves. -/
def buildAll (files : String → Option C) :
    List (String × Version) → (String → Option C) × Except BuildError Unit
  | [] => (files, .ok ())
  | wasm :: wasms =>
    match tools.buildFile files wasm with
    | .error e => (files, .error e)
    | .ok files => buildAll files wasms

def build (workspace : Workspace Version) (files : String → Option C) (lines : List String) :
    (String → Option C) × Except BuildError Unit :=
  tools.buildAll files (workspace.wasmsOf lines)

/-- The module of a file was built from the one that was there. -/
def BuiltFrom (before after : Option C) (version : Version) : Prop :=
  ∃ m built moduleAst interfaces, before = some m ∧ after = some built ∧
    tools.wasmAstExtractor m = .ok moduleAst ∧
    generateInterfaces tools.deps moduleAst = .ok interfaces ∧
    tools.Carries built (tools.kept m) [⟨tools.itVersion, interfaces⟩] version

/-- The files while those of `done` are built.  A file that stands there more than once has
the last version. -/
structure Progress (before : String → Option C) (done : List (String × Version))
    (files : String → Option C) : Prop where
  untouched : ∀ path, path ∉ done.map Prod.fst → files path = before path
  built : ∀ path version, (Maps.valuesOf done path).getLast? = some version →
    tools.BuiltFrom (before path) (files path) version

end Tools

section Progress

variable {tools : Tools C Id Version} {before files files' : String → Option C}
  {done : List (String × Version)} {wasm : String × Version}

theorem Tools.buildFile_ok (h : tools.buildFile files wasm = .ok files') :
    ∃ m built, files wasm.1 = some m ∧ tools.run m (.build wasm.2) = .ok built ∧
      files' = Function.update files wasm.1 (some built) := by
  unfold Tools.buildFile at h
  cases hfile : files wasm.1 with
  | none =>
    rw [hfile] at h
    cases h
  | some m =>
    rw [hfile] at h
    obtain ⟨built, hrun, h⟩ := bind_eq_ok_iff.mp h
    cases h
    exact ⟨m, built, rfl, mapError_eq_ok_iff.mp hrun, rfl⟩

namespace Tools.Progress

theorem nil (before : String → Option C) : tools.Progress before [] before where
  untouched _ _ := rfl
  built _ _ hversion := nomatch hversion

/-- A file that was built has a version. -/
theorem exists_version {path : String} (hpath : path ∈ done.map Prod.fst) :
    ∃ version, (Maps.valuesOf done path).getLast? = some version := by
  obtain ⟨⟨_, version⟩, hmem, rfl⟩ := List.mem_map.mp hpath
  have hne : Maps.valuesOf done _ ≠ [] := List.ne_nil_of_mem (Maps.mem_valuesOf.mpr hmem)
  exact ⟨_, List.getLast?_eq_some_getLast hne⟩

/-- What is there now has the description of what was there. -/
theorem source (h : tools.Progress before done files) {path : String} {m : C}
    (hm : files path = some m) : ∃ m₀, before path = some m₀ ∧ tools.kept m = tools.kept m₀ := by
  by_cases hpath : path ∈ done.map Prod.fst
  · obtain ⟨version, hversion⟩ := exists_version hpath
    obtain ⟨m₀, built, _, _, hbefore, hbuilt, -, -, hcarries⟩ := h.built path version hversion
    cases hm.symm.trans hbuilt
    exact ⟨m₀, hbefore, hcarries.kept⟩
  · exact ⟨m, (h.untouched path hpath).symm.trans hm, rfl⟩

/-- **Step lemma.** -/
theorem step (h : tools.Progress before done files)
    (hbuild : tools.buildFile files wasm = .ok files') :
    tools.Progress before (done ++ [wasm]) files' := by
  obtain ⟨m, built, hm, hrun, rfl⟩ := buildFile_ok hbuild
  constructor
  · intro path hpath
    rw [List.map_append, List.mem_append, not_or] at hpath
    have hne : path ≠ wasm.1 := fun heq => hpath.2 (by simp [heq])
    rw [Function.update_of_ne hne, h.untouched path hpath.1]
  · intro path version hversion
    rw [Maps.valuesOf_concat] at hversion
    by_cases heq : wasm.1 = path
    · subst heq
      rw [if_pos rfl, List.getLast?_concat] at hversion
      cases hversion
      obtain ⟨m₀, hbefore, hkept⟩ := h.source hm
      obtain ⟨moduleAst, interfaces, hast, hgenerated, hcarries⟩ := carries_build hrun
      rw [wasmAstExtractor_congr hkept] at hast
      rw [hkept] at hcarries
      exact ⟨m₀, built, moduleAst, interfaces, hbefore, Function.update_self .., hast, hgenerated,
        hcarries⟩
    · rw [if_neg heq, List.append_nil] at hversion
      rw [Function.update_of_ne (Ne.symm heq)]
      exact h.built path version hversion

/-- **A file that cannot be built** is one that could not be built at the start. -/
theorem error (h : tools.Progress before done files) {e : BuildError}
    (hbuild : tools.buildFile files wasm = .error e) :
    wasm.1 ∉ done.map Prod.fst ∧ tools.buildFile before wasm = .error e := by
  have hnew : wasm.1 ∉ done.map Prod.fst := by
    intro hpath
    obtain ⟨version, hversion⟩ := exists_version hpath
    obtain ⟨m₀, built, _, _, -, hbuilt, hast, hgenerated, hcarries⟩ :=
      h.built wasm.1 version hversion
    rw [← wasmAstExtractor_congr hcarries.kept] at hast
    obtain ⟨rebuilt, hrebuilt⟩ : ∃ rebuilt, tools.run built (.build wasm.2) = .ok rebuilt :=
      build_ok hast hgenerated
    unfold buildFile at hbuild
    rw [hbuilt] at hbuild
    simp only [hrebuilt] at hbuild
    cases hbuild
  refine ⟨hnew, ?_⟩
  unfold buildFile at hbuild ⊢
  rw [← h.untouched wasm.1 hnew]
  cases hfile : files wasm.1 with
  | none =>
    rw [hfile] at hbuild
    exact hbuild
  | some m =>
    rw [hfile] at hbuild
    exact bind_pure_eq_error_iff.mpr (bind_pure_eq_error_iff.mp hbuild)

/-- **Run lemma.** -/
theorem run (h : tools.Progress before done files) (wasms : List (String × Version)) :
    ∃ built rest, wasms = built ++ rest ∧
      tools.Progress before (done ++ built) (tools.buildAll files wasms).1 ∧
      ((tools.buildAll files wasms).2 = .ok () ∧ rest = [] ∨
        ∃ wasm rest' e, rest = wasm :: rest' ∧ (tools.buildAll files wasms).2 = .error e ∧
          wasm.1 ∉ (done ++ built).map Prod.fst ∧ tools.buildFile before wasm = .error e) := by
  induction wasms generalizing done files with
  | nil => exact ⟨[], [], rfl, by simpa [buildAll] using h, .inl ⟨rfl, rfl⟩⟩
  | cons wasm wasms ih =>
    cases hbuild : tools.buildFile files wasm with
    | error e =>
      have hstop : tools.buildAll files (wasm :: wasms) = (files, .error e) := by
        rw [buildAll, hbuild]
      obtain ⟨hnew, hbefore⟩ := h.error hbuild
      rw [hstop]
      exact ⟨[], wasm :: wasms, rfl, by simpa using h,
        .inr ⟨wasm, wasms, e, rfl, rfl, by simpa using hnew, hbefore⟩⟩
    | ok files' =>
      have hnext : tools.buildAll files (wasm :: wasms) = tools.buildAll files' wasms := by
        rw [buildAll, hbuild]
      obtain ⟨built, rest, hwasms, hprogress, houtcome⟩ := ih (h.step hbuild)
      rw [hnext]
      rw [List.append_assoc, List.singleton_append] at hprogress houtcome
      exact ⟨wasm :: built, rest, by rw [hwasms, List.cons_append], hprogress, houtcome⟩

end Tools.Progress

end Progress

/-- **What `marine build` leaves.**  The files that it builds are the Wasm files of cargo's
artifacts whose package has a version of the SDK in `Cargo.lock`.  It builds them up to the
first one that could not be built as it was at the start; if there is none it succeeds.
A file behind that one, or of no such package, is left as it is; the others have the
interface types of their own description, with the last version they are listed with. -/
theorem build_workspace (tools : Tools C Id Version) (workspace : Workspace Version)
    (files : String → Option C) (lines : List String) :
    ∃ done rest, workspace.wasmsOf lines = done ++ rest ∧
      (∀ name sdkVersion, (name, sdkVersion) ∈ workspace.wasmsOf lines ↔
        ∃ line ∈ lines, ∃ filenames manifestPath,
          workspace.fromStr line = some (.compilerArtifact filenames manifestPath) ∧
          name ∈ filenames ∧ Workspace.isWasm name ∧
          workspace.extractSdkVersion manifestPath = .ok sdkVersion) ∧
      (∀ path, path ∉ done.map Prod.fst →
        (tools.build workspace files lines).1 path = files path) ∧
      (∀ path version, (Maps.valuesOf done path).getLast? = some version →
        tools.BuiltFrom (files path) ((tools.build workspace files lines).1 path) version) ∧
      ((tools.build workspace files lines).2 = .ok () ∧ rest = [] ∨
        ∃ wasm rest' e, rest = wasm :: rest' ∧
          (tools.build workspace files lines).2 = .error e ∧
          wasm.1 ∉ done.map Prod.fst ∧ tools.buildFile files wasm = .error e) := by
  have hstart : tools.Progress files [] files := Tools.Progress.nil files
  obtain ⟨done, rest, hwasms, hprogress, houtcome⟩ := hstart.run (workspace.wasmsOf lines)
  exact ⟨done, rest, hwasms, fun _ _ => workspace.mem_wasmsOf_iff lines, hprogress.untouched,
    hprogress.built, houtcome⟩

end Marine.Cli
