import Marine.Loader.ItInstance

/-!
# Linking errors

`ITInstance::extract_imports` looks up the module and the function of each
implemented import.  An error is the one of some import, but the module name in
a `NoSuchFunction` is that of the module with the import.

* `extractImport_spec`: one import.
* `extractImports_links`: all imports of a module.
* `linking_error_misleads`: two imports for which the errors do not lead to what
  is missing.
-/

namespace Marine.Loader

open Marine.Runtime Fallible

section Linking

variable (moduleName : String) (modules : AList fun _ : String => MModule) (wit : MITInterfaces)

/-- The namespace of the import is a loaded module, the type two places before
the type of the import is that of a function, and the module exports the name. -/
def Links (i : Import) : Prop :=
  ∃ module arguments outputTypes, modules.lookup i.nameSpace = some module ∧
    wit.typeByIdx (wrappingSub i.functionType 2) = some (.function arguments outputTypes) ∧
    (module.exportFuncs.lookup i.name).isSome

/-- The errors for one import. -/
inductive LinkError (i : Import) : MError → Prop
  | noSuchModule (hmodule : modules.lookup i.nameSpace = none) :
      LinkError i (.noSuchModule i.nameSpace)
  | noSuchType {module : MModule} (hmodule : modules.lookup i.nameSpace = some module)
      (hty : wit.typeByIdx (wrappingSub i.functionType 2) = none) :
      LinkError i (.ofMITInterfacesError (.noSuchType (wrappingSub i.functionType 2)))
  | notFunction {module : MModule} {recordType : IRecordType} {text : String}
      (hmodule : modules.lookup i.nameSpace = some module)
      (hty : wit.typeByIdx (wrappingSub i.functionType 2) = some (.record recordType)) :
      LinkError i (.incorrectWIT text)
  | noSuchFunction {module : MModule} {name : String}
      (hmodule : modules.lookup i.nameSpace = some module)
      (hfunc : module.exportFuncs.lookup i.name = none) :
      LinkError i (.noSuchFunction name i.name)

/-- Where the types are right, it is the lookup of the function. -/
theorem extractImport_of_function {i : Import} {module : MModule} {arguments : List FunctionArg}
    {outputTypes : List IType} (hmodule : modules.lookup i.nameSpace = some module)
    (hty : wit.types[wrappingSub i.functionType 2]? = some (.function arguments outputTypes)) :
    ITInstance.extractImport moduleName modules wit i =
      WITFunction.fromImport module moduleName i.name arguments outputTypes := by
  have hsignature : importSignature wit i = .ok (arguments, outputTypes) := by
    rw [importSignature, MITInterfaces.typeByIdxR, hty]
  unfold ITInstance.extractImport
  rw [hmodule, hsignature]
  rfl

/-- **Spec of one import.** -/
theorem extractImport_spec (i : Import) :
    ((ITInstance.extractImport moduleName modules wit i).isOk ↔ Links modules wit i) ∧
      FailsWithin (fun e => ∃ err, e = .error err ∧ LinkError modules wit i err)
        (ITInstance.extractImport moduleName modules wit i) := by
  cases hmodule : modules.lookup i.nameSpace with
  | none =>
    have hfail : ITInstance.extractImport moduleName modules wit i =
        .error (.error (.noSuchModule i.nameSpace)) := by
      rw [ITInstance.extractImport, hmodule]
    rw [hfail]
    exact ⟨by simp [Links, hmodule], failsWithin_error ⟨_, rfl, .noSuchModule hmodule⟩⟩
  | some module =>
    cases hty : wit.types[wrappingSub i.functionType 2]? with
    | none =>
      have hfail : ITInstance.extractImport moduleName modules wit i = .error (.error
          (.ofMITInterfacesError (.noSuchType (wrappingSub i.functionType 2)))) := by
        unfold ITInstance.extractImport importSignature MITInterfaces.typeByIdxR
        rw [hmodule, hty]
        rfl
      rw [hfail]
      exact ⟨by simp [Links, MITInterfaces.typeByIdx, hty],
        failsWithin_error ⟨_, rfl, .noSuchType hmodule hty⟩⟩
    | some ty =>
      cases ty with
      | record recordType =>
        have hfail : ∃ text, ITInstance.extractImport moduleName modules wit i =
            .error (.error (.incorrectWIT text)) := by
          unfold ITInstance.extractImport importSignature MITInterfaces.typeByIdxR
          rw [hmodule, hty]
          exact ⟨_, rfl⟩
        obtain ⟨text, hfail⟩ := hfail
        rw [hfail]
        exact ⟨by simp [Links, MITInterfaces.typeByIdx, hty],
          failsWithin_error ⟨_, rfl, .notFunction hmodule hty⟩⟩
      | function arguments outputTypes =>
        rw [extractImport_of_function moduleName modules wit hmodule hty]
        unfold WITFunction.fromImport MModule.getCallable
        cases hfunc : module.exportFuncs.lookup i.name with
        | none =>
          exact ⟨by simp [Links, hmodule, hfunc],
            failsWithin_error ⟨_, rfl, .noSuchFunction hmodule hfunc⟩⟩
        | some callable =>
          refine ⟨?_, failsWithin_ok _ _⟩
          simp [Links, MITInterfaces.typeByIdx, hmodule, hty, hfunc]

/-- **Linking.**  All imports are extracted exactly when each links, and an
error is one for some import. -/
theorem extractImports_links (startIndex : Nat) :
    ((ITInstance.extractImports moduleName modules wit startIndex).isOk ↔
      ∀ i ∈ adapterImports wit, Links modules wit i) ∧
    ∀ e, ITInstance.extractImports moduleName modules wit startIndex = .error e →
      ∃ i ∈ adapterImports wit, ∃ err, e = .error err ∧ LinkError modules wit i err := by
  constructor
  · exact mapM_zipIdx_isOk_iff (fun idx => startIndex + idx) 0
      fun i => (extractImport_spec moduleName modules wit i).1
  · intro e h
    obtain ⟨i, hi, hie⟩ := exists_of_mapM_zipIdx_error (fun idx => startIndex + idx) 0 h
    exact ⟨i, hi, (extractImport_spec moduleName modules wit i).2 e hie⟩

/-- Linking depends on the namespaces and names alone, and the module in the
error of a missing function is the one that misses it. -/
def ErrorsNameCulprit : Prop :=
  ((ITInstance.extractImports moduleName modules wit 0).isOk ↔ ∀ i ∈ adapterImports wit,
    ∃ module, modules.lookup i.nameSpace = some module ∧
      (module.exportFuncs.lookup i.name).isSome) ∧
  ∀ e, ITInstance.extractImports moduleName modules wit 0 = .error e → ∃ i ∈ adapterImports wit,
    (modules.lookup i.nameSpace = none ∧ e = .error (.noSuchModule i.nameSpace)) ∨
    ∃ module, modules.lookup i.nameSpace = some module ∧
      module.exportFuncs.lookup i.name = none ∧
        e = .error (.noSuchFunction i.nameSpace i.name)

end Linking

/-- One implemented import, of `get` from `store`, behind a type. -/
def storeImport (ty : AstType) : MITInterfaces := .new {
  types := [ty, .function [] [], .function [] []]
  imports := [⟨"store", "get", 2⟩]
  adapters := [⟨1, []⟩]
  exports := []
  implementations := [⟨2, 1⟩] }

def storeModules (exportFuncs : AList fun _ : String => Callable) :
    AList fun _ : String => MModule :=
  (∅ : AList fun _ : String => MModule).insert "store" ⟨none, exportFuncs, ∅⟩

/-- Where `store` does not export `get`, the error is about `guest`; where it
does, the type behind the import can stop the linking. -/
theorem linking_error_misleads :
    ¬ ErrorsNameCulprit "guest" (storeModules ∅) (storeImport (.function [] [])) ∧
    ¬ ErrorsNameCulprit "guest" (storeModules ((∅ : AList fun _ : String => Callable).insert "get"
      ⟨[], []⟩)) (storeImport (.record ⟨"Row", []⟩)) := by
  constructor
  · rintro ⟨-, herror⟩
    obtain ⟨i, hi, h⟩ := herror (.error (.noSuchFunction "guest" "get")) rfl
    have hname : adapterImports (storeImport (.function [] [])) = [⟨"store", "get", 2⟩] := rfl
    rw [hname, List.mem_singleton] at hi
    subst hi
    rcases h with ⟨-, he⟩ | ⟨module, -, -, he⟩
    · cases he
    · simp at he
  · rintro ⟨hok, -⟩
    have hname : adapterImports (storeImport (.record ⟨"Row", []⟩)) = [⟨"store", "get", 2⟩] := rfl
    have hexports : ∀ i ∈ adapterImports (storeImport (.record ⟨"Row", []⟩)), ∃ module,
        (storeModules ((∅ : AList fun _ : String => Callable).insert "get" ⟨[], []⟩)).lookup
          i.nameSpace = some module ∧ (module.exportFuncs.lookup i.name).isSome := by
      intro i hi
      rw [hname, List.mem_singleton] at hi
      subst hi
      exact ⟨_, rfl, rfl⟩
    exact absurd (hok.mpr hexports) (by decide)

end Marine.Loader
