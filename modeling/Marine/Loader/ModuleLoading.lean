import Marine.Loader.ItInstance
import Marine.Loader.ItInterface

/-!
# Loading of a module

`MModule::new` of `core/src/module/marine_module.rs`: the checks of the custom
sections, the imports that have an implementation, the instantiation, the
instance of the IT interpreter, the exports, and the calls of `_initialize` and
`_start`.  What the engine and the parsers do enters as `ModuleRun`.

The subtraction in `extract_imports` wraps in the release profile and panics
where overflows are checked; `processTables` takes the profile, and the tables in any order.
-/

namespace Marine.Loader

open Marine.Runtime

/-- What the engine and the parsers do while one module is loaded, in this order. -/
structure ModuleRun where
  wasmModule : Except MError Unit
  checkSdkVersion : Except MError Unit
  extractIt : Except MError Interfaces
  checkItVersion : Except MError Unit
  /-- Whether an interpreter can be made of instructions. -/
  parses : List Instruction → Bool
  register : Except MError Unit
  addWasiImports : Except MError Unit
  addHostImports : Except MError Unit
  instantiate : Except MError WasmInstance
  /-- A call of `_initialize` or `_start`, where the instance has it. -/
  callFunction : String → Except MError Unit

/-- `?` on an error of the source. -/
def orError {α : Type} : Except MError α → Except LoadFailure α
  | .ok a => .ok a
  | .error e => .error (.error e)

@[simp] theorem orError_eq_ok_iff {α : Type} {x : Except MError α} {a : α} :
    orError x = .ok a ↔ x = .ok a := by
  cases x <;> simp [orError]

@[simp] theorem orError_ne_panicked {α : Type} (x : Except MError α) :
    orError x ≠ .error .panicked := by
  cases x <;> simp [orError]

/-! ## Imports with an implementation -/

/-- A function for the linker, known by its signature. -/
structure WitImport where
  nameSpace : String
  name : String
  inputs : List WType
  outputs : List WType
  deriving DecidableEq, Repr

/-- Each adapter type with the imports of its core type. -/
def implementedImports (wit : MITInterfaces) : List (Nat × String × String) :=
  (wit.implementations.filterMap fun (adapterFunctionType, coreFunctionType) =>
    (wit.importsByType coreFunctionType).map fun names => (adapterFunctionType, names)).flatMap
      fun (adapterFunctionType, names) => names.map fun name => (adapterFunctionType, name)

def failedToParse : MError := .incorrectWIT "failed to parse instructions for adapter type"

def witImport (parses : List Instruction → Bool) (wit : MITInterfaces)
    (p : Nat × String × String) : Except LoadFailure WitImport :=
  match wit.adapterByTypeR p.1 with
  | .error e => .error (.error (.ofMITInterfacesError e))
  | .ok adapterInstructions =>
    match wit.typeByIdxR p.1 with
    | .error e => .error (.error (.ofMITInterfacesError e))
    | .ok (.function arguments outputTypes) =>
      if parses adapterInstructions then do
        let inputs ← arguments.mapM fun arg => itypeToWtype arg.ty
        let outputs ← outputTypes.mapM itypeToWtype
        return ⟨p.2.1, p.2.2, inputs, outputs⟩
      else
        .error (.error failedToParse)
    | .ok (.record _) => .error (.error (.incorrectWIT
        ("type with idx = " ++ toString p.1 ++ " isn't a function type")))

def addWitImports (run : ModuleRun) (wit : MITInterfaces) :
    Except LoadFailure (List WitImport) := do
  let witImportFuncs ← (implementedImports wit).mapM (witImport run.parses wit)
  orError run.register
  return witImportFuncs

/-! ## Exports -/

def exportFunc (parses : List Instruction → Bool) (wit : MITInterfaces)
    (sign : IFunctionSignature) : Except MError (String × Callable) :=
  match wit.adapterByTypeR sign.adapterFunctionType with
  | .error e => .error (.ofMITInterfacesError e)
  | .ok adapterInstructions =>
    if parses adapterInstructions then .ok (sign.name, ⟨sign.arguments, sign.outputs⟩)
    else .error failedToParse

def instantiateExports (parses : List Instruction → Bool) (wit : MITInterfaces) :
    Except MError ((AList fun _ : String => Callable) × RecordTypes) :=
  match getInterface wit with
  | .error e => .error (.moduleInterfaceError e)
  | .ok moduleInterface => do
    let exportFuncs ← moduleInterface.functionSignatures.mapM (exportFunc parses wit)
    return (Maps.collect exportFuncs, moduleInterface.exportRecordTypes)

/-! ## The instance -/

/-- `import.function_type - 2` is the first thing done for an import of a loaded
module. -/
def underflows (modules : AList fun _ : String => MModule) (i : Import) : Prop :=
  (modules.lookup i.nameSpace).isSome ∧ i.functionType < 2

instance (modules : AList fun _ : String => MModule) (i : Import) :
    Decidable (underflows modules i) :=
  inferInstanceAs (Decidable (_ ∧ _))

/-- `extract_imports` for one import under a profile. -/
def extractImportIn (overflowChecks : Bool) (moduleName : String)
    (modules : AList fun _ : String => MModule) (wit : MITInterfaces) (i : Import) :
    Except LoadFailure WITFunction :=
  if overflowChecks ∧ underflows modules i then .error .panicked
  else ITInstance.extractImport moduleName modules wit i

def extractImportsIn (overflowChecks : Bool) (moduleName : String)
    (modules : AList fun _ : String => MModule) (wit : MITInterfaces) (startIndex : Nat) :
    Except LoadFailure (List (Nat × WITFunction)) :=
  (adapterImports wit).zipIdx.mapM fun (i, idx) => do
    let func ← extractImportIn overflowChecks moduleName modules wit i
    return (startIndex + idx, func)

/-- `ITInstance::new` under a profile. -/
def newInstanceIn (overflowChecks : Bool) (wasmInstance : WasmInstance) (moduleName : String)
    (wit : MITInterfaces) (modules : AList fun _ : String => MModule) :
    Except LoadFailure ITInstance := do
  let exports ← ITInstance.extractRawExports wasmInstance wit
  let imports ← extractImportsIn overflowChecks moduleName modules wit
    (Maps.collect exports).entries.length
  return {
    funcs := Maps.collect (exports ++ imports)
    memories := ITInstance.extractMemories wasmInstance
    recordTypesById := ITInstance.extractRecordTypes wit }

/-- The release profile is that of `ITInstance.new`. -/
theorem newInstanceIn_release (wasmInstance : WasmInstance) (moduleName : String)
    (wit : MITInterfaces) (modules : AList fun _ : String => MModule) :
    newInstanceIn false wasmInstance moduleName wit modules =
      ITInstance.new wasmInstance moduleName wit modules := by
  simp [newInstanceIn, ITInstance.new, extractImportsIn, ITInstance.extractImports,
    extractImportIn]

/-! ## The whole -/

/-- From the tables of the section to the exports. -/
def processTables (overflowChecks : Bool) (run : ModuleRun) (name : String)
    (modules : AList fun _ : String => MModule) (mit : MITInterfaces) :
    Except LoadFailure (WasmInstance × (AList fun _ : String => Callable) × RecordTypes) := do
  let _ ← addWitImports run mit
  orError run.addWasiImports
  orError run.addHostImports
  let wasmInstance ← orError run.instantiate
  let _ ← newInstanceIn overflowChecks wasmInstance name mit modules
  let exports ← orError (instantiateExports run.parses mit)
  return (wasmInstance, exports)

/-- From the decoded section to the exports. -/
def processInterfaces (overflowChecks : Bool) (run : ModuleRun) (name : String)
    (modules : AList fun _ : String => MModule) (it : Interfaces) :
    Except LoadFailure (WasmInstance × (AList fun _ : String => Callable) × RecordTypes) :=
  processTables overflowChecks run name modules (MITInterfaces.new it)

/-- A function that is called if the instance has it. -/
def callIfExported (run : ModuleRun) (wasmInstance : WasmInstance) (funcName : String) :
    Except MError Unit :=
  match wasmInstance.getFunction funcName with
  | .ok _ => run.callFunction funcName
  | .error _ => .ok ()

/-- `MModule::new` with the tables that `tables` makes of the section.  The memory number 0 is
the first one among the exports. -/
def newModuleFrom (tables : Interfaces → MITInterfaces) (overflowChecks : Bool) (run : ModuleRun)
    (name : String) (modules : AList fun _ : String => MModule) : Except LoadFailure MModule := do
  orError run.wasmModule
  orError run.checkSdkVersion
  let it ← orError run.extractIt
  orError run.checkItVersion
  let (wasmInstance, exportFuncs, exportRecordTypes) ←
    processTables overflowChecks run name modules (tables it)
  orError (callIfExported run wasmInstance "_initialize")
  orError (callIfExported run wasmInstance "_start")
  return ⟨wasmInstance.exportMemories.head?, exportFuncs, exportRecordTypes⟩

/-- `MModule::new` with the tables in the order in which they are filled. -/
def newModule (overflowChecks : Bool) (run : ModuleRun) (name : String)
    (modules : AList fun _ : String => MModule) : Except LoadFailure MModule :=
  newModuleFrom MITInterfaces.new overflowChecks run name modules

end Marine.Loader
