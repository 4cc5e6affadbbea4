import Marine.Lib.Maps
import Marine.Runtime.Core

/-!
# A Marine instance

The operations of `marine/src/marine.rs` over `MarineCore`: calls with
interface values and with JSON, loading and unloading of modules, the cache of
module interfaces and the conversion of engine errors.  Converting between
JSON and interface values is the business of `it_json_serde` and enters as
`ItJsonSerde`.

An operation gives its result and the next state, or `none` when it panics:
`module_memory_stats` does for a loaded module without a memory.
-/

namespace Marine.Runtime

/-- Errors of `it_json_serde`, by direction. -/
inductive ITJsonSeDeError
  | se (text : String)
  | de (text : String)
  deriving DecidableEq, Repr

structure ItJsonSerde (JValue : Type) where
  jsonToIvalues : JValue → List FunctionArg → RecordTypes → Except ITJsonSeDeError (List IValue)
  ivaluesToJson : List IValue → List IType → RecordTypes → Except ITJsonSeDeError JValue

/-- The JSON of functions without arguments and results. -/
def noArgsSerde : ItJsonSerde Unit where
  jsonToIvalues _ _ _ := .ok []
  ivaluesToJson _ _ _ := .ok ()

/-- `json_to_marine_err!`. -/
def jsonToMarineErr {α : Type} (jsonExpr : Except ITJsonSeDeError α)
    (moduleName functionName : String) : Except MarineError α :=
  match jsonExpr with
  | .ok a => .ok a
  | .error (.se e) => .error (.jsonOutputSerializationError moduleName functionName e)
  | .error (.de e) => .error (.jsonArgumentsDeserializationError moduleName functionName e)

structure ModuleInterface where
  functionSignatures : AList fun _ : String => List FunctionArg × List IType
  recordTypes : RecordTypes

/-- `Marine` of the source; the parameters of calls, which no operation here reads,
are left out. -/
structure MarineInstance where
  core : MarineCore
  moduleInterfacesCache : AList fun _ : String => ModuleInterface

def checkForOomAndConvertError (core : MarineCore) (error : MError) : Option MarineError := do
  let stats ← core.moduleMemoryStats
  match stats.allocationStats with
  | none => return .engineError error
  | some allocationStats =>
    if allocationStats.allocationRejects = 0 then
      return .engineError error
    else
      match error with
      | .itInstructionError _ | .hostImportError _ | .wasmBackendError _ =>
        return .highProbabilityOOM error allocationStats.allocationRejects
      | _ => return .engineError error

namespace MarineInstance

/-- An instance whose modules are loaded and whose cache is empty, as
`with_modules` makes it. -/
def new (core : MarineCore) : MarineInstance := ⟨core, ∅⟩

/-- The end of both call operations: the call itself, the conversion of its
error, and the clearing of the statistics after a success. -/
def callCore (marine : MarineInstance) (moduleName funcName : String) (args : List IValue)
    (run : List IValue → EngineRun (List IValue)) :
    Option (Except MarineError (List IValue) × MarineInstance) :=
  match marine.core.callAsync moduleName funcName args run with
  | (.ok result, core) => some (.ok result, { marine with core := core.clearAllocationStats })
  | (.error e, core) =>
    (checkForOomAndConvertError core e).map fun e => (.error e, { marine with core := core })

def callWithIvaluesAsync (marine : MarineInstance) (moduleName funcName : String)
    (args : List IValue) (run : List IValue → EngineRun (List IValue)) :
    Option (Except MarineError (List IValue) × MarineInstance) :=
  marine.callCore moduleName funcName args run

def lookupModuleInterface (marine : MarineInstance) (moduleName funcName : String) :
    Except MarineError (List FunctionArg × List IType × RecordTypes) × MarineInstance :=
  match marine.moduleInterfacesCache.lookup moduleName with
  | some moduleInterface =>
    match moduleInterface.functionSignatures.lookup funcName with
    | some function => (.ok (function.1, function.2, moduleInterface.recordTypes), marine)
    | none => (.error (.missingFunctionError funcName), marine)
  | none =>
    match marine.core.moduleInterface moduleName with
    | none => (.error (.noSuchModule moduleName), marine)
    | some moduleInterface =>
      let functionSignatures := Maps.collect <|
        moduleInterface.functionSignatures.map fun f => (f.name, f.arguments, f.outputs)
      match functionSignatures.lookup funcName with
      | none => (.error (.missingFunctionError funcName), marine)
      | some (argTypes, outputTypes) =>
        let recordTypes := moduleInterface.recordTypes
        -- the key is the function's name, while the search above is by the module's
        (.ok (argTypes, outputTypes, recordTypes),
          { marine with moduleInterfacesCache :=
              marine.moduleInterfacesCache.insert funcName ⟨functionSignatures, recordTypes⟩ })

/-- The lookup only touches the cache. -/
@[simp] theorem lookupModuleInterface_core (marine : MarineInstance)
    (moduleName funcName : String) :
    (marine.lookupModuleInterface moduleName funcName).2.core = marine.core := by
  unfold lookupModuleInterface
  split
  · split <;> rfl
  · split
    · rfl
    · dsimp only
      split <;> rfl

def callWithJsonAsync {JValue : Type} (serde : ItJsonSerde JValue) (marine : MarineInstance)
    (moduleName funcName : String) (jsonArgs : JValue)
    (run : List IValue → EngineRun (List IValue)) :
    Option (Except MarineError JValue × MarineInstance) :=
  match marine.lookupModuleInterface moduleName funcName with
  | (.error e, marine) => some (.error e, marine)
  | (.ok (funcSignature, outputTypes, recordTypes), marine) =>
    match jsonToMarineErr (serde.jsonToIvalues jsonArgs funcSignature recordTypes)
        moduleName funcName with
    | .error e => some (.error e, marine)
    | .ok iargs =>
      match marine.callCore moduleName funcName iargs run with
      | none => none
      | some (.error e, marine) => some (.error e, marine)
      | some (.ok result, marine) =>
        some (jsonToMarineErr (serde.ivaluesToJson result outputTypes recordTypes)
          moduleName funcName, marine)

/-- `config` is the outcome of converting the module's configuration. -/
def loadModule (marine : MarineInstance) (name : String) (config : Except MarineError Unit)
    (run : EngineRun MModule) : Option (Except MarineError Unit × MarineInstance) :=
  match config with
  | .error e => some (.error e, marine)
  | .ok () =>
    match marine.core.loadModule name run with
    | (.ok (), core) => some (.ok (), { marine with core := core })
    | (.error e, core) =>
      (checkForOomAndConvertError core e).map fun e => (.error e, { marine with core := core })

def unloadModule (marine : MarineInstance) (name : String) :
    Except MarineError Unit × MarineInstance :=
  match marine.core.unloadModule name with
  | (.ok (), core) => (.ok (), { marine with core := core })
  | (.error e, core) => (.error (.engineError e), { marine with core := core })

end MarineInstance

/-! ## Runs of operations -/

/-- An operation on an instance, with what the engine does in it. -/
inductive Op (JValue : Type)
  | callWithIvalues (moduleName funcName : String) (args : List IValue)
      (run : List IValue → EngineRun (List IValue))
  | callWithJson (moduleName funcName : String) (jsonArgs : JValue)
      (run : List IValue → EngineRun (List IValue))
  | loadModule (name : String) (config : Except MarineError Unit) (run : EngineRun MModule)
  | unloadModule (name : String)

namespace MarineInstance

variable {JValue : Type} (serde : ItJsonSerde JValue)

/-- The error an operation reports, if any, and the next state. -/
def perform (marine : MarineInstance) :
    Op JValue → Option (Except MarineError Unit × MarineInstance)
  | .callWithIvalues m f args run =>
    (marine.callWithIvaluesAsync m f args run).map fun r => (r.1.map fun _ => (), r.2)
  | .callWithJson m f jsonArgs run =>
    (callWithJsonAsync serde marine m f jsonArgs run).map fun r => (r.1.map fun _ => (), r.2)
  | .loadModule name config run => marine.loadModule name config run
  | .unloadModule name => some (marine.unloadModule name)

def step (marine : MarineInstance) (op : Op JValue) : Option MarineInstance :=
  (marine.perform serde op).map Prod.snd

end MarineInstance

end Marine.Runtime
