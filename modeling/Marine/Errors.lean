import Marine.HostImports.Lifting

/-!
# Errors of the runtime

The error types of `core/src/errors.rs` and of the crates below it, and
`MarineError` of `marine/src/errors.rs`.  Errors of the engine, of the IT
interpreter and of third-party parsers are kept as their text.
-/

namespace Marine

/-- `crates/it-interfaces/src/errors.rs`. -/
inductive MITInterfacesError
  | noSuchType (typeId : Nat)
  | noSuchExport (exportTypeId : Nat)
  | noSuchImport (importTypeId : Nat)
  | noSuchAdapter (adapterTypeId : Nat)
  deriving DecidableEq, Repr

def MITInterfacesError.display : MITInterfacesError → String
  | .noSuchType id => "Loaded module doesn't contain type with idx = " ++ toString id
  | .noSuchExport id => "Loaded module doesn't contain export with type idx = " ++ toString id
  | .noSuchImport id => "Loaded module doesn't contain import with type idx = " ++ toString id
  | .noSuchAdapter id => "Loaded module doesn't contain adapter with type idx = " ++ toString id

/-- `crates/module-interface/src/it_interface/errors.rs`. -/
inductive ITInterfaceError
  | itTypeNotFunction (typeId : Nat)
  | notFoundRecordTypeId (recordTypeId : Nat)
  | tooManyRecursionLevels
  | mitInterfacesError (e : MITInterfacesError)
  deriving DecidableEq, Repr

inductive MError
  | recordResolveError (text : String)
  | wasiPrepareError (text : String)
  | moduleInterfaceError (e : ITInterfaceError)
  | itInstructionError (text : String)
  | prepareError (text : String)
  | nonUniqueModuleName (name : String)
  | noSuchFunction (moduleName funcName : String)
  | noSuchModule (name : String)
  | hostImportError (e : HostImports.HostImportError)
  | witParseError (text : String)
  | incorrectWIT (text : String)
  | wasmBackendError (text : String)
  deriving DecidableEq, Repr

def MError.ofMITInterfacesError (e : MITInterfacesError) : MError := .incorrectWIT e.display

/-- `MemoryAllocationStats` of a high-probability OOM is its count of rejects. -/
inductive MarineError
  | invalidConfig (text : String)
  | instantiationError (moduleImportName : String) (modulesDir : Option String)
      (providedModules : List String)
  | ioError (text : String)
  | missingFunctionError (name : String)
  | missingArgumentError (name : String)
  | noSuchModule (name : String)
  | jsonArgumentsDeserializationError (moduleName functionName error : String)
  | jsonOutputSerializationError (moduleName functionName error : String)
  | parseConfigError (text : String)
  | engineError (e : MError)
  | highProbabilityOOM (originalError : MError) (allocationRejects : UInt32)
  deriving DecidableEq, Repr

end Marine
