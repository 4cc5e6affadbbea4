import Marine.Backend.Budget
import Marine.Errors
import Mathlib.Data.List.AList

/-!
# MarineCore

The registry of loaded modules over one store (`core/src/marine_core.rs`).
What the engine does while a function runs or a module is instantiated enters
as an `EngineRun`: the growth requests it makes of the store, in order, and
the result it ends with.

`memory_limit_holds`: `MarineCore::new` sets the limit of the store once, and
nothing sets it again.
-/

namespace Marine.Runtime

open Marine.Backend

/-- An exported function, `ITModuleFunc`: what it takes and gives. -/
structure Callable where
  arguments : List FunctionArg
  outputTypes : List IType
  deriving DecidableEq, Repr

/-- `memory` is the memory number 0 of the instance, as a memory of the store. -/
structure MModule where
  memory : Option Nat
  exportFuncs : AList fun _ : String => Callable
  exportRecordTypes : RecordTypes

structure MFunctionSignature where
  name : String
  arguments : List FunctionArg
  outputs : List IType
  deriving DecidableEq, Repr

structure MModuleInterface where
  recordTypes : RecordTypes
  functionSignatures : List MFunctionSignature

namespace MModule

def getExportsSignatures (module : MModule) : List MFunctionSignature :=
  module.exportFuncs.entries.map fun e => ⟨e.1, e.2.arguments, e.2.outputTypes⟩

def getCallable (module : MModule) (moduleName functionName : String) : Except MError Callable :=
  match module.exportFuncs.lookup functionName with
  | some func => .ok func
  | none => .error (.noSuchFunction moduleName functionName)

/-- `none` when the instance has no memory, where the source panics.  A handle
of a memory is always one of the store. -/
def memorySize (module : MModule) (store : Store) : Option UInt64 :=
  module.memory.map fun memory => (store.memories[memory]?.map Growable.size).getD 0

end MModule

/-- What the engine does in one call or instantiation. -/
structure EngineRun (α : Type) where
  requests : List GrowRequest
  result : Except MError α

/-- The store after the requests of a run. -/
def serve (store : Store) (requests : List GrowRequest) : Store :=
  requests.foldl Store.request store

structure MarineCoreConfig where
  totalMemoryLimit : UInt64
  deriving DecidableEq, Repr

/-- `INFINITE_MEMORY_LIMIT`. -/
def infiniteMemoryLimit : UInt64 := UInt64.ofNat (2 ^ 64 - 1)

def MarineCoreConfig.new (totalMemoryLimit : Option UInt64) : MarineCoreConfig :=
  ⟨totalMemoryLimit.getD infiniteMemoryLimit⟩

structure ModuleMemoryStat where
  name : String
  memorySize : UInt64
  deriving DecidableEq, Repr

structure MemoryStats where
  modules : List ModuleMemoryStat
  allocationStats : Option MemoryAllocationStats
  deriving DecidableEq, Repr

structure MarineCore where
  modules : AList fun _ : String => MModule
  store : Store

namespace MarineCore

def new (config : MarineCoreConfig) : MarineCore :=
  ⟨∅, Store.new.setTotalMemoryLimit config.totalMemoryLimit⟩

/-- `run` is what the engine does for the arguments the function is called with. -/
def callAsync (core : MarineCore) (moduleName funcName : String) (arguments : List IValue)
    (run : List IValue → EngineRun (List IValue)) : Except MError (List IValue) × MarineCore :=
  match core.modules.lookup moduleName with
  | none => (.error (.noSuchModule moduleName), core)
  | some module =>
    match module.exportFuncs.lookup funcName with
    | none => (.error (.noSuchFunction moduleName funcName), core)
    | some _ => ((run arguments).result,
      { core with store := serve core.store (run arguments).requests })

/-- `run` is `MModule::new`. -/
def loadModule (core : MarineCore) (name : String) (run : EngineRun MModule) :
    Except MError Unit × MarineCore :=
  let core := { core with store := serve core.store run.requests }
  match run.result with
  | .error e => (.error e, core)
  | .ok module =>
    match core.modules.lookup name with
    | none => (.ok (), { core with modules := core.modules.insert name module })
    | some _ => (.error (.nonUniqueModuleName name), core)

def unloadModule (core : MarineCore) (name : String) : Except MError Unit × MarineCore :=
  match core.modules.lookup name with
  | some _ => (.ok (), { core with modules := core.modules.erase name })
  | none => (.error (.noSuchModule name), core)

def getModuleInterface (module : MModule) : MModuleInterface :=
  ⟨module.exportRecordTypes, module.getExportsSignatures⟩

def moduleInterface (core : MarineCore) (moduleName : String) : Option MModuleInterface :=
  (core.modules.lookup moduleName).map getModuleInterface

/-- `none` when a loaded module has no memory: the source panics there. -/
def moduleMemoryStats (core : MarineCore) : Option MemoryStats :=
  let stat (e : Sigma fun _ : String => MModule) : Option ModuleMemoryStat :=
    (e.2.memorySize core.store).map fun size => ⟨e.1, size⟩
  (core.modules.entries.mapM stat).map fun records =>
    ⟨records, core.store.reportMemoryAllocationStats⟩

def clearAllocationStats (core : MarineCore) : MarineCore :=
  { core with store := core.store.clearAllocationStats }

end MarineCore

/-! ## The memory limit -/

/-- **The limit of a core holds.** -/
theorem memory_limit_holds (limit : Option UInt64) {requests : List GrowRequest} {s : Store}
    (h : Runs.Along Store.step Store.AsksToGrow (MarineCore.new (.new limit)).store requests)
    (hrun : Runs.run Store.step (MarineCore.new (.new limit)).store requests = some s) :
    s.totalUse ≤ (limit.getD infiniteMemoryLimit).toNat :=
  Store.total_use_le_limit (limit.getD infiniteMemoryLimit) h hrun

/-- Two memories and a table under a limit of three pages, with the second
memory refused. -/
def threePageRequests : List GrowRequest :=
  [.memory (.fresh none) 131072 true, .memory (.fresh (some 131072)) 131072 true,
    .table (.fresh none) 10 true]

theorem memory_limit_three_pages :
    (serve (MarineCore.new (.new (some 196608))).store threePageRequests).totalUse ≤ 196608 := by
  have hasks : Runs.Along Store.step Store.AsksToGrow (MarineCore.new (.new (some 196608))).store
      threePageRequests := by
    refine ⟨⟨_, rfl, by decide⟩, ?_⟩
    rintro _ ⟨⟩
    refine ⟨⟨_, rfl, by decide⟩, ?_⟩
    rintro _ ⟨⟩
    exact ⟨⟨_, rfl, by decide⟩, fun _ _ => trivial⟩
  exact memory_limit_holds (some 196608) hasks rfl

end Marine.Runtime
