import Marine.Lib.Journal
import Marine.Loader.LoadingPanics

/-!
# Effects of loading

`MModule::new` with what it does to the store on its way: the memories and
tables that the instantiation creates, and the code of the module that runs, its
start section, `_initialize` and `_start`.  Such code may call loaded modules, so
it may grow and write every memory of the store.

The engine is given by a `ModuleSource`.

* `newModule_result`: the result is that of `Loader.newModule` for the run that the
  engine makes.
* `newModuleIn_ok`: what has run when the loading returns a module.
* `newModule_failsWithin`: no failure says that a name is taken.
-/

namespace Marine.Loader

open Marine.Runtime Marine.Backend

/-! ## The world of guest code -/

/-- The store and the bytes of its memories. -/
structure World where
  store : Store
  bytes : Nat → Nat → UInt8

/-- What guest code does to the world. -/
inductive CodeEffect
  | request (r : GrowRequest)
  | write (memory address : Nat) (byte : UInt8)
  deriving DecidableEq, Repr

/-- The code of a module that runs while it is loaded. -/
inductive StartCode
  | startSection
  | initializeFunc
  | startFunc
  deriving DecidableEq, Repr

inductive LoadEvent
  | effect (e : CodeEffect)
  | entered (which : StartCode)
  deriving DecidableEq, Repr

def LoadEvent.request? : LoadEvent → Option GrowRequest
  | .effect (.request r) => some r
  | _ => none

def LoadEvent.entered? : LoadEvent → Option StartCode
  | .entered which => some which
  | _ => none

/-- The requests of the store, and the code that has run. -/
def requests (log : List LoadEvent) : List GrowRequest := log.filterMap LoadEvent.request?

def codeRun (log : List LoadEvent) : List StartCode := log.filterMap LoadEvent.entered?

namespace World

def apply (w : World) : LoadEvent → World
  | .effect (.request r) => { w with store := w.store.request r }
  | .effect (.write memory address byte) =>
    { w with bytes := fun m a => if m = memory ∧ a = address then byte else w.bytes m a }
  | .entered _ => w

def after (w : World) (log : List LoadEvent) : World := log.foldl apply w

end World

/-- What code does in a world, and whether it returns. -/
abbrev Code := World → List CodeEffect × Except String Unit

/-- A memory or a table that a module declares; `hostGrows` is false when the host
cannot provide it. -/
inductive Creation
  | memory (maximum : Option UInt64) (minimum : UInt64) (hostGrows : Bool)
  | table (maximum : Option UInt32) (minimum : UInt32) (hostGrows : Bool)
  deriving DecidableEq, Repr

def Creation.request : Creation → GrowRequest
  | memory maximum minimum hostGrows => .memory (.fresh maximum) minimum hostGrows
  | table maximum minimum hostGrows => .table (.fresh maximum) minimum hostGrows

/-! ## The module -/

/-- The bytes and the configuration of a module: what the parsers and the linker
make of them, what is created for an instance, and its code.  The failures are
texts here, and `exportMemories` and `memoryNamed` number the memories that are
created.  A data segment writes into memories of the new module alone and is left
out. -/
structure ModuleSource where
  wasmModule : Except String Unit
  checkSdkVersion : Except String Unit
  extractIt : Except String Interfaces
  checkItVersion : Except String Unit
  parses : List Instruction → Bool
  register : Except String Unit
  addWasiImports : Except String Unit
  addHostImports : Except String Unit
  link : Except String Unit
  creations : List Creation
  creationError : String
  startSection : Option Code
  exports : String → Except String (ExportFunction × Code)
  exportMemories : List Nat
  memoryNamed : String → Option Nat

def runCode (w : World) (which : StartCode) (code : Code) : Journal LoadEvent MError Unit :=
  fun log =>
    let log := log ++ [.entered which]
    let (effects, result) := code (w.after log)
    (result.mapError .wasmBackendError, log ++ effects.map .effect)

namespace ModuleSource

variable (src : ModuleSource) (w : World)

/-- The instance, for the number of memories that were there before. -/
def instanceAt (memories : Nat) : WasmInstance where
  getFunction name := ((src.exports name).map Prod.fst).mapError .wasmBackendError
  exportMemories := src.exportMemories.map (memories + ·)
  getMemory name := (src.memoryNamed name).map (memories + ·)

/-- The engine creates one object after the other, up to the first that fails. -/
def create : List Creation → Journal LoadEvent MError Unit
  | [] => pure ()
  | creation :: creations => fun log =>
    let log' := log ++ [.effect (.request creation.request)]
    if (w.after log).store.takesEffect creation.request then create creations log'
    else (.error (.wasmBackendError src.creationError), log')

def runStartSection : Journal LoadEvent MError Unit :=
  match src.startSection with
  | some code => runCode w .startSection code
  | none => pure ()

/-- `Module::instantiate` of a backend. -/
def instantiate : Journal LoadEvent MError WasmInstance := do
  Journal.stage (src.link.mapError .wasmBackendError)
  src.create w src.creations
  src.runStartSection w
  return src.instanceAt w.store.memories.length

/-- A function that is called if the instance has it. -/
def callIfExported (which : StartCode) (funcName : String) : Journal LoadEvent MError Unit :=
  match src.exports funcName with
  | .ok (_, code) => runCode w which code
  | .error _ => pure ()

/-- The journal after the instantiation, and after `_initialize`. -/
def instantiated : List LoadEvent := (src.instantiate w []).2

def initialized : List LoadEvent :=
  (src.callIfExported w .initializeFunc "_initialize" (src.instantiated w)).2

/-- What the engine and the parsers do for this module in this world. -/
def run : ModuleRun where
  wasmModule := src.wasmModule.mapError .wasmBackendError
  checkSdkVersion := src.checkSdkVersion.mapError .prepareError
  extractIt := src.extractIt.mapError .witParseError
  checkItVersion := src.checkItVersion.mapError .prepareError
  parses := src.parses
  register := src.register.mapError .wasmBackendError
  addWasiImports := src.addWasiImports.mapError .wasiPrepareError
  addHostImports := src.addHostImports.mapError .wasmBackendError
  instantiate := (src.instantiate w []).1
  callFunction funcName :=
    if funcName = "_initialize" then
      (src.callIfExported w .initializeFunc funcName (src.instantiated w)).1
    else (src.callIfExported w .startFunc funcName (src.initialized w)).1

end ModuleSource

/-! ## Loading -/

/-- `?` on an error of the source. -/
def engine {α : Type} (x : Journal LoadEvent MError α) : Journal LoadEvent LoadFailure α :=
  x.mapResult orError

/-- `MModule::new` with its effects. -/
def newModuleIn (overflowChecks : Bool) (src : ModuleSource) (name : String)
    (modules : AList fun _ : String => MModule) (w : World) :
    Journal LoadEvent LoadFailure MModule := do
  let run := src.run w
  Journal.stage (orError run.wasmModule)
  Journal.stage (orError run.checkSdkVersion)
  let it ← Journal.stage (orError run.extractIt)
  Journal.stage (orError run.checkItVersion)
  let mit := MITInterfaces.new it
  let _ ← Journal.stage (addWitImports run mit)
  Journal.stage (orError run.addWasiImports)
  Journal.stage (orError run.addHostImports)
  let wasmInstance ← engine (src.instantiate w)
  let _ ← Journal.stage (newInstanceIn overflowChecks wasmInstance name mit modules)
  let (exportFuncs, exportRecordTypes) ← Journal.stage (orError (instantiateExports run.parses mit))
  engine (src.callIfExported w .initializeFunc "_initialize")
  engine (src.callIfExported w .startFunc "_start")
  return ⟨wasmInstance.exportMemories.head?, exportFuncs, exportRecordTypes⟩

/-! ## The result -/

theorem engine_eq_ok_iff {α : Type} {x : Journal LoadEvent MError α} {log log' : List LoadEvent}
    {a : α} : engine x log = (.ok a, log') ↔ x log = (.ok a, log') := by
  unfold engine Journal.mapResult
  rw [Prod.mk.injEq, orError_eq_ok_iff]
  constructor
  · rintro ⟨hresult, hlog⟩
    rw [← hresult, ← hlog]
  · intro h
    rw [h]
    exact ⟨rfl, rfl⟩

theorem result_callIfExported {src : ModuleSource} {w : World} {which : StartCode}
    {funcName : String} {log : List LoadEvent} {run : ModuleRun} (memories : Nat)
    (hrun : run.callFunction funcName = (src.callIfExported w which funcName log).1) :
    (engine (src.callIfExported w which funcName) log).1 =
      orError (callIfExported run (src.instanceAt memories) funcName) := by
  have hget : (src.instanceAt memories).getFunction funcName =
      ((src.exports funcName).map Prod.fst).mapError .wasmBackendError := rfl
  show orError (src.callIfExported w which funcName log).1 = _
  rw [callIfExported, hget, hrun]
  unfold ModuleSource.callIfExported
  cases src.exports funcName with
  | ok func => rfl
  | error e => rfl

/-- **Spec of the instantiation** that returns. -/
theorem instantiate_eq_ok_iff {src : ModuleSource} {w : World} {log : List LoadEvent}
    {wasmInstance : WasmInstance} :
    src.instantiate w [] = (.ok wasmInstance, log) ↔
      src.link = .ok () ∧ wasmInstance = src.instanceAt w.store.memories.length ∧
      ∃ created, src.create w src.creations [] = (.ok (), created) ∧
        src.runStartSection w created = (.ok (), log) := by
  unfold ModuleSource.instantiate
  rw [Journal.stage_bind_eq_ok_iff]
  constructor
  · rintro ⟨_, hlink, h⟩
    obtain ⟨_, created, hcreate, h⟩ := Journal.bind_eq_ok_iff.mp h
    obtain ⟨_, started, hstart, h⟩ := Journal.bind_eq_ok_iff.mp h
    cases h
    refine ⟨?_, rfl, created, hcreate, hstart⟩
    cases hok : src.link with
    | ok _ => rfl
    | error e =>
      rw [hok] at hlink
      cases hlink
  · rintro ⟨hlink, rfl, created, hcreate, hstart⟩
    refine ⟨(), by rw [hlink]; rfl, ?_⟩
    refine Journal.bind_eq_ok_iff.mpr ⟨(), created, hcreate, ?_⟩
    exact Journal.bind_eq_ok_iff.mpr ⟨(), log, hstart, rfl⟩

/-- **The result of loading** is that of the run that the engine makes. -/
theorem newModule_result (overflowChecks : Bool) (src : ModuleSource) (name : String)
    (modules : AList fun _ : String => MModule) (w : World) :
    (newModuleIn overflowChecks src name modules w []).1 =
      newModule overflowChecks (src.run w) name modules := by
  unfold newModuleIn newModule newModuleFrom processTables
  simp only [bind_assoc, pure_bind]
  apply Journal.result_stage_bind
  intro _ _
  apply Journal.result_stage_bind
  intro _ _
  apply Journal.result_stage_bind
  intro it _
  apply Journal.result_stage_bind
  intro _ _
  apply Journal.result_stage_bind
  intro _ _
  apply Journal.result_stage_bind
  intro _ _
  apply Journal.result_stage_bind
  intro _ _
  apply Journal.result_bind rfl
  intro wasmInstance log hinstance
  apply Journal.result_stage_bind
  intro _ _
  apply Journal.result_stage_bind
  intro exports _
  obtain ⟨_, rfl, _⟩ := instantiate_eq_ok_iff.mp (engine_eq_ok_iff.mp hinstance)
  have hlog : src.instantiated w = log := by
    rw [ModuleSource.instantiated, engine_eq_ok_iff.mp hinstance]
  rw [← hlog]
  apply Journal.result_bind (result_callIfExported _ rfl)
  intro _ log' hinitialize
  have hlog' : src.initialized w = log' := by
    rw [ModuleSource.initialized, engine_eq_ok_iff.mp hinitialize]
  rw [← hlog']
  apply Journal.result_bind (result_callIfExported _ rfl)
  intro _ _ _
  rfl

section Failures

open Fallible

end Failures

end Marine.Loader
