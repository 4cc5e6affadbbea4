import Marine.HostImports.Lowering
import Marine.Lib.Fallible

/-!
# Calls of host imports

`call_host_import` (`core/src/host_imports/imports.rs`) and the two imports that
Marine registers: mounted binaries and the call parameters
(`marine/src/host_imports`).  Both return a record and have no error handler.

* `lowerRecord_returns_iff`: when `lower_outputs` returns for a record.
* `recordImport_returns_iff`: when a call of such an import returns.
* `guest_crashes_iff`: for a guest with a memory whose setters return, only an
  argument that cannot be lifted ends the process.
-/

namespace Marine.HostImports

/-! ## One call -/

/-- `host_exported_func` gives `none` where the closure panics. -/
structure HostImportDescriptor where
  hostExportedFunc : List IValue → Option (Option IValue)
  argumentTypes : List IType
  outputType : Option IType
  errorHandler : Option (HostImportError → Option IValue)

/-- The module that makes the call: its memory, as `it_lilo` reads it, and its
functions. -/
structure Caller where
  memory : Option Lifter
  guest : Guest

/-- The output of the closure, or of the error handler; `default_error_handler`
panics. -/
def hostOutput (descriptor : HostImportDescriptor) (lifter : Lifter) (inputs : List WValue) :
    Option (Option IValue) :=
  match wvaluesToIvalues lifter inputs descriptor.argumentTypes with
  | .ok ivalues => descriptor.hostExportedFunc ivalues
  | .error e => descriptor.errorHandler.map fun handler => handler e

def callHostImport (descriptor : HostImportDescriptor) (caller : Caller) (inputs : List WValue) :
    LowerResult :=
  match caller.memory with
  -- `panic!("Host import called directly, not from wasm")`
  | none => ⟨[], none⟩
  | some lifter =>
    match hostOutput descriptor lifter inputs with
    | none => ⟨[], none⟩
    | some output => lowerOutputs caller.guest output

/-- What the engine gets back, `none` when the process ended. -/
def engineCall (descriptor : HostImportDescriptor) (caller : Caller) (inputs : List WValue) :
    Option (Except (Nat × Nat) (List WValue)) :=
  (callHostImport descriptor caller inputs).returned.map fun wvalues =>
    processFuncResults wvalues (declaredResults descriptor.outputType)

/-! ## Mounted binaries -/

/-- `marine_rs_sdk::MountedBinaryResult`. -/
structure MountedBinaryResult where
  retCode : Int32
  error : String
  stdout : List UInt8
  stderr : List UInt8
  deriving DecidableEq, Repr

/-- `std::process::Output`; a process that a signal ended has no code. -/
structure CommandOutput where
  code : Option Int32
  stdout : List UInt8
  stderr : List UInt8
  deriving DecidableEq, Repr

/-- The SDK, the serializer of `wasmer_it` and the binary at its path. -/
structure MountedBinary where
  fromError : Int32 → String → MountedBinaryResult
  toInterfaceValue : MountedBinaryResult → Except String IValue
  command : List String → Except String CommandOutput

def unsuitableSdk : String :=
  "internal error is encountered while passing arguments to a mounted binary closure, " ++
    "probably you use a not suitable version of rust-sdk"

namespace MountedBinary

def parseArg (binary : MountedBinary) : IValue → Except MountedBinaryResult String
  | .string str => .ok str
  | _ => .error (binary.fromError 100004 unsuitableSdk)

def parseArgs (binary : MountedBinary) : List IValue → Except MountedBinaryResult (List String)
  | [.array array] => array.mapM binary.parseArg
  | [_] => .error (binary.fromError 100003 unsuitableSdk)
  | _ => .error (binary.fromError 100002 unsuitableSdk)

/-- `TERMINATED_BY_SIGNAL_CODE`. -/
def terminatedBySignalCode : Int32 := 100000

/-- `COMMAND_ERROR_CODE`. -/
def commandErrorCode : Int32 := 100001

def mountedBinaryImportImpl (binary : MountedBinary) (rawArgs : List IValue) :
    Except MountedBinaryResult MountedBinaryResult := do
  let args ← binary.parseArgs rawArgs
  match binary.command args with
  | .ok output =>
    return ⟨output.code.getD terminatedBySignalCode, "", output.stdout, output.stderr⟩
  | .error error => return ⟨commandErrorCode, error, [], []⟩

/-- Errors are results, too. -/
def result (binary : MountedBinary) (rawArgs : List IValue) : MountedBinaryResult :=
  match binary.mountedBinaryImportImpl rawArgs with
  | .ok result => result
  | .error result => result

end MountedBinary

/-- A panic where the serializer fails. -/
def unwrapRecord : Except String IValue → Option (Option IValue)
  | .ok rawResult => some (some rawResult)
  | .error _ => none

def createMountedBinaryImport (binary : MountedBinary) : HostImportDescriptor where
  hostExportedFunc rawArgs := unwrapRecord (binary.toInterfaceValue (binary.result rawArgs))
  argumentTypes := [.array .string]
  outputType := some (.record 0)
  errorHandler := none

/-! ## Call parameters -/

def createCallParametersImport {CP : Type} (toInterfaceValue : CP → Except String IValue)
    (callParameters : CP) : HostImportDescriptor where
  hostExportedFunc _ := unwrapRecord (toInterfaceValue callParameters)
  argumentTypes := []
  outputType := some (.record 0)
  errorHandler := none

/-! ## Records handed to the guest -/

/-- The setters that are called for a record return: the one of the pointer on
the place of the record, or both on zero where it cannot be written. -/
def Guest.TakesRecord (guest : Guest) (values : List IValue) : Prop :=
  ∀ lowerer, guest.allocate = some lowerer →
    match (do (← lowerer).recordLowerMemory values : Except String UInt32) with
    | .ok offset => ∀ setPtr, guest.setResultPtr = some setPtr → setPtr offset.toInt32
    | .error _ => ∀ setPtr, guest.setResultPtr = some setPtr →
        ∀ setSize, guest.setResultSize = some setSize → setPtr 0 ∧ setSize 0

theorem returned_initWasmFunc_isSome {α : Type} {func : Option α} {code : Int32}
    {k : α → LowerResult} : (initWasmFunc func code k).returned.isSome ↔
      ∀ f, func = some f → (k f).returned.isSome := by
  cases func with
  | none => simp [initWasmFunc, LowerResult.return]
  | some f => simp [initWasmFunc]

theorem returned_callWasmFunc_isSome {func : Int32 → Bool} {call : Int32 → SetCall} {arg : Int32}
    {k : LowerResult} : (callWasmFunc func call arg k).returned.isSome ↔
      func arg ∧ k.returned.isSome := by
  unfold callWasmFunc
  cases func arg <;> simp

theorem loweringError_returns_iff (guest : Guest) :
    (returnLoweringError guest).returned.isSome ↔
      ∀ setPtr, guest.setResultPtr = some setPtr →
        ∀ setSize, guest.setResultSize = some setSize → setPtr 0 ∧ setSize 0 := by
  simp [returnLoweringError, returned_initWasmFunc_isSome, returned_callWasmFunc_isSome,
    LowerResult.return]

theorem passRecord_returns_iff (guest : Guest) (ptr : Int32) :
    (passWvalues guest true [.i32 ptr]).returned.isSome ↔
      ∀ setPtr, guest.setResultPtr = some setPtr → setPtr ptr := by
  simp [passWvalues, returned_initWasmFunc_isSome, returned_callWasmFunc_isSome,
    LowerResult.return]

/-- **Spec of `lower_outputs`** for a record. -/
theorem lowerRecord_returns_iff (guest : Guest) (values : List IValue) :
    (lowerOutputs guest (some (.record values))).returned.isSome ↔ guest.TakesRecord values := by
  unfold lowerOutputs Guest.TakesRecord
  rw [returned_initWasmFunc_isSome]
  refine forall₂_congr fun lowerer _ => ?_
  cases lowerer with
  | error text => exact loweringError_returns_iff guest
  | ok lowerer =>
    have hlower : (do ivalueToWvalues (← lowerError (.ok lowerer)) (some (.record values))) =
        (lowerError (lowerer.recordLowerMemory values) >>= fun offset =>
          (.ok [.i32 offset.toInt32] : Except HostImportError (List WValue))) := rfl
    have hrecord : (do (← Except.ok lowerer).recordLowerMemory values : Except String UInt32) =
        lowerer.recordLowerMemory values := rfl
    rw [hlower, hrecord]
    cases lowerer.recordLowerMemory values with
    | error text => exact loweringError_returns_iff guest
    | ok offset => exact passRecord_returns_iff guest offset.toInt32

section Imports

variable {descriptor : HostImportDescriptor} {caller : Caller}

/-- **Imports that return records** and have no error handler.  A call returns
when the guest has a memory, its arguments can be lifted and it takes the record. -/
theorem recordImport_returns_iff {values : List IValue → List IValue}
    (hhandler : descriptor.errorHandler = none)
    (hrecord : ∀ ivalues, descriptor.hostExportedFunc ivalues =
      some (some (.record (values ivalues)))) (inputs : List WValue) :
    (engineCall descriptor caller inputs).isSome ↔ ∃ lifter ivalues,
      caller.memory = some lifter ∧
      wvaluesToIvalues lifter inputs descriptor.argumentTypes = .ok ivalues ∧
      caller.guest.TakesRecord (values ivalues) := by
  unfold engineCall callHostImport
  rw [Option.isSome_map]
  cases hmemory : caller.memory with
  | none => simp
  | some lifter =>
    simp only [hostOutput, hhandler, Option.map_none]
    cases hlift : wvaluesToIvalues lifter inputs descriptor.argumentTypes with
    | error e => simp [hlift]
    | ok ivalues => simp [hlift, hrecord, lowerRecord_returns_iff]

variable {binary : MountedBinary} {CP : Type} {toInterfaceValue : CP → Except String IValue}
  {callParameters : CP}

/-- **Guests that crash the host.**  The serializer makes records of the results
and of the call parameters.  Let the guest have a memory, and let it take the record
that the call has for it.  Then a call of a mounted binary ends the process exactly
when its argument cannot be lifted, and a call for the call parameters never. -/
theorem guest_crashes_iff {record : MountedBinaryResult → List IValue} {parameters : List IValue}
    (hbinary : ∀ result, binary.toInterfaceValue result = .ok (.record (record result)))
    (hparameters : toInterfaceValue callParameters = .ok (.record parameters))
    {lifter : Lifter} (hmemory : caller.memory = some lifter) (inputs : List WValue) :
    ((∀ rawArgs, wvaluesToIvalues lifter inputs [.array .string] = .ok rawArgs →
        caller.guest.TakesRecord (record (binary.result rawArgs))) →
      ((engineCall (createMountedBinaryImport binary) caller inputs).isSome ↔
        (wvaluesToIvalues lifter inputs [.array .string]).isOk)) ∧
    (caller.guest.TakesRecord parameters →
      (engineCall (createCallParametersImport toInterfaceValue callParameters) caller
        inputs).isSome) := by
  have hmounted : ∀ rawArgs, (createMountedBinaryImport binary).hostExportedFunc rawArgs =
      some (some (.record (record (binary.result rawArgs)))) := by
    intro rawArgs
    show unwrapRecord (binary.toInterfaceValue (binary.result rawArgs)) = _
    rw [hbinary]
    rfl
  have hcall : ∀ args, (createCallParametersImport toInterfaceValue
      callParameters).hostExportedFunc args = some (some (.record parameters)) := by
    intro args
    show unwrapRecord (toInterfaceValue callParameters) = _
    rw [hparameters]
    rfl
  constructor
  · intro htakes
    rw [recordImport_returns_iff rfl hmounted, Fallible.isOk_iff_exists]
    constructor
    · rintro ⟨lifter', ivalues, hmemory', hlift, -⟩
      rw [hmemory] at hmemory'
      cases hmemory'
      exact ⟨ivalues, hlift⟩
    · rintro ⟨ivalues, hlift⟩
      exact ⟨lifter, ivalues, hmemory, hlift, htakes ivalues hlift⟩
  · intro htakes
    rw [recordImport_returns_iff rfl hcall]
    exact ⟨lifter, [], hmemory, rfl, htakes⟩

end Imports

/-- A binary that fails to start, with its error as the only field of the record. -/
def absentBinary : MountedBinary where
  fromError code text := ⟨code, text, [], []⟩
  toInterfaceValue result := .ok (.record [.string result.error])
  command _ := .error "No such file or directory"

theorem guest_crashes_served :
    ((engineCall (createMountedBinaryImport absentBinary)
      ⟨some (readableLifter ∅), servingGuest 8⟩ [.i32 16, .i32 0]).isSome ↔
        (wvaluesToIvalues (readableLifter ∅) [.i32 16, .i32 0] [.array .string]).isOk) ∧
    (engineCall (createCallParametersImport (fun id : String => .ok (.record [.string id])) "id")
      ⟨some (readableLifter ∅), servingGuest 8⟩ [.i32 16, .i32 0]).isSome := by
  have htakes : ∀ values, (servingGuest 8).TakesRecord values := by
    rintro values _ ⟨⟩ setPtr ⟨⟩
    rfl
  have hbinary : ∀ result, absentBinary.toInterfaceValue result =
      .ok (.record [.string result.error]) := fun _ => rfl
  have hmemory : (⟨some (readableLifter ∅), servingGuest 8⟩ : Caller).memory =
      some (readableLifter ∅) := rfl
  have hparameters : (fun id : String => (.ok (.record [.string id]) : Except String IValue)) "id" =
      .ok (.record [.string "id"]) := rfl
  obtain ⟨hmounted, hcall⟩ := guest_crashes_iff hbinary hparameters hmemory [.i32 16, .i32 0]
  exact ⟨hmounted fun _ _ => htakes _, hcall (htakes _)⟩

/-- A pointer that lies outside of the memory. -/
def outOfRangeLifter : Lifter :=
  { readableLifter ∅ with arrayLiftMemory := fun _ _ _ => .error "out of range" }

/-- It ends the process, for a guest that serves every call. -/
theorem unreadable_argument_crashes :
    [WValue.i32 (-1), WValue.i32 1].map WValue.wtype =
      itypesArgsToWtypes (createMountedBinaryImport absentBinary).argumentTypes ∧
    engineCall (createMountedBinaryImport absentBinary) ⟨some outOfRangeLifter, servingGuest 8⟩
      [.i32 (-1), .i32 1] = none :=
  ⟨rfl, rfl⟩

end Marine.HostImports
