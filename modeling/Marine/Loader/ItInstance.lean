import Marine.Lib.Fallible
import Marine.Loader.MitInterfaces
import Marine.Runtime.Core

/-!
# ITInstance

The functions that `call-core` can reach and how they are numbered
(`core/src/module/wit_instance.rs`, `wit_function.rs`): the exports of the
section by position, and behind them the imports whose type has an adapter.
`funcs_eq` says what a built instance holds under each number.  Before them stand
the conversions of types and values at the border of a module
(`core/src/module/type_converters.rs`), which panic on what they do not know.
-/

namespace Marine.Loader

open Marine.Runtime

/-! ## Type converters -/

/-- A failure of the loader: an error, or a panic. -/
inductive LoadFailure
  | error (e : MError)
  | panicked
  deriving DecidableEq, Repr

/-- `wtype_to_itype` of `type_converters.rs`. -/
def wtypeToItype : WType → Except LoadFailure IType
  | .i32 => .ok .i32
  | .i64 => .ok .i64
  | .f32 => .ok .f32
  | .f64 => .ok .f64
  | _ => .error .panicked

def itypeToWtype : IType → Except LoadFailure WType
  | .s8 | .s16 | .s32 => .ok .i32
  | .s64 => .ok .i64
  | .u8 | .u16 | .u32 => .ok .i32
  | .u64 => .ok .i64
  | .i32 => .ok .i32
  | .i64 => .ok .i64
  | .f32 => .ok .f32
  | .f64 => .ok .f64
  | _ => .error .panicked

def ivalToWval : IValue → Except LoadFailure WValue
  | .i32 v => .ok (.i32 v)
  | .i64 v => .ok (.i64 v)
  | .f32 bits => .ok (.f32 bits)
  | .f64 bits => .ok (.f64 bits)
  | _ => .error .panicked

/-- The types whose values `ival_to_wval` accepts. -/
def isCoreType : IType → Bool
  | .i32 | .i64 | .f32 | .f64 => true
  | _ => false

/-- **Values at the border.**  Exactly the values of core types are converted,
and to a value of the Wasm type of theirs. -/
theorem ivalToWval_isOk_iff {records : RecordTypes} {v : IValue} {ty : IType}
    (h : v.HasType records ty) : (ivalToWval v).isOk ↔ isCoreType ty := by
  cases h <;> simp [ivalToWval, isCoreType, Except.isOk, Except.toBool]

/-! ## Functions -/

/-- `ExportFunction`, known by the Wasm signature it has. -/
structure ExportFunction where
  params : List WType
  returns : List WType
  deriving DecidableEq, Repr

/-- What the loader asks of an instantiated Wasm module. -/
structure WasmInstance where
  getFunction : String → Except MError ExportFunction
  exportMemories : List Nat
  getMemory : String → Option Nat

inductive WITFunctionInner
  | export (func : ExportFunction)
  | import (callable : Callable)
  deriving DecidableEq, Repr

structure WITFunction where
  name : String
  arguments : List FunctionArg
  outputs : List IType
  inner : WITFunctionInner
  deriving DecidableEq, Repr

namespace WITFunction

def fromExport (dynFunc : ExportFunction) (name : String) : Except LoadFailure WITFunction := do
  let arguments ← dynFunc.params.mapM wtypeToItype
  let outputs ← dynFunc.returns.mapM wtypeToItype
  -- the arguments are anonymous
  return ⟨name, arguments.map fun ty => ⟨"", ty⟩, outputs, .export dynFunc⟩

def fromImport (witModule : MModule) (moduleName functionName : String)
    (arguments : List FunctionArg) (outputs : List IType) : Except LoadFailure WITFunction :=
  match witModule.getCallable moduleName functionName with
  | .ok callable => .ok ⟨functionName, arguments, outputs, .import callable⟩
  | .error e => .error (.error e)

end WITFunction

structure ITInstance where
  funcs : AList fun _ : Nat => WITFunction
  memories : List Nat
  recordTypesById : RecordTypes

/-- `a - b` on `u32` without overflow checks. -/
def wrappingSub (a b : Nat) : Nat := if b ≤ a then a - b else a + 2 ^ 32 - b

/-- The imports that get a number: those that have an implementation. -/
def adapterImports (wit : MITInterfaces) : List Import :=
  wit.imports.filter fun i => (wit.adapterTypesByCoreType i.functionType).isSome

/-- The IT type of an import lies two places before the type it is imported with. -/
def importSignature (wit : MITInterfaces) (i : Import) :
    Except LoadFailure (List FunctionArg × List IType) :=
  match wit.typeByIdxR (wrappingSub i.functionType 2) with
  | .error e => .error (.error (.ofMITInterfacesError e))
  | .ok (.function arguments outputTypes) => .ok (arguments, outputTypes)
  -- the text of the type is that of Lean
  | .ok ty => .error (.error (.incorrectWIT
      ("IT should has Type::Function, but " ++ toString (repr ty) ++ " met")))

namespace ITInstance

/-- The function of one export. -/
def extractRawExport (wasmInstance : WasmInstance) (name : String) :
    Except LoadFailure WITFunction :=
  match wasmInstance.getFunction name with
  | .error e => .error (.error e)
  | .ok exportFunc => WITFunction.fromExport exportFunc name

def extractRawExports (wasmInstance : WasmInstance) (wit : MITInterfaces) :
    Except LoadFailure (List (Nat × WITFunction)) :=
  wit.exports.zipIdx.mapM fun (e, exportId) => do
    let func ← extractRawExport wasmInstance e.name
    return (exportId, func)

/-- The function of one import. -/
def extractImport (moduleName : String) (modules : AList fun _ : String => MModule)
    (wit : MITInterfaces) (i : Import) : Except LoadFailure WITFunction :=
  match modules.lookup i.nameSpace with
  | some module => do
    let (arguments, outputTypes) ← importSignature wit i
    WITFunction.fromImport module moduleName i.name arguments outputTypes
  | none => .error (.error (.noSuchModule i.nameSpace))

def extractImports (moduleName : String) (modules : AList fun _ : String => MModule)
    (wit : MITInterfaces) (startIndex : Nat) : Except LoadFailure (List (Nat × WITFunction)) :=
  (adapterImports wit).zipIdx.mapM fun (i, idx) => do
    let func ← extractImport moduleName modules wit i
    return (startIndex + idx, func)

/-- `STANDARD_MEMORY_EXPORT_NAME`. -/
def standardMemoryExportName : String := "memory"

def extractMemories (wasmInstance : WasmInstance) : List Nat :=
  wasmInstance.exportMemories ++ (wasmInstance.getMemory standardMemoryExportName).toList

def extractRecordTypes (wit : MITInterfaces) : RecordTypes :=
  Maps.collect <| wit.types.zipIdx.filterMap fun (ty, id) =>
    match ty with
    | .record recordType => some (id, recordType)
    | .function _ _ => none

def new (wasmInstance : WasmInstance) (moduleName : String) (wit : MITInterfaces)
    (modules : AList fun _ : String => MModule) : Except LoadFailure ITInstance := do
  let exports ← extractRawExports wasmInstance wit
  let imports ← extractImports moduleName modules wit (Maps.collect exports).entries.length
  return {
    funcs := Maps.collect (exports ++ imports)
    memories := extractMemories wasmInstance
    recordTypesById := extractRecordTypes wit }

end ITInstance

/-! ## The numbering -/

/-- What `call-core` reaches under a number. -/
inductive CallTarget
  | export (name : String)
  | import (i : Import)
  deriving DecidableEq, Repr

/-- The targets of `call-core`, by number. -/
def numbering (wit : MITInterfaces) : List CallTarget :=
  wit.exports.map (fun e => .export e.name) ++ (adapterImports wit).map .import

/-- The function that an instance holds for a target. -/
def targetFunc (wasmInstance : WasmInstance) (moduleName : String)
    (modules : AList fun _ : String => MModule) (wit : MITInterfaces) :
    CallTarget → Except LoadFailure WITFunction
  | .export name => ITInstance.extractRawExport wasmInstance name
  | .import i => ITInstance.extractImport moduleName modules wit i

/-- **Numbering lemma.**  A built instance holds under each number the function
of the target with that number, and nothing under the others. -/
theorem funcs_eq {wasmInstance : WasmInstance} {moduleName : String} {wit : MITInterfaces}
    {modules : AList fun _ : String => MModule} {it : ITInstance}
    (h : ITInstance.new wasmInstance moduleName wit modules = .ok it) :
    ∃ funcs, (numbering wit).mapM (targetFunc wasmInstance moduleName modules wit) = .ok funcs ∧
      ∀ i, it.funcs.lookup i = funcs[i]? := by
  obtain ⟨exports, hexports, h⟩ := Fallible.bind_eq_ok_iff.mp h
  obtain ⟨imports, himports, h⟩ := Fallible.bind_eq_ok_iff.mp h
  cases h
  obtain ⟨es, hes, rfl⟩ := Fallible.mapM_zipIdx_eq_ok
    (fun e : Export => ITInstance.extractRawExport wasmInstance e.name) id hexports
  have hstart : (Maps.collect (Maps.enumerate es)).entries.length = es.length :=
    (Maps.length_collect (Maps.nodup_enumerate es)).trans (by simp [Maps.enumerate])
  obtain ⟨is, his, rfl⟩ := Fallible.mapM_zipIdx_eq_ok
    (ITInstance.extractImport moduleName modules wit)
    (fun idx => (Maps.collect (Maps.enumerate es)).entries.length + idx) himports
  refine ⟨es ++ is, ?_, fun i => ?_⟩
  · rw [numbering, List.mapM_append, List.mapM_map, List.mapM_map]
    exact Fallible.bind_eq_ok_iff.mpr
      ⟨es, hes, Fallible.bind_eq_ok_iff.mpr ⟨is, his, rfl⟩⟩
  · have hall := Maps.enumerate_append es is
    rw [← hstart] at hall
    rw [← Maps.lookup_collect_enumerate, hall]
    rfl

end Marine.Loader
