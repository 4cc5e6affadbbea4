import Marine.Generator.Resolver

/-!
# Adapters of functions

The instructions the generator writes for the exported functions of a module
and for the functions it imports from other modules
(`fn_instructions.rs`, `foreign_mod_instructions.rs` and the tables for
arguments and outputs beside them).
-/

namespace Marine.Generator

/-! ## The default export API -/

structure ApiExportFuncDescriptor where
  name : String
  id : Nat
  arguments : List FunctionArg
  outputTypes : List IType
  deriving DecidableEq, Repr

def allocateFunc : ApiExportFuncDescriptor := ⟨"allocate", 0, [⟨"size", .i32⟩], [.i32]⟩

def releaseObjects : ApiExportFuncDescriptor := ⟨"release_objects", 1, [], []⟩

def getResultSizeFunc : ApiExportFuncDescriptor := ⟨"get_result_size", 2, [], [.i32]⟩

def getResultPtrFunc : ApiExportFuncDescriptor := ⟨"get_result_ptr", 3, [], [.i32]⟩

def setResultSizeFunc : ApiExportFuncDescriptor :=
  ⟨"set_result_size", 4, [⟨"result_size", .i32⟩], []⟩

def setResultPtrFunc : ApiExportFuncDescriptor :=
  ⟨"set_result_ptr", 5, [⟨"result_ptr", .i32⟩], []⟩

/-! ## Signatures -/

def generateItArgs (r : ITResolver) (signature : FnSignature) :
    Except ITGeneratorError (List FunctionArg) :=
  signature.arguments.mapM fun arg => do
    let ty ← ptypeToItypeChecked r arg.ty
    return ⟨arg.name, ty⟩

def generateItOutputType (r : ITResolver) (signature : FnSignature) :
    Except ITGeneratorError (List IType) :=
  signature.outputTypes.mapM (ptypeToItypeChecked r)

def toRawInputTypes (arg : FnArgument) : List FunctionArg :=
  match arg.ty with
  | .boolean | .i8 | .i16 | .i32 | .u8 | .u16 | .u32 | .record _ => [⟨arg.name, .i32⟩]
  | .i64 | .u64 => [⟨arg.name, .i64⟩]
  | .f32 => [⟨arg.name, .f32⟩]
  | .f64 => [⟨arg.name, .f64⟩]
  -- both names end in `_ptr`
  | .utf8Str | .utf8String | .vector _ => [⟨arg.name ++ "_ptr", .i32⟩, ⟨arg.name ++ "_ptr", .i32⟩]

def toRawOutputType : ParsedType → List RustType
  | .boolean | .i8 | .i16 | .i32 | .u8 | .u16 | .u32 => [.i32]
  | .i64 | .u64 => [.i64]
  | .f32 => [.f32]
  | .f64 => [.f64]
  | .utf8Str | .utf8String | .vector _ | .record _ => []

/-- `wtype_to_itype` of the generator. -/
def rustTypeToItype : RustType → IType
  | .i8 => .s8
  | .i16 => .s16
  | .i32 => .s32
  | .i64 => .s64
  | .u8 => .u8
  | .u16 => .u16
  | .u32 => .u32
  | .u64 => .u64
  | .f32 => .f32
  | .f64 => .f64

def generateRawArgs (signature : FnSignature) : List FunctionArg :=
  signature.arguments.flatMap toRawInputTypes

def generateRawOutputType (signature : FnSignature) : List IType :=
  signature.outputTypes.flatMap fun ty => (toRawOutputType ty).map rustTypeToItype

/-! ## Exported functions -/

/-- Argument `index` of an exported function. -/
def exportArgInstructions (deps : Externals) (r : ITResolver) (index : Nat) :
    ParsedType → Except ITGeneratorError (List Instruction)
  | .boolean => .ok [.argumentGet index, .i32FromBool]
  | .i8 => .ok [.argumentGet index, .i32FromS8]
  | .i16 => .ok [.argumentGet index, .i32FromS16]
  | .i32 => .ok [.argumentGet index, .i32FromS32]
  | .i64 => .ok [.argumentGet index, .i64FromS64]
  | .u8 => .ok [.argumentGet index, .i32FromU8]
  | .u16 => .ok [.argumentGet index, .i32FromU16]
  | .u32 => .ok [.argumentGet index, .i32FromU32]
  | .u64 => .ok [.argumentGet index, .i64FromU64]
  | .f32 => .ok [.argumentGet index]
  | .f64 => .ok [.argumentGet index]
  | .utf8Str | .utf8String => .ok [.argumentGet index, .stringSize,
      .pushI32 (deps.serTypeSize .u8), .callCore allocateFunc.id,
      .argumentGet index, .stringLowerMemory]
  | .vector valueType => do
    let valueType ← ptypeToItypeChecked r valueType
    return [.argumentGet index, .arrayLowerMemory valueType]
  | .record recordName => do
    let recordTypeId ← r.getRecordTypeId recordName
    return [.argumentGet index, .recordLowerMemory recordTypeId]

def exportOutputInstructions (r : ITResolver) :
    ParsedType → Except ITGeneratorError (List Instruction)
  | .boolean => .ok [.boolFromI32]
  | .i8 => .ok [.s8FromI32]
  | .i16 => .ok [.s16FromI32]
  | .i32 => .ok [.s32FromI32]
  | .i64 => .ok [.s64FromI64]
  | .u8 => .ok [.u8FromI32]
  | .u16 => .ok [.u16FromI32]
  | .u32 => .ok [.u32FromI32]
  | .u64 => .ok [.u64FromI64]
  | .f32 => .ok []
  | .f64 => .ok []
  | .utf8Str | .utf8String => .ok
      [.callCore getResultPtrFunc.id, .callCore getResultSizeFunc.id, .stringLiftMemory]
  | .vector valueType => do
    let valueType ← ptypeToItypeChecked r valueType
    if valueType = .u8 then
      return [.callCore getResultPtrFunc.id, .callCore getResultSizeFunc.id, .byteArrayLiftMemory]
    else
      return [.callCore getResultPtrFunc.id, .callCore getResultSizeFunc.id,
        .arrayLiftMemory valueType]
  | .record recordName => do
    let recordTypeId ← r.getRecordTypeId recordName
    return [.callCore getResultPtrFunc.id, .recordLiftMemory recordTypeId]

/-- The fold over the arguments of an exported function, from argument `index` on. -/
def exportArgs (deps : Externals) (r : ITResolver) :
    Nat → List FnArgument → Except ITGeneratorError (List Instruction)
  | _, [] => .ok []
  | index, arg :: args => do
    let instructions ← exportArgInstructions deps r index arg.ty
    let rest ← exportArgs deps r (index + 1) args
    return instructions ++ rest

def exportOutputs (r : ITResolver) (outputTypes : List ParsedType) :
    Except ITGeneratorError (List Instruction) := do
  let instructions ← outputTypes.mapM (exportOutputInstructions r)
  return instructions.flatten

/-- The call of `release_objects` behind complex outputs of an exported
function, or behind complex arguments of an imported one. -/
def releaseCall (deps : Externals) (types : List ParsedType) : List Instruction :=
  if types.any deps.isComplexType then [.callCore releaseObjects.id] else []

namespace FnType

def generateItTypes (r : ITResolver) (fnType : FnType) : Except ITGeneratorError ITResolver := do
  let arguments ← generateItArgs r fnType.signature
  let outputTypes ← generateItOutputType r fnType.signature
  let r := (r.addFnType arguments outputTypes).addFnType arguments outputTypes
  let exportIdx := r.interfaces.types.length - 1
  return r.addExport fnType.signature.name exportIdx

def generateInstructions (deps : Externals) (r : ITResolver) (fnType : FnType) :
    Except ITGeneratorError ITResolver := do
  let arguments ← exportArgs deps r 0 fnType.signature.arguments
  let exportFunctionIndex := r.interfaces.exports.length - 1
  let outputs ← exportOutputs r fnType.signature.outputTypes
  let instructions := arguments ++ [.callCore exportFunctionIndex] ++ outputs ++
    releaseCall deps fnType.signature.outputTypes
  let typesCount := r.interfaces.types.length
  let adapterIdx := typesCount - 2
  let exportIdx := typesCount - 1
  return (r.addAdapter adapterIdx instructions).addImplementation exportIdx adapterIdx

def generateIt (deps : Externals) (r : ITResolver) (fnType : FnType) :
    Except ITGeneratorError ITResolver := do
  let r ← generateItTypes r fnType
  generateInstructions deps r fnType

end FnType

/-! ## Functions of other modules -/

/-- Raw arguments from `index` on make up one argument; how many they are. -/
def importArgInstructions (r : ITResolver) (index : Nat) :
    ParsedType → Except ITGeneratorError (List Instruction × Nat)
  | .boolean => .ok ([.argumentGet index, .boolFromI32], 1)
  | .i8 => .ok ([.argumentGet index, .s8FromI32], 1)
  | .i16 => .ok ([.argumentGet index, .s16FromI32], 1)
  | .i32 => .ok ([.argumentGet index, .s32FromI32], 1)
  | .i64 => .ok ([.argumentGet index, .s64FromI64], 1)
  | .u8 => .ok ([.argumentGet index, .u8FromI32], 1)
  | .u16 => .ok ([.argumentGet index, .u16FromI32], 1)
  | .u32 => .ok ([.argumentGet index, .u32FromI32], 1)
  | .u64 => .ok ([.argumentGet index, .u64FromI64], 1)
  | .f32 => .ok ([.argumentGet index], 1)
  | .f64 => .ok ([.argumentGet index], 1)
  | .utf8Str | .utf8String =>
    .ok ([.argumentGet index, .argumentGet (index + 1), .stringLiftMemory], 2)
  | .vector valueType => do
    let valueType ← ptypeToItypeChecked r valueType
    if valueType = .u8 then
      return ([.argumentGet index, .argumentGet (index + 1), .byteArrayLiftMemory], 2)
    else
      return ([.argumentGet index, .argumentGet (index + 1), .arrayLiftMemory valueType], 2)
  | .record recordName => do
    let recordTypeId ← r.getRecordTypeId recordName
    return ([.argumentGet index, .recordLiftMemory recordTypeId], 1)

def importOutputInstructions (deps : Externals) (r : ITResolver) :
    ParsedType → Except ITGeneratorError (List Instruction)
  | .boolean => .ok [.i32FromBool]
  | .i8 => .ok [.i32FromS8]
  | .i16 => .ok [.i32FromS16]
  | .i32 => .ok [.i32FromS32]
  | .i64 => .ok [.i64FromS64]
  | .u8 => .ok [.i32FromU8]
  | .u16 => .ok [.i32FromU16]
  | .u32 => .ok [.i32FromU32]
  | .u64 => .ok [.i64FromU64]
  | .f32 => .ok []
  | .f64 => .ok []
  | .utf8Str | .utf8String => .ok [.dup, .stringSize, .pushI32 (deps.serTypeSize .u8),
      .callCore allocateFunc.id, .swap2, .stringLowerMemory,
      .callCore setResultSizeFunc.id, .callCore setResultPtrFunc.id]
  | .vector valueType => do
    let valueType ← ptypeToItypeChecked r valueType
    return [.arrayLowerMemory valueType, .callCore setResultSizeFunc.id,
      .callCore setResultPtrFunc.id]
  | .record recordName => do
    let recordTypeId ← r.getRecordTypeId recordName
    return [.recordLowerMemory recordTypeId, .callCore setResultPtrFunc.id]

/-- The fold over the arguments of an imported function, from raw argument `index` on. -/
def importArgs (r : ITResolver) :
    Nat → List FnArgument → Except ITGeneratorError (List Instruction)
  | _, [] => .ok []
  | index, arg :: args => do
    let (instructions, shift) ← importArgInstructions r index arg.ty
    let rest ← importArgs r (index + shift) args
    return instructions ++ rest

def importOutputs (deps : Externals) (r : ITResolver) (outputTypes : List ParsedType) :
    Except ITGeneratorError (List Instruction) := do
  let instructions ← outputTypes.mapM (importOutputInstructions deps r)
  return instructions.flatten

namespace ExternFnType

def name (fnType : ExternFnType) : String :=
  match fnType.linkName with
  | some linkName => linkName
  | none => fnType.signature.name

def generateItTypes (r : ITResolver) (nameSpace : String) (fnType : ExternFnType) :
    Except ITGeneratorError ITResolver := do
  let arguments ← generateItArgs r fnType.signature
  let outputTypes ← generateItOutputType r fnType.signature
  let r := r.addFnType arguments outputTypes
  let rawArguments := generateRawArgs fnType.signature
  let rawOutputTypes := generateRawOutputType fnType.signature
  let r := (r.addFnType rawArguments rawOutputTypes).addFnType rawArguments rawOutputTypes
  let typesCount := r.interfaces.types.length
  let importIdx := typesCount - 3
  let rawImportIdx := typesCount - 1
  let linkName := name fnType
  return (r.addImport nameSpace linkName importIdx).addImport nameSpace linkName rawImportIdx

def generateItInstructions (deps : Externals) (r : ITResolver) (fnType : ExternFnType) :
    Except ITGeneratorError ITResolver := do
  let adapterIdx := r.interfaces.types.length - 2
  let rawImportIdx := r.interfaces.types.length - 1
  let arguments ← importArgs r 0 fnType.signature.arguments
  let importFunctionIndex := r.interfaces.exports.length + r.interfaces.imports.length / 2 - 1
  let outputs ← importOutputs deps r fnType.signature.outputTypes
  let instructions := arguments ++
    releaseCall deps (fnType.signature.arguments.map FnArgument.ty) ++
    [.callCore importFunctionIndex] ++ outputs
  return (r.addAdapter adapterIdx instructions).addImplementation rawImportIdx adapterIdx

def generateItForImport (deps : Externals) (nameSpace : String) (r : ITResolver)
    (fnType : ExternFnType) : Except ITGeneratorError ITResolver := do
  let r ← generateItTypes r nameSpace fnType
  generateItInstructions deps r fnType

end ExternFnType

def hostNamespaceV0 : String := "host"

def hostNamespacePrefix : String := "__marine_host_api_v"

def isHostImport (nameSpace : String) : Bool :=
  nameSpace = hostNamespaceV0 || hostNamespacePrefix.toList.isPrefixOf nameSpace.toList

def ExternModType.generateIt (deps : Externals) (r : ITResolver) (externMod : ExternModType) :
    Except ITGeneratorError ITResolver :=
  if isHostImport externMod.nameSpace then
    .ok r
  else
    externMod.imports.foldlM (ExternFnType.generateItForImport deps externMod.nameSpace) r

end Marine.Generator
