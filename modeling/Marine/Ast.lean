import Marine.InterfaceTypes

/-!
# The two syntax trees of the generator

What the SDK embeds in a module (`marine_macro_impl`: record, function and
extern-module descriptions) and what the generator makes of it
(`wasmer_it::ast::Interfaces` with its instructions).  How a value is passed
(`PassingStyle`) is read by no function modelled here and is left out.

Type and function indices are natural numbers: a conversion with `as u32` or
`as u64` is the identity on the indices of any module with fewer than `2 ^ 32`
types.
-/

namespace Marine

/-! ## Descriptions from the SDK -/

inductive ParsedType
  | boolean
  | i8 | i16 | i32 | i64
  | u8 | u16 | u32 | u64
  | f32 | f64
  | utf8Str | utf8String
  | vector (elem : ParsedType)
  | record (name : String)
  deriving DecidableEq, Repr

structure RecordField where
  name : Option String
  ty : ParsedType
  deriving DecidableEq, Repr

inductive RecordFields
  | named (fields : List RecordField)
  | unnamed (fields : List RecordField)
  | unit
  deriving DecidableEq, Repr

structure RecordType where
  name : String
  fields : RecordFields
  deriving DecidableEq, Repr

structure FnArgument where
  name : String
  ty : ParsedType
  deriving DecidableEq, Repr

structure FnSignature where
  name : String
  arguments : List FnArgument
  outputTypes : List ParsedType
  deriving DecidableEq, Repr

structure FnType where
  signature : FnSignature
  deriving DecidableEq, Repr

structure ExternFnType where
  linkName : Option String
  signature : FnSignature
  deriving DecidableEq, Repr

structure ExternModType where
  nameSpace : String
  imports : List ExternFnType
  deriving DecidableEq, Repr

structure ModuleAST where
  records : List RecordType
  functions : List FnType
  externMods : List ExternModType
  deriving DecidableEq, Repr

/-- Wasm-level types of the SDK. -/
inductive RustType
  | i8 | i16 | i32 | i64
  | u8 | u16 | u32 | u64
  | f32 | f64
  deriving DecidableEq, Repr

/-! ## Interface types section -/

inductive Instruction
  | argumentGet (index : Nat)
  | callCore (functionIndex : Nat)
  | boolFromI32 | s8FromI32 | s16FromI32 | s32FromI32 | s64FromI64
  | i32FromBool | i32FromS8 | i32FromS16 | i32FromS32 | i64FromS64
  | u8FromI32 | u16FromI32 | u32FromI32 | u64FromI64
  | i32FromU8 | i32FromU16 | i32FromU32 | i64FromU64
  | stringLiftMemory | stringLowerMemory | stringSize
  | byteArrayLiftMemory
  | arrayLiftMemory (valueType : IType)
  | arrayLowerMemory (valueType : IType)
  | recordLiftMemory (recordTypeId : Nat)
  | recordLowerMemory (recordTypeId : Nat)
  | dup | swap2
  | pushI32 (value : Int32)
  deriving DecidableEq, Repr

/-- `wasmer_it::ast::Type`. -/
inductive AstType
  | function (arguments : List FunctionArg) (outputTypes : List IType)
  | record (record : IRecordType)
  deriving DecidableEq, Repr

structure Import where
  nameSpace : String
  name : String
  functionType : Nat
  deriving DecidableEq, Repr

structure Adapter where
  functionType : Nat
  instructions : List Instruction
  deriving DecidableEq, Repr

structure Export where
  name : String
  functionType : Nat
  deriving DecidableEq, Repr

structure Implementation where
  coreFunctionType : Nat
  adapterFunctionType : Nat
  deriving DecidableEq, Repr

structure Interfaces where
  types : List AstType
  imports : List Import
  adapters : List Adapter
  exports : List Export
  implementations : List Implementation
  deriving DecidableEq, Repr

end Marine
