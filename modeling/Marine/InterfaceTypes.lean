import Mathlib.Data.List.AList

/-!
# Interface types and Wasm values

The data the whole runtime passes around: interface types and values
(`wasmer_it::IType`, `IValue`, `IRecordType`, `FunctionArg`), Wasm types and
values (`crates/wasm-backend-traits/src/wtype.rs`) and record tables.  Floats
are kept as their bits, since no modelled function computes with them.
-/

namespace Marine

inductive IType
  | boolean
  | s8 | s16 | s32 | s64
  | u8 | u16 | u32 | u64
  | f32 | f64
  | string
  | byteArray
  | array (elem : IType)
  | i32 | i64
  | record (recordTypeId : Nat)
  deriving DecidableEq, Repr

/-- The record a type mentions, inside arrays of any depth. -/
def IType.mentioned : IType → Option Nat
  | .record recordTypeId => some recordTypeId
  | .array elem => elem.mentioned
  | _ => none

structure IRecordFieldType where
  name : String
  ty : IType
  deriving DecidableEq, Repr

def IRecordFieldType.mentioned (field : IRecordFieldType) : Option Nat := field.ty.mentioned

/-- Fields are a plain list: `NEVec` checks for emptiness where a record is
built, in `RecordType::generate_it`. -/
structure IRecordType where
  name : String
  fields : List IRecordFieldType
  deriving DecidableEq, Repr

structure FunctionArg where
  name : String
  ty : IType
  deriving DecidableEq, Repr

/-- `HashMap<u64, Arc<IRecordType>>`. -/
abbrev RecordTypes := AList fun _ : Nat => IRecordType

inductive IValue
  | boolean (v : Bool)
  | s8 (v : Int8) | s16 (v : Int16) | s32 (v : Int32) | s64 (v : Int64)
  | u8 (v : UInt8) | u16 (v : UInt16) | u32 (v : UInt32) | u64 (v : UInt64)
  | f32 (bits : UInt32) | f64 (bits : UInt64)
  | string (v : String)
  | byteArray (v : List UInt8)
  | array (vs : List IValue)
  | i32 (v : Int32) | i64 (v : Int64)
  | record (fields : List IValue)

/-- Values of an interface type, records resolved in `records`.  A byte array
is a `ByteArray` or an array of `U8`, under either type. -/
inductive IValue.HasType (records : RecordTypes) : IValue → IType → Prop
  | boolean {v} : HasType records (.boolean v) .boolean
  | s8 {v} : HasType records (.s8 v) .s8
  | s16 {v} : HasType records (.s16 v) .s16
  | s32 {v} : HasType records (.s32 v) .s32
  | s64 {v} : HasType records (.s64 v) .s64
  | u8 {v} : HasType records (.u8 v) .u8
  | u16 {v} : HasType records (.u16 v) .u16
  | u32 {v} : HasType records (.u32 v) .u32
  | u64 {v} : HasType records (.u64 v) .u64
  | f32 {bits} : HasType records (.f32 bits) .f32
  | f64 {bits} : HasType records (.f64 bits) .f64
  | string {v} : HasType records (.string v) .string
  | byteArray {v} : HasType records (.byteArray v) .byteArray
  | u8Bytes {v} : HasType records (.byteArray v) (.array .u8)
  | bytesU8 {vs} : (∀ v ∈ vs, HasType records v .u8) → HasType records (.array vs) .byteArray
  | array {vs elem} : (∀ v ∈ vs, HasType records v elem) → HasType records (.array vs) (.array elem)
  | i32 {v} : HasType records (.i32 v) .i32
  | i64 {v} : HasType records (.i64 v) .i64
  | record {fields id} {r : IRecordType} : records.lookup id = some r →
      fields.length = r.fields.length →
      (∀ (i : Nat) v (f : IRecordFieldType), fields[i]? = some v → r.fields[i]? = some f →
        HasType records v f.ty) →
      HasType records (.record fields) (.record id)

inductive WType
  | i32 | i64 | f32 | f64 | v128 | externRef | funcRef
  deriving DecidableEq, Repr

inductive WValue
  | i32 (v : Int32) | i64 (v : Int64) | f32 (bits : UInt32) | f64 (bits : UInt64)
  deriving DecidableEq, Repr

namespace WValue

/-- The Wasm type of a value. -/
def wtype : WValue → WType
  | i32 _ => .i32
  | i64 _ => .i64
  | f32 _ => .f32
  | f64 _ => .f64

/-- `x as u128` sign-extends the integers and keeps the bits of the floats. -/
def toU128 : WValue → BitVec 128
  | i32 v => v.toBitVec.signExtend 128
  | i64 v => v.toBitVec.signExtend 128
  | f32 bits => bits.toBitVec.setWidth 128
  | f64 bits => bits.toBitVec.setWidth 128

end WValue

/-- `x as i32` on a `u128`. -/
def u128AsI32 (x : BitVec 128) : Int32 := ⟨⟨x.setWidth 32⟩⟩

@[simp] theorem u128AsI32_toU128_i32 (v : Int32) : u128AsI32 (WValue.i32 v).toU128 = v := by
  have hbits : (v.toBitVec.signExtend 128).setWidth 32 = v.toBitVec := by
    apply BitVec.eq_of_getLsbD_eq
    intro i hi
    have hwide : i < 128 := by omega
    simp only [BitVec.getLsbD_setWidth, BitVec.getLsbD_signExtend, hi, hwide, decide_true,
      Bool.true_and, if_true]
  simp only [u128AsI32, WValue.toU128, hbits]
  rfl

end Marine
