import Marine.Ast
import Marine.Lib.Fallible
import Mathlib.Data.List.AList

/-!
# The resolver and the records of a module

`ITResolver` collects the interface types section while the descriptions of a
module are processed (`crates/it-generator/src/instructions_generator.rs`,
`record_instructions.rs`, `utils.rs`).  A record that is used before it is
described gets a stub under its name, and the number of stubs is kept in
`unresolved_types_count`, a `usize` without overflow checks.
-/

namespace Marine.Generator

/-- What the generator uses of `marine_macro_impl`, `it_lilo` and `wasmer_it`. -/
structure Externals where
  isComplexType : ParsedType → Bool
  serTypeSize : IType → Int32
  defaultRecord : IRecordType

/-- `panicked` is no error of the source: it is the panic of `get_record_type`. -/
inductive ITGeneratorError
  | deserializationError (text : String)
  | corruptedRecord (text : String)
  | ioError (text : String)
  | panicked
  deriving DecidableEq, Repr

structure ITResolver where
  types : AList fun _ : String => Nat
  interfaces : Interfaces
  unresolvedTypesCount : UInt64

namespace ITResolver

/-- `ITResolver::default()`. -/
def empty : ITResolver := ⟨∅, ⟨[], [], [], [], []⟩, 0⟩

def pushType (r : ITResolver) (ty : AstType) : ITResolver :=
  { r with interfaces := { r.interfaces with types := r.interfaces.types ++ [ty] } }

def getRecordTypeId (r : ITResolver) (recordName : String) : Except ITGeneratorError Nat :=
  match r.types.lookup recordName with
  | some typeIndex => .ok typeIndex
  | none => .error (.corruptedRecord ("Can't find record with name='" ++ recordName ++
      "', don't you forget to wrap it with #[marine]"))

def getRecordTypeIdUnchecked (deps : Externals) (r : ITResolver) (recordName : String) :
    Nat × ITResolver :=
  match r.types.lookup recordName with
  | some typeIndex => (typeIndex, r)
  | none =>
    let newTypeId := r.interfaces.types.length
    (newTypeId, { r.pushType (.record deps.defaultRecord) with
      types := r.types.insert recordName newTypeId
      unresolvedTypesCount := r.unresolvedTypesCount + 1 })

def getRecordType (r : ITResolver) (recordTypeId : Nat) : Except ITGeneratorError IRecordType :=
  match r.interfaces.types[recordTypeId]? with
  | none => .error (.corruptedRecord ("Can't find record with id " ++ toString recordTypeId ++
      ", don't you forget to wrap it with #[marine]"))
  | some (.function _ _) => .error .panicked
  | some (.record recordType) => .ok recordType

def insertRecordType (r : ITResolver) (record : IRecordType) : ITResolver :=
  match r.types.lookup record.name with
  | some pos =>
    { r with
      interfaces := { r.interfaces with types := r.interfaces.types.set pos (.record record) }
      unresolvedTypesCount := r.unresolvedTypesCount - 1 }
  | none =>
    { r.pushType (.record record) with
      types := r.types.insert record.name r.interfaces.types.length }

def addAdapter (r : ITResolver) (functionType : Nat) (instructions : List Instruction) :
    ITResolver :=
  { r with interfaces := { r.interfaces with
    adapters := r.interfaces.adapters ++ [⟨functionType, instructions⟩] } }

def addImplementation (r : ITResolver) (coreFunctionType adapterFunctionType : Nat) :
    ITResolver :=
  { r with interfaces := { r.interfaces with
    implementations :=
      r.interfaces.implementations ++ [⟨coreFunctionType, adapterFunctionType⟩] } }

def addExport (r : ITResolver) (name : String) (functionType : Nat) : ITResolver :=
  { r with interfaces := { r.interfaces with
    exports := r.interfaces.exports ++ [⟨name, functionType⟩] } }

def addImport (r : ITResolver) (nameSpace name : String) (functionType : Nat) : ITResolver :=
  { r with interfaces := { r.interfaces with
    imports := r.interfaces.imports ++ [⟨nameSpace, name, functionType⟩] } }

def addFnType (r : ITResolver) (arguments : List FunctionArg) (outputTypes : List IType) :
    ITResolver :=
  r.pushType (.function arguments outputTypes)

def addRecordType (r : ITResolver) (name : String) (fields : List IRecordFieldType) :
    ITResolver :=
  r.insertRecordType ⟨name, fields⟩

end ITResolver

/-! ## Interface types of described types -/

def arrayOf (elem : IType) : IType := if elem = .u8 then .byteArray else .array elem

def ptypeToItypeChecked (r : ITResolver) : ParsedType → Except ITGeneratorError IType
  | .i8 => .ok .s8
  | .i16 => .ok .s16
  | .i32 => .ok .s32
  | .i64 => .ok .s64
  | .u8 => .ok .u8
  | .u16 => .ok .u16
  | .u32 => .ok .u32
  | .u64 => .ok .u64
  | .f32 => .ok .f32
  | .f64 => .ok .f64
  | .boolean => .ok .boolean
  | .utf8Str => .ok .string
  | .utf8String => .ok .string
  | .vector ty => do
    let arrayItype ← ptypeToItypeChecked r ty
    return arrayOf arrayItype
  | .record recordName => do
    let recordTypeId ← r.getRecordTypeId recordName
    return .record recordTypeId

def ptypeToItypeUnchecked (deps : Externals) (r : ITResolver) : ParsedType → IType × ITResolver
  | .i8 => (.s8, r)
  | .i16 => (.s16, r)
  | .i32 => (.s32, r)
  | .i64 => (.s64, r)
  | .u8 => (.u8, r)
  | .u16 => (.u16, r)
  | .u32 => (.u32, r)
  | .u64 => (.u64, r)
  | .f32 => (.f32, r)
  | .f64 => (.f64, r)
  | .boolean => (.boolean, r)
  | .utf8Str => (.string, r)
  | .utf8String => (.string, r)
  | .vector ty =>
    let (arrayItype, r) := ptypeToItypeUnchecked deps r ty
    (arrayOf arrayItype, r)
  | .record recordName =>
    let (recordTypeId, r) := r.getRecordTypeIdUnchecked deps recordName
    (.record recordTypeId, r)

/-- **Unchecked types** change nothing, or add a stub under a new name. -/
theorem ptypeToItypeUnchecked_cases (deps : Externals) (r : ITResolver) (ty : ParsedType) :
    (ptypeToItypeUnchecked deps r ty).2 = r ∨
      ∃ name, r.types.lookup name = none ∧ (ptypeToItypeUnchecked deps r ty).2 =
        { r.pushType (.record deps.defaultRecord) with
          types := r.types.insert name r.interfaces.types.length
          unresolvedTypesCount := r.unresolvedTypesCount + 1 } := by
  induction ty with
  | vector elem ih => exact ih
  | record name =>
    simp only [ptypeToItypeUnchecked, ITResolver.getRecordTypeIdUnchecked]
    cases hnew : r.types.lookup name with
    | some typeIndex => exact .inl rfl
    | none => exact .inr ⟨name, hnew, rfl⟩
  | _ => exact .inl rfl

@[simp] theorem getRecordTypeId_eq_ok_iff {r : ITResolver} {name : String} {id : Nat} :
    r.getRecordTypeId name = .ok id ↔ r.types.lookup name = some id := by
  unfold ITResolver.getRecordTypeId
  cases r.types.lookup name with
  | none => simp
  | some id' => simp

@[simp] theorem ptypeToItypeChecked_vector_iff {r : ITResolver} {elem : ParsedType} {t : IType} :
    ptypeToItypeChecked r (.vector elem) = .ok t ↔
      ∃ t', ptypeToItypeChecked r elem = .ok t' ∧ arrayOf t' = t := by
  rw [ptypeToItypeChecked, Fallible.bind_eq_ok_iff]
  simp only [pure, Except.pure, Except.ok.injEq]

@[simp] theorem ptypeToItypeChecked_record_iff {r : ITResolver} {name : String} {t : IType} :
    ptypeToItypeChecked r (.record name) = .ok t ↔
      ∃ id, r.types.lookup name = some id ∧ .record id = t := by
  rw [ptypeToItypeChecked, Fallible.bind_eq_ok_iff]
  simp only [getRecordTypeId_eq_ok_iff, pure, Except.pure, Except.ok.injEq]

/-! ## Records -/

/-- The closure over the fields in `RecordType::generate_it`. -/
def generateFields (deps : Externals) (r : ITResolver) :
    List RecordField → List IRecordFieldType × ITResolver
  | [] => ([], r)
  | field :: fields =>
    let (ty, r) := ptypeToItypeUnchecked deps r field.ty
    let (rest, r) := generateFields deps r fields
    (⟨field.name.getD "", ty⟩ :: rest, r)

def RecordFields.list : RecordFields → Option (List RecordField)
  | .named fields => some fields
  | .unnamed fields => some fields
  | .unit => none

def generateRecord (deps : Externals) (r : ITResolver) (record : RecordType) :
    Except ITGeneratorError ITResolver :=
  match RecordFields.list record.fields with
  | none => .ok r
  | some fields =>
    let (fields, r) := generateFields deps r fields
    -- `NEVec::new`
    if fields = [] then
      .error (.corruptedRecord ("serialized record with name '" ++ record.name ++
        "' contains no fields"))
    else
      .ok (r.addRecordType record.name fields)

end Marine.Generator
