import Marine.Lib.DepthFirst
import Marine.Loader.InterfaceClosure

/-!
# The published interface of a module

`crates/module-interface/src/interface/`: the interface of a module with its
types as texts and its records in an order in which each comes behind the
records that its fields mention.

The map of the records is walked through in any order (`IterationOrder`).  The
search has fuel, which is no part of the source: `outOfFuel` is ruled out in
`Interface/PublishedRecords.lean`.
-/

namespace Marine.Interface

open Marine.Loader

inductive InterfaceError
  | notFoundRecordTypeId (recordTypeId : Nat)
  | itInterfaceError (e : ITInterfaceError)
  deriving DecidableEq, Repr

/-- An error, the panic of an `unwrap`, or the end of the fuel. -/
inductive InterfaceFailure
  | error (e : InterfaceError)
  | panicked
  | outOfFuel
  deriving DecidableEq, Repr

structure FunctionSignature where
  name : String
  arguments : List (String × String)
  outputTypes : List String
  deriving DecidableEq, Repr

structure RecordField where
  name : String
  ty : String
  deriving DecidableEq, Repr

structure RecordType where
  name : String
  id : Nat
  fields : List RecordField
  deriving DecidableEq, Repr

structure ModuleInterface where
  functionSignatures : List FunctionSignature
  recordTypes : List RecordType
  deriving DecidableEq, Repr

/-- An order in which a map is iterated. -/
structure IterationOrder where
  arrange : List (Nat × IRecordType) → List (Nat × IRecordType)
  perm : ∀ l, (arrange l).Perm l

/-! ## Types as texts -/

def itypeTextView (recordTypes : RecordTypes) : IType → Except InterfaceFailure String
  | .record recordTypeId =>
    match recordTypes.lookup recordTypeId with
    | some record => .ok record.name
    | none => .error .panicked
  | .array arrayTy => do
    let text ← itypeTextView recordTypes arrayTy
    return "[]" ++ text
  | .boolean => .ok "bool"
  | .s8 => .ok "i8"
  | .s16 => .ok "i16"
  | .s32 => .ok "i32"
  | .s64 => .ok "i64"
  | .u8 => .ok "u8"
  | .u16 => .ok "u16"
  | .u32 => .ok "u32"
  | .u64 => .ok "u64"
  | .f32 => .ok "f32"
  | .f64 => .ok "f64"
  | .string => .ok "string"
  | .byteArray => .ok "[]u8"
  | .i32 => .ok "i32"
  | .i64 => .ok "i64"

def serializeFunctionSignature (recordTypes : RecordTypes) (signature : IFunctionSignature) :
    Except InterfaceFailure FunctionSignature := do
  let arguments ← signature.arguments.mapM fun arg => do
    let text ← itypeTextView recordTypes arg.ty
    return (arg.name, text)
  let outputTypes ← signature.outputs.mapM (itypeTextView recordTypes)
  return ⟨signature.name, arguments, outputTypes⟩

/-! ## RecordsTransformer -/

/-- `used` and `sorted_order`. -/
abbrev RecordsTransformer := DepthFirst.State Nat

namespace RecordsTransformer

/-- `dfs` visits a record of the exported ones. -/
def typeDfs (exportedRecords : RecordTypes)
    (dfs : Nat → IRecordType → RecordsTransformer → Except InterfaceFailure RecordsTransformer)
    (t : RecordsTransformer) : IType → Except InterfaceFailure RecordsTransformer
  | .record typeId =>
    match exportedRecords.lookup typeId with
    | none => .error (.error (.notFoundRecordTypeId typeId))
    | some childRecord => dfs typeId childRecord t
  | .array ty => typeDfs exportedRecords dfs t ty
  | _ => .ok t

def dfs (exportedRecords : RecordTypes) : Nat → Nat → IRecordType → RecordsTransformer →
    Except InterfaceFailure RecordsTransformer
  | 0, _, _, _ => .error .outOfFuel
  | fuel + 1, recordId, record, t =>
    if recordId ∈ t.used then
      .ok t
    else do
      let t ← record.fields.foldlM
        (fun t field => typeDfs exportedRecords (dfs exportedRecords fuel) t field.ty)
        { t with used := recordId :: t.used }
      return { t with sortedOrder := t.sortedOrder ++ [recordId] }

/-- The pairs of the map, sorted by name; `sorted_by_key` is stable. -/
def sortedByName (order : IterationOrder) (exportedRecords : RecordTypes) :
    List (Nat × IRecordType) :=
  (order.arrange (exportedRecords.entries.map fun e => (e.1, e.2))).mergeSort
    fun a b => decide (a.2.name ≤ b.2.name)

def topologicalSort (order : IterationOrder) (exportedRecords : RecordTypes)
    (t : RecordsTransformer) : Except InterfaceFailure RecordsTransformer :=
  (sortedByName order exportedRecords).foldlM
    (fun t p => dfs exportedRecords (exportedRecords.entries.length + 1) p.1 p.2 t) t

def convertRecord (id : Nat) (record : IRecordType) (recordTypes : RecordTypes) :
    Except InterfaceFailure RecordType := do
  let fields ← record.fields.mapM fun field => do
    let ty ← itypeTextView recordTypes field.ty
    return (⟨field.name, ty⟩ : RecordField)
  return ⟨record.name, id, fields⟩

/-- The conversion of one id. -/
def intoTransformedRecord (recordTypes : RecordTypes) (id : Nat) :
    Except InterfaceFailure RecordType :=
  match recordTypes.lookup id with
  | some record => convertRecord id record recordTypes
  | none => .error .panicked

def intoTransformedRecords (t : RecordsTransformer) (recordTypes : RecordTypes) :
    Except InterfaceFailure (List RecordType) :=
  t.sortedOrder.mapM (intoTransformedRecord recordTypes)

def transform (order : IterationOrder) (recordTypes : RecordTypes) :
    Except InterfaceFailure (List RecordType) := do
  let t ← topologicalSort order recordTypes DepthFirst.State.empty
  intoTransformedRecords t recordTypes

end RecordsTransformer

def itToModuleInterface (order : IterationOrder) (mmInterface : IModuleInterface) :
    Except InterfaceFailure ModuleInterface := do
  let recordTypes := mmInterface.exportRecordTypes
  let functionSignatures ← mmInterface.functionSignatures.mapM
    (serializeFunctionSignature recordTypes)
  let records ← RecordsTransformer.transform order recordTypes
  return ⟨functionSignatures, records⟩

/-- `interface::get_interface`. -/
def getInterface (order : IterationOrder) (mit : MITInterfaces) :
    Except InterfaceFailure ModuleInterface :=
  match Loader.getInterface mit with
  | .error e => .error (.error (.itInterfaceError e))
  | .ok itInterface => itToModuleInterface order itInterface

/-! ## When the texts exist -/

/-- **Spec of `itype_text_view`.** -/
theorem itypeTextView_isOk_iff (recordTypes : RecordTypes) (t : IType) :
    (∃ text, itypeTextView recordTypes t = .ok text) ↔
      ∀ id, t.mentioned = some id → (recordTypes.lookup id).isSome := by
  induction t with
  | record id =>
    rw [itypeTextView]
    cases hlookup : recordTypes.lookup id with
    | none => simp [IType.mentioned, hlookup]
    | some record => simp [IType.mentioned, hlookup]
  | array elem ih =>
    rw [IType.mentioned, ← ih]
    constructor
    · rintro ⟨text, h⟩
      obtain ⟨inner, hinner, -⟩ := Fallible.bind_eq_ok_iff.mp h
      exact ⟨inner, hinner⟩
    · rintro ⟨inner, hinner⟩
      exact ⟨"[]" ++ inner, Fallible.bind_eq_ok_iff.mpr ⟨inner, hinner, rfl⟩⟩
  | _ => simp [itypeTextView, IType.mentioned]

end Marine.Interface
