import Marine.InterfaceTypes
import Marine.Lib.TypedReader

/-!
# Lifting the arguments of a host import

`itypes_args_to_wtypes` gives the raw signature a host import is registered
with, `wvalues_to_ivalues` reads the raw arguments back as interface values
(`core/src/host_imports`).  `it_lilo` reads the guest memory; it enters as the
functions of `Lifter`.

The two tables over the interface types agree except on `S64`, registered as
one `i32` and read as one `i64`, and on `ByteArray`, registered as one `i32`
and read as two (`args_agree_iff`).
-/

namespace Marine.HostImports

/-- Errors of `it_lilo` and of UTF-8 decoding are kept as their text. -/
inductive HostImportError
  | mismatchWValues (expected : WType) (found : WValue)
  | mismatchWValuesCount
  | lifterError (text : String)
  | lowererError (text : String)
  | recordNotFound (recordTypeId : Nat)
  | invalidUTF8String
  deriving DecidableEq, Repr

/-- The registered signature and the lifting disagree. -/
def HostImportError.IsMismatch : HostImportError → Prop
  | .mismatchWValues _ _ => True
  | .mismatchWValuesCount => True
  | _ => False

/-! ## The registered signature -/

/-- The match of `itypes_args_to_wtypes`. -/
def itypeArgToWtypes : IType → List WType
  | .f32 => [.f32]
  | .f64 => [.f64]
  | .i64 | .u64 => [.i64]
  | .string | .array _ => [.i32, .i32]
  | _ => [.i32]

def itypesArgsToWtypes (itypes : List IType) : List WType := itypes.flatMap itypeArgToWtypes

/-! ## Lifting -/

/-- The record table of `LiHelper` and the memory reads of `it_lilo`. -/
structure Lifter where
  recordTypes : RecordTypes
  readRawU8Array : (offset size : UInt32) → Except String (List UInt8)
  arrayLiftMemory : (elem : IType) → (offset size : UInt32) → Except String IValue
  recordLiftMemory : (record : IRecordType) → (offset : UInt32) → Except String IValue

def Lifter.resolveRecord (l : Lifter) (recordTypeId : Nat) : Except HostImportError IRecordType :=
  match l.recordTypes.lookup recordTypeId with
  | some r => .ok r
  | none => .error (.recordNotFound recordTypeId)

/-- `next_wvalue!`: the next value, read by `get` at the type `wtype`. -/
def nextWvalue {α : Type} (wtype : WType) (get : WValue → Option α) :
    List WValue → Except HostImportError (α × List WValue) :=
  TypedReader.next .mismatchWValuesCount (.mismatchWValues wtype) get

def nextI32 : List WValue → Except HostImportError (Int32 × List WValue) :=
  nextWvalue .i32 fun | .i32 v => some v | _ => none

def nextI64 : List WValue → Except HostImportError (Int64 × List WValue) :=
  nextWvalue .i64 fun | .i64 v => some v | _ => none

def nextF32 : List WValue → Except HostImportError (UInt32 × List WValue) :=
  nextWvalue .f32 fun | .f32 v => some v | _ => none

def nextF64 : List WValue → Except HostImportError (UInt64 × List WValue) :=
  nextWvalue .f64 fun | .f64 v => some v | _ => none

/-- `simple_wvalue_to_ivalue!`. -/
def simpleWvalueToIvalue {α : Type} (next : List WValue → Except HostImportError (α × List WValue))
    (toIvalue : α → IValue) (wvalues : List WValue) :
    Except HostImportError (IValue × List WValue) := do
  let (w, rest) ← next wvalues
  return (toIvalue w, rest)

/-- Offset and size of a string or an array. -/
def nextSlice (wvalues : List WValue) :
    Except HostImportError ((UInt32 × UInt32) × List WValue) := do
  let (offset, rest) ← nextI32 wvalues
  let (size, rest) ← nextI32 rest
  return ((offset.toUInt32, size.toUInt32), rest)

def liftError {α : Type} : Except String α → Except HostImportError α
  | .ok a => .ok a
  | .error text => .error (.lifterError text)

def fromUtf8 (bytes : List UInt8) : Except HostImportError String :=
  match String.fromUTF8? ⟨bytes.toArray⟩ with
  | some s => .ok s
  | none => .error .invalidUTF8String

/-- One round of the loop of `wvalues_to_ivalues`, with the values left. -/
def wvalueToIvalue (l : Lifter) (wvalues : List WValue) :
    IType → Except HostImportError (IValue × List WValue)
  | .boolean => simpleWvalueToIvalue nextI32 (fun w => .boolean (w != 0)) wvalues
  | .s8 => simpleWvalueToIvalue nextI32 (fun w => .s8 w.toInt8) wvalues
  | .s16 => simpleWvalueToIvalue nextI32 (fun w => .s16 w.toInt16) wvalues
  | .s32 => simpleWvalueToIvalue nextI32 .s32 wvalues
  | .s64 => simpleWvalueToIvalue nextI64 .s64 wvalues
  | .u8 => simpleWvalueToIvalue nextI32 (fun w => .u8 w.toUInt32.toUInt8) wvalues
  | .u16 => simpleWvalueToIvalue nextI32 (fun w => .u16 w.toUInt32.toUInt16) wvalues
  | .u32 => simpleWvalueToIvalue nextI32 (fun w => .u32 w.toUInt32) wvalues
  | .u64 => simpleWvalueToIvalue nextI64 (fun w => .u64 w.toUInt64) wvalues
  | .i32 => simpleWvalueToIvalue nextI32 .i32 wvalues
  | .i64 => simpleWvalueToIvalue nextI64 .i64 wvalues
  | .f32 => simpleWvalueToIvalue nextF32 .f32 wvalues
  | .f64 => simpleWvalueToIvalue nextF64 .f64 wvalues
  | .string => do
    let ((offset, size), rest) ← nextSlice wvalues
    let rawStr ← liftError (l.readRawU8Array offset size)
    let str ← fromUtf8 rawStr
    return (.string str, rest)
  | .byteArray => do
    let ((offset, size), rest) ← nextSlice wvalues
    let array ← liftError (l.readRawU8Array offset size)
    return (.byteArray array, rest)
  | .array elem => do
    let ((offset, size), rest) ← nextSlice wvalues
    let array ← liftError (l.arrayLiftMemory elem offset size)
    return (array, rest)
  | .record recordTypeId => do
    let recordType ← l.resolveRecord recordTypeId
    let (offset, rest) ← nextI32 wvalues
    let record ← liftError (l.recordLiftMemory recordType offset.toUInt32)
    return (record, rest)

/-- The loop of `wvalues_to_ivalues`, with the values it leaves over. -/
def liftLoop (l : Lifter) : List IType → List WValue →
    Except HostImportError (List IValue × List WValue)
  | [], wvalues => .ok ([], wvalues)
  | itype :: itypes, wvalues => do
    let (v, rest) ← wvalueToIvalue l wvalues itype
    let (vs, rest) ← liftLoop l itypes rest
    return (v :: vs, rest)

def wvaluesToIvalues (l : Lifter) (wvalues : List WValue) (itypes : List IType) :
    Except HostImportError (List IValue) := do
  let (vs, _) ← liftLoop l itypes wvalues
  return vs

/-! ## What the lifting consumes -/

/-- The Wasm types one round of the loop takes from the front. -/
def liftedWtypes : IType → List WType
  | .s64 | .u64 | .i64 => [.i64]
  | .f32 => [.f32]
  | .f64 => [.f64]
  | .string | .byteArray | .array _ => [.i32, .i32]
  | _ => [.i32]

/-- Reading raw values of the types `sig`. -/
abbrev Reads {α : Type} (sig : List WType)
    (read : List WValue → Except HostImportError (α × List WValue)) : Prop :=
  TypedReader.Reads WValue.wtype HostImportError.IsMismatch sig read

open TypedReader in
theorem reads_nextI32 : Reads [.i32] nextI32 :=
  reads_next fun v => by cases v <;> simp [WValue.wtype]

open TypedReader in
theorem reads_nextI64 : Reads [.i64] nextI64 :=
  reads_next fun v => by cases v <;> simp [WValue.wtype]

open TypedReader in
theorem reads_nextF32 : Reads [.f32] nextF32 :=
  reads_next fun v => by cases v <;> simp [WValue.wtype]

open TypedReader in
theorem reads_nextF64 : Reads [.f64] nextF64 :=
  reads_next fun v => by cases v <;> simp [WValue.wtype]

theorem reads_simple {α : Type} {wtype : WType}
    {next : List WValue → Except HostImportError (α × List WValue)} (h : Reads [wtype] next)
    (toIvalue : α → IValue) : Reads [wtype] (simpleWvalueToIvalue next toIvalue) :=
  h.bind fun w => .pure (toIvalue w)

theorem reads_nextSlice : Reads [.i32, .i32] nextSlice :=
  reads_nextI32.bind fun offset => reads_nextI32.bind fun size =>
    .pure (offset.toUInt32, size.toUInt32)

theorem liftError_noMismatch {α : Type} (x : Except String α) :
    ∀ e, liftError x = .error e → ¬ e.IsMismatch := by
  intro e h
  cases x with
  | error text => cases h; exact id
  | ok a => cases h

theorem fromUtf8_noMismatch (bytes : List UInt8) :
    ∀ e, fromUtf8 bytes = .error e → ¬ e.IsMismatch := by
  intro e h
  unfold fromUtf8 at h
  split at h
  · cases h
  · cases h; exact id

theorem resolveRecord_noMismatch (l : Lifter) (id : Nat) :
    ∀ e, l.resolveRecord id = .error e → ¬ e.IsMismatch := by
  intro e h
  unfold Lifter.resolveRecord at h
  split at h
  · cases h
  · cases h; exact fun h => h

/-- **Round lemma.**  One round of the loop takes exactly `liftedWtypes`. -/
theorem reads_wvalueToIvalue (l : Lifter) (t : IType) :
    Reads (liftedWtypes t) fun ws => wvalueToIvalue l ws t := by
  cases t with
  | boolean => exact reads_simple reads_nextI32 fun w => .boolean (w != 0)
  | s8 => exact reads_simple reads_nextI32 fun w => .s8 w.toInt8
  | s16 => exact reads_simple reads_nextI32 fun w => .s16 w.toInt16
  | s32 => exact reads_simple reads_nextI32 _
  | s64 => exact reads_simple reads_nextI64 _
  | u8 => exact reads_simple reads_nextI32 fun w => .u8 w.toUInt32.toUInt8
  | u16 => exact reads_simple reads_nextI32 fun w => .u16 w.toUInt32.toUInt16
  | u32 => exact reads_simple reads_nextI32 fun w => .u32 w.toUInt32
  | u64 => exact reads_simple reads_nextI64 fun w => .u64 w.toUInt64
  | f32 => exact reads_simple reads_nextF32 _
  | f64 => exact reads_simple reads_nextF64 _
  | i32 => exact reads_simple reads_nextI32 _
  | i64 => exact reads_simple reads_nextI64 _
  | string =>
    exact reads_nextSlice.bind fun slice =>
      .effect (liftError_noMismatch (l.readRawU8Array slice.1 slice.2)) fun rawStr =>
        .effect (fromUtf8_noMismatch rawStr) fun str => .pure (IValue.string str)
  | byteArray =>
    exact reads_nextSlice.bind fun slice =>
      .effect (liftError_noMismatch (l.readRawU8Array slice.1 slice.2)) fun array =>
        .pure (IValue.byteArray array)
  | array elem =>
    exact reads_nextSlice.bind fun slice =>
      .effect (liftError_noMismatch (l.arrayLiftMemory elem slice.1 slice.2)) .pure
  | record id =>
    exact .effect (resolveRecord_noMismatch l id) fun r => reads_nextI32.bind fun offset =>
      .effect (liftError_noMismatch (l.recordLiftMemory r offset.toUInt32)) .pure

/-- **Loop lemma.** -/
theorem reads_liftLoop (l : Lifter) (types : List IType) :
    Reads (types.flatMap liftedWtypes) (liftLoop l types) := by
  induction types with
  | nil => exact .pure []
  | cons t types ih =>
    have hround := (reads_wvalueToIvalue l t).bind fun v => ih.bind fun vs =>
      TypedReader.Reads.pure (v :: vs)
    rw [List.append_nil] at hround
    exact hround

/-! ## Agreement with the registered signature -/

/-- On every list of raw values of the registered types, lifting reports no
mismatch and leaves nothing over. -/
def ArgsAgree (types : List IType) : Prop :=
  ∀ (l : Lifter) (ws : List WValue), ws.map WValue.wtype = itypesArgsToWtypes types →
    (∀ vs rest, liftLoop l types ws = .ok (vs, rest) → rest = []) ∧
      ∀ e, wvaluesToIvalues l ws types = .error e → ¬ e.IsMismatch

theorem wvaluesToIvalues_error {l : Lifter} {ws : List WValue} {types : List IType}
    {e : HostImportError} :
    wvaluesToIvalues l ws types = .error e ↔ liftLoop l types ws = .error e := by
  unfold wvaluesToIvalues
  cases liftLoop l types ws with
  | error e' => simp
  | ok p => simp

theorem itypeArgToWtypes_eq_lifted_iff (t : IType) :
    itypeArgToWtypes t = liftedWtypes t ↔ t ≠ .s64 ∧ t ≠ .byteArray := by
  cases t <;> simp [itypeArgToWtypes, liftedWtypes]

theorem length_itypeArgToWtypes_le (t : IType) :
    (itypeArgToWtypes t).length ≤ (liftedWtypes t).length := by
  cases t <;> simp [itypeArgToWtypes, liftedWtypes]

/-- A guest memory on which every read succeeds, with every record known. -/
def readableLifter (recordTypes : RecordTypes) : Lifter where
  recordTypes := recordTypes
  readRawU8Array _ _ := .ok []
  arrayLiftMemory _ _ _ := .ok (.array [])
  recordLiftMemory _ _ := .ok (.record [])

theorem exists_recordTypes (types : List IType) :
    ∃ recordTypes : RecordTypes, ∀ id, .record id ∈ types → (recordTypes.lookup id).isSome := by
  induction types with
  | nil => exact ⟨∅, by simp⟩
  | cons t types ih =>
    obtain ⟨recordTypes, h⟩ := ih
    cases t with
    | record id =>
      refine ⟨recordTypes.insert id ⟨"", []⟩, fun id' hid' => ?_⟩
      by_cases he : id' = id
      · rw [he, AList.lookup_insert]; rfl
      · rw [AList.lookup_insert_ne he]
        exact h id' (by simpa [he] using hid')
    | _ => exact ⟨recordTypes, fun id hid => h id (by simpa using hid)⟩

theorem onlyMismatch_nextWvalue {α : Type} (wtype : WType) (get : WValue → Option α) :
    TypedReader.OnlyMismatch HostImportError.IsMismatch (nextWvalue wtype get) :=
  TypedReader.onlyMismatch_next trivial fun _ => trivial

theorem onlyMismatch_nextI32 : TypedReader.OnlyMismatch HostImportError.IsMismatch nextI32 :=
  onlyMismatch_nextWvalue ..

theorem onlyMismatch_simple {α : Type}
    {next : List WValue → Except HostImportError (α × List WValue)}
    (h : TypedReader.OnlyMismatch HostImportError.IsMismatch next) (toIvalue : α → IValue) :
    TypedReader.OnlyMismatch HostImportError.IsMismatch (simpleWvalueToIvalue next toIvalue) :=
  h.bind fun w => TypedReader.onlyMismatch_pure (toIvalue w)

theorem onlyMismatch_nextSlice : TypedReader.OnlyMismatch HostImportError.IsMismatch nextSlice :=
  onlyMismatch_nextI32.bind fun offset => onlyMismatch_nextI32.bind fun size =>
    TypedReader.onlyMismatch_pure (offset.toUInt32, size.toUInt32)

theorem onlyMismatch_readable (recordTypes : RecordTypes) (t : IType)
    (hknown : ∀ id, t = .record id → (recordTypes.lookup id).isSome) :
    TypedReader.OnlyMismatch HostImportError.IsMismatch fun ws =>
      wvalueToIvalue (readableLifter recordTypes) ws t := by
  cases t with
  | string =>
    exact onlyMismatch_nextSlice.bind fun _ => TypedReader.onlyMismatch_pure (IValue.string "")
  | byteArray =>
    exact onlyMismatch_nextSlice.bind fun _ => TypedReader.onlyMismatch_pure (IValue.byteArray [])
  | array elem =>
    exact onlyMismatch_nextSlice.bind fun _ => TypedReader.onlyMismatch_pure (IValue.array [])
  | record id =>
    obtain ⟨r, hr⟩ := Option.isSome_iff_exists.mp (hknown id rfl)
    have hres : (readableLifter recordTypes).resolveRecord id = .ok r := by
      simp only [Lifter.resolveRecord, readableLifter, hr]
    simp only [wvalueToIvalue, hres]
    exact onlyMismatch_nextI32.bind fun _ => TypedReader.onlyMismatch_pure (IValue.record [])
  | boolean => exact onlyMismatch_simple onlyMismatch_nextI32 fun w => .boolean (w != 0)
  | s8 => exact onlyMismatch_simple onlyMismatch_nextI32 fun w => .s8 w.toInt8
  | s16 => exact onlyMismatch_simple onlyMismatch_nextI32 fun w => .s16 w.toInt16
  | s32 | i32 => exact onlyMismatch_simple onlyMismatch_nextI32 _
  | u8 => exact onlyMismatch_simple onlyMismatch_nextI32 fun w => .u8 w.toUInt32.toUInt8
  | u16 => exact onlyMismatch_simple onlyMismatch_nextI32 fun w => .u16 w.toUInt32.toUInt16
  | u32 => exact onlyMismatch_simple onlyMismatch_nextI32 fun w => .u32 w.toUInt32
  | u64 => exact onlyMismatch_simple (onlyMismatch_nextWvalue ..) fun w : Int64 => .u64 w.toUInt64
  | s64 | i64 | f32 | f64 => exact onlyMismatch_simple (onlyMismatch_nextWvalue ..) _

theorem onlyMismatch_liftLoop {recordTypes : RecordTypes} {types : List IType}
    (hknown : ∀ id, .record id ∈ types → (recordTypes.lookup id).isSome) :
    TypedReader.OnlyMismatch HostImportError.IsMismatch
      (liftLoop (readableLifter recordTypes) types) := by
  induction types with
  | nil => exact TypedReader.onlyMismatch_pure []
  | cons t types ih =>
    have ht := onlyMismatch_readable recordTypes t fun id he => hknown id (by simp [he])
    have hrest := ih fun id hid => hknown id (List.mem_cons_of_mem _ hid)
    exact ht.bind fun v => hrest.bind fun vs => TypedReader.onlyMismatch_pure (v :: vs)

/-- A value of a Wasm number type. -/
def zeroOf : WType → WValue
  | .i64 => .i64 0
  | .f32 => .f32 0
  | .f64 => .f64 0
  | _ => .i32 0

theorem map_wtype_zeroOf (types : List IType) :
    ((itypesArgsToWtypes types).map zeroOf).map WValue.wtype = itypesArgsToWtypes types := by
  have harg (t : IType) :
      ((itypeArgToWtypes t).map zeroOf).map WValue.wtype = itypeArgToWtypes t := by
    cases t <;> rfl
  induction types with
  | nil => rfl
  | cons t types ih =>
    simp only [itypesArgsToWtypes, List.flatMap_cons, List.map_append] at ih ⊢
    rw [harg, ih]

/-- **Exact agreement of the argument ABI.**  The lifting fits the registered
signature exactly when no argument is an `S64` or a `ByteArray`. -/
theorem args_agree_iff (types : List IType) :
    ArgsAgree types ↔ ∀ t ∈ types, t ≠ .s64 ∧ t ≠ .byteArray := by
  simp only [← itypeArgToWtypes_eq_lifted_iff]
  constructor
  · intro hagree
    -- on a readable memory a run that reports no mismatch succeeds, and then it has
    -- consumed as much as the signature provides
    obtain ⟨recordTypes, hknown⟩ := exists_recordTypes types
    have hws := map_wtype_zeroOf types
    obtain ⟨hrest, herr⟩ := hagree (readableLifter recordTypes) _ hws
    apply TypedReader.flatMap_agree fun t _ => length_itypeArgToWtypes_le t
    cases hrun : liftLoop (readableLifter recordTypes) types
        ((itypesArgsToWtypes types).map zeroOf) with
    | error e =>
      exact absurd ((onlyMismatch_liftLoop hknown).mismatch hrun)
        (herr e (wvaluesToIvalues_error.mpr hrun))
    | ok p =>
      have hconsumed := (reads_liftLoop _ types).consumes hrun
      rw [hws, hrest _ _ hrun, List.map_nil, List.append_nil] at hconsumed
      exact hconsumed
  · intro hsame l ws hws
    have hsig : itypesArgsToWtypes types = types.flatMap liftedWtypes := by
      simp only [itypesArgsToWtypes, List.flatMap_def, List.map_congr_left hsame]
    obtain ⟨hok, herr⟩ := TypedReader.exact_of_reads (reads_liftLoop l types) (hws.trans hsig)
    exact ⟨hok, fun e he => herr e (wvaluesToIvalues_error.mp he)⟩

/-- An `S64` argument is registered as one `i32`, and reading that `i32` fails. -/
theorem s64_argument_mismatch :
    itypesArgsToWtypes [.s64] = [.i32] ∧
      wvaluesToIvalues (readableLifter ∅) [.i32 7] [.s64] =
        .error (.mismatchWValues .i64 (.i32 7)) ∧
      ¬ ArgsAgree [.s64] := by
  refine ⟨rfl, rfl, fun hagree => ?_⟩
  exact (hagree (readableLifter ∅) [.i32 7] rfl).2 _ rfl trivial

end Marine.HostImports
