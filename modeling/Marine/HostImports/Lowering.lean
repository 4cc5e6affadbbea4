import Marine.HostImports.Lifting

/-!
# Lowering the result of a host import

`lower_outputs` turns what the host closure returned into raw values, and
`itypes_output_to_wtypes` gives the result signature the import is registered
with (`core/src/host_imports`).  A primitive value is returned as it is; a
string, an array or a record is written to the guest memory by `it_lilo` and
handed over through `set_result_ptr` and `set_result_size`.

* `lowered_result_agrees_iff`: on the success path the two agree, except on
  `S64` and `ByteArray`.
* `returned_types_iff`: every error path returns one `i32`, whatever the
  registered signature says.
-/

namespace Marine.HostImports

/-! ## The registered signature -/

/-- The match of `itypes_output_to_wtypes`. -/
def itypeOutputToWtypes : IType → List WType
  | .f32 => [.f32]
  | .f64 => [.f64]
  | .i64 | .u64 => [.i64]
  | .string | .array _ | .record _ => []
  | _ => [.i32]

def itypesOutputToWtypes (itypes : List IType) : List WType := itypes.flatMap itypeOutputToWtypes

def outputTypeToTypes : Option IType → List IType
  | some ty => [ty]
  | none => []

/-! ## The guest during one call -/

/-- `ILowerer` over the allocator of the guest: what writing to its memory
gives in this call. -/
structure Lowerer where
  writeBytes : List UInt8 → Except String UInt32
  arrayLowerMemory : List IValue → Except String (UInt32 × UInt32)
  recordLowerMemory : List IValue → Except String UInt32

/-- What the host import finds in the module that called it, `none` for an
export that is missing or has another type.  Over `allocate` stands the result
of `ILowerer::new`; a setter says whether its call returns or traps. -/
structure Guest where
  allocate : Option (Except String Lowerer)
  setResultPtr : Option (Int32 → Bool)
  setResultSize : Option (Int32 → Bool)

/-- A call of one of the two setters. -/
inductive SetCall
  | setResultPtr (value : Int32)
  | setResultSize (value : Int32)
  deriving DecidableEq, Repr

/-- The setter calls made, and the raw results; `none` when the process ended. -/
structure LowerResult where
  handed : List SetCall
  returned : Option (List WValue)
  deriving DecidableEq, Repr

def LowerResult.return (wvalues : List WValue) : LowerResult := ⟨[], some wvalues⟩

/-- `init_wasm_func!`. -/
def initWasmFunc {α : Type} (func : Option α) (retErrorCode : Int32) (k : α → LowerResult) :
    LowerResult :=
  match func with
  | some f => k f
  | none => .return [.i32 retErrorCode]

/-- `call_wasm_func!`: a trap is unwrapped. -/
def callWasmFunc (func : Int32 → Bool) (call : Int32 → SetCall) (arg : Int32) (k : LowerResult) :
    LowerResult :=
  if func arg then ⟨call arg :: k.handed, k.returned⟩ else ⟨[call arg], none⟩

/-! ## Lowering -/

def lowerError {α : Type} : Except String α → Except HostImportError α
  | .ok a => .ok a
  | .error text => .error (.lowererError text)

def ivalueToWvalues (lowerer : Lowerer) : Option IValue → Except HostImportError (List WValue)
  | some (.boolean v) => .ok [.i32 (if v then 1 else 0)]
  | some (.s8 v) => .ok [.i32 v.toInt32]
  | some (.s16 v) => .ok [.i32 v.toInt32]
  | some (.s32 v) => .ok [.i32 v]
  | some (.s64 v) => .ok [.i64 v]
  | some (.u8 v) => .ok [.i32 v.toUInt32.toInt32]
  | some (.u16 v) => .ok [.i32 v.toUInt32.toInt32]
  | some (.u32 v) => .ok [.i32 v.toInt32]
  | some (.u64 v) => .ok [.i64 v.toInt64]
  | some (.i32 v) => .ok [.i32 v]
  | some (.i64 v) => .ok [.i64 v]
  | some (.f32 v) => .ok [.f32 v]
  | some (.f64 v) => .ok [.f64 v]
  | some (.string str) => do
    let offset ← lowerError (lowerer.writeBytes str.toUTF8.data.toList)
    return [.i32 offset.toInt32, .i32 (Int32.ofNat str.utf8ByteSize)]
  | some (.byteArray array) => do
    let offset ← lowerError (lowerer.writeBytes array)
    return [.i32 offset.toInt32, .i32 (Int32.ofNat array.length)]
  | some (.array values) => do
    let (offset, size) ← lowerError (lowerer.arrayLowerMemory values)
    return [.i32 offset.toInt32, .i32 size.toInt32]
  | some (.record values) => do
    let offset ← lowerError (lowerer.recordLowerMemory values)
    return [.i32 offset.toInt32]
  | none => .ok []

def isRecord : Option IValue → Bool
  | some (.record _) => true
  | _ => false

/-- The `Err` branch of `lower_outputs`. -/
def returnLoweringError (guest : Guest) : LowerResult :=
  initWasmFunc guest.setResultPtr 4 fun setResultPtr =>
  initWasmFunc guest.setResultSize 4 fun setResultSize =>
  callWasmFunc setResultPtr .setResultPtr 0 <|
  callWasmFunc setResultSize .setResultSize 0 <|
  .return [.i32 0]

/-- The match on `wvalues.len()` that ends `lower_outputs`. -/
def passWvalues (guest : Guest) (isRecord : Bool) : List WValue → LowerResult
  | [ptr, size] =>
    initWasmFunc guest.setResultPtr 4 fun setResultPtr =>
    initWasmFunc guest.setResultSize 4 fun setResultSize =>
    callWasmFunc setResultPtr .setResultPtr (u128AsI32 ptr.toU128) <|
    callWasmFunc setResultSize .setResultSize (u128AsI32 size.toU128) <|
    .return []
  | [wvalue] =>
    if isRecord then
      initWasmFunc guest.setResultPtr 3 fun setResultPtr =>
      callWasmFunc setResultPtr .setResultPtr (u128AsI32 wvalue.toU128) <|
      .return []
    else
      .return [wvalue]
  | [] => .return []
  -- `unimplemented!()`
  | _ => ⟨[], none⟩

def lowerOutputs (guest : Guest) (output : Option IValue) : LowerResult :=
  initWasmFunc guest.allocate 2 fun lowerer =>
  match (do ivalueToWvalues (← lowerError lowerer) output) with
  | .ok wvalues => passWvalues guest (isRecord output) wvalues
  | .error _ => returnLoweringError guest

/-- `process_func_results` of the backend, which fills the result slots of the
registered signature. -/
def processFuncResults (resultsIn : List WValue) (resultsOut : List WType) :
    Except (Nat × Nat) (List WValue) :=
  if resultsIn.length ≠ resultsOut.length then
    .error (resultsOut.length, resultsIn.length)
  else
    .ok resultsIn

/-! ## How a value reaches the guest -/

inductive Passing
  | direct (wtype : WType)
  | pointer
  | pointerAndSize
  deriving DecidableEq, Repr

/-- The raw results a value passed so leaves on the stack. -/
def Passing.wtypes : Passing → List WType
  | .direct wtype => [wtype]
  | .pointer | .pointerAndSize => []

def valuePassing : IValue → Passing
  | .boolean _ | .s8 _ | .s16 _ | .s32 _ | .u8 _ | .u16 _ | .u32 _ | .i32 _ => .direct .i32
  | .s64 _ | .u64 _ | .i64 _ => .direct .i64
  | .f32 _ => .direct .f32
  | .f64 _ => .direct .f64
  | .string _ | .byteArray _ | .array _ => .pointerAndSize
  | .record _ => .pointer

def typePassing : IType → Passing
  | .boolean | .s8 | .s16 | .s32 | .u8 | .u16 | .u32 | .i32 => .direct .i32
  | .s64 | .u64 | .i64 => .direct .i64
  | .f32 => .direct .f32
  | .f64 => .direct .f64
  | .string | .byteArray | .array _ => .pointerAndSize
  | .record _ => .pointer

theorem valuePassing_of_hasType {records : RecordTypes} {v : IValue} {t : IType}
    (h : v.HasType records t) : valuePassing v = typePassing t := by
  cases h <;> rfl

/-- The raw results of an optional value on the success path. -/
def resultWtypes : Option IValue → List WType
  | some v => (valuePassing v).wtypes
  | none => []

/-- The raw values `wvalues` are those of a value passed in the way `p`. -/
def Passing.Fits : Passing → List WValue → Prop
  | .direct wtype, wvalues => ∃ w : WValue, wvalues = [w] ∧ w.wtype = wtype
  | .pointer, wvalues => ∃ ptr, wvalues = [.i32 ptr]
  | .pointerAndSize, wvalues => ∃ ptr size, wvalues = [.i32 ptr, .i32 size]

theorem lowerError_bind_ok {α β : Type} {x : Except String α}
    {f : α → Except HostImportError β} {b : β} (h : (lowerError x >>= f) = .ok b) :
    ∃ a, x = .ok a ∧ f a = .ok b := by
  cases x with
  | error text => cases h
  | ok a => exact ⟨a, rfl, h⟩

theorem fits_ivalueToWvalues {lowerer : Lowerer} {v : IValue} {wvalues : List WValue}
    (h : ivalueToWvalues lowerer (some v) = .ok wvalues) : (valuePassing v).Fits wvalues := by
  cases v with
  | string str | byteArray array | array values =>
    obtain ⟨offset, -, hv⟩ := lowerError_bind_ok h
    cases hv
    exact ⟨_, _, rfl⟩
  | record values =>
    obtain ⟨offset, -, hv⟩ := lowerError_bind_ok h
    cases hv
    exact ⟨_, rfl⟩
  | _ => cases h; exact ⟨_, rfl, rfl⟩

theorem isRecord_iff (v : IValue) : isRecord (some v) = true ↔ valuePassing v = .pointer := by
  cases v <;> simp [isRecord, valuePassing]

/-- The setter calls that hand over a pointer, or a pointer and a size. -/
def setCallsOf : List WValue → List SetCall
  | [.i32 ptr] => [.setResultPtr ptr]
  | [.i32 ptr, .i32 size] => [.setResultPtr ptr, .setResultSize size]
  | _ => []

/-! ## The success path -/

/-- Both setters are there and return. -/
def Guest.Serves (guest : Guest) : Prop :=
  ∃ setPtr setSize, guest.setResultPtr = some setPtr ∧ guest.setResultSize = some setSize ∧
    (∀ v, setPtr v = true) ∧ ∀ v, setSize v = true

theorem passWvalues_serves {guest : Guest} {v : IValue} {wvalues : List WValue}
    (hserves : guest.Serves) (hfits : (valuePassing v).Fits wvalues) :
    passWvalues guest (isRecord (some v)) wvalues =
      match valuePassing v with
      | .direct _ => .return wvalues
      | _ => ⟨setCallsOf wvalues, some []⟩ := by
  obtain ⟨setPtr, setSize, hptr, hsize, hptrs, hsizes⟩ := hserves
  have hrecord := isRecord_iff v
  cases hp : valuePassing v with
  | direct wtype =>
    rw [hp] at hfits hrecord
    obtain ⟨w, rfl, -⟩ := hfits
    have hno : isRecord (some v) = false := by simpa using hrecord
    simp only [passWvalues, hno, Bool.false_eq_true, if_false]
  | pointer =>
    rw [hp] at hfits hrecord
    obtain ⟨ptr, rfl⟩ := hfits
    simp only [passWvalues, hrecord.mpr rfl, if_true, initWasmFunc, hptr, callWasmFunc, hptrs,
      u128AsI32_toU128_i32, LowerResult.return, setCallsOf]
  | pointerAndSize =>
    rw [hp] at hfits
    obtain ⟨ptr, size, rfl⟩ := hfits
    simp only [passWvalues, initWasmFunc, hptr, hsize, callWasmFunc, hptrs, hsizes, if_true,
      u128AsI32_toU128_i32, LowerResult.return, setCallsOf]

theorem lowerOutputs_of_lowered {guest : Guest} {lowerer : Lowerer} {output : Option IValue}
    {wvalues : List WValue} (halloc : guest.allocate = some (.ok lowerer))
    (hlow : ivalueToWvalues lowerer output = .ok wvalues) :
    lowerOutputs guest output = passWvalues guest (isRecord output) wvalues := by
  have hbind : (do ivalueToWvalues (← lowerError (.ok lowerer)) output) = .ok wvalues := hlow
  simp only [lowerOutputs, halloc, initWasmFunc, hbind]

/-- The registered result signature of a host import. -/
def declaredResults (outputType : Option IType) : List WType :=
  itypesOutputToWtypes (outputTypeToTypes outputType)

def OutputHasType (records : RecordTypes) : Option IValue → Option IType → Prop
  | some v, some t => v.HasType records t
  | none, none => True
  | _, _ => False

/-- The raw results are those of the registered signature, and the lowered
values `wvalues` go through the setters exactly when it declares no result for
the output type. -/
def ResultAgrees (guest : Guest) (output : Option IValue) (wvalues : List WValue)
    (outputType : Option IType) : Prop :=
  ∃ returned, (lowerOutputs guest output).returned = some returned ∧
    returned.map WValue.wtype = declaredResults outputType ∧
    (lowerOutputs guest output).handed =
      if outputType.isSome ∧ declaredResults outputType = [] then setCallsOf wvalues else []

theorem declaredResults_eq_iff (t : IType) :
    declaredResults (some t) = (typePassing t).wtypes ↔ t ≠ .s64 ∧ t ≠ .byteArray := by
  cases t <;>
    simp [declaredResults, itypesOutputToWtypes, outputTypeToTypes, itypeOutputToWtypes,
      typePassing, Passing.wtypes]

/-- **Exact agreement of the result ABI on the success path.** -/
theorem lowered_result_agrees_iff {records : RecordTypes} {output : Option IValue}
    {outputType : Option IType} {guest : Guest} {lowerer : Lowerer} {wvalues : List WValue}
    (htyped : OutputHasType records output outputType)
    (halloc : guest.allocate = some (.ok lowerer)) (hserves : guest.Serves)
    (hlow : ivalueToWvalues lowerer output = .ok wvalues) :
    ResultAgrees guest output wvalues outputType ↔
      outputType ≠ some .s64 ∧ outputType ≠ some .byteArray := by
  unfold ResultAgrees
  rw [lowerOutputs_of_lowered halloc hlow]
  rcases output with - | v <;> rcases outputType with - | t
  · cases hlow
    refine ⟨fun _ => ⟨nofun, nofun⟩, fun _ => ⟨[], rfl, rfl, rfl⟩⟩
  · exact htyped.elim
  · exact htyped.elim
  · have hfits := fits_ivalueToWvalues hlow
    have hpassing : valuePassing v = typePassing t := valuePassing_of_hasType htyped
    rw [passWvalues_serves hserves hfits, hpassing]
    rw [hpassing] at hfits
    rw [ne_eq, ne_eq, Option.some.injEq, Option.some.injEq, ← declaredResults_eq_iff]
    cases hp : typePassing t with
    | direct wtype =>
      rw [hp] at hfits
      obtain ⟨w, rfl, hw⟩ := hfits
      have htypes : [w].map WValue.wtype = [wtype] := by rw [← hw]; rfl
      constructor
      · rintro ⟨_, ⟨⟩, hmap, -⟩
        exact hmap.symm.trans htypes
      · intro hdecl
        refine ⟨_, rfl, htypes.trans hdecl.symm, ?_⟩
        simp [hdecl, Passing.wtypes, LowerResult.return]
    | pointer | pointerAndSize =>
      constructor
      · rintro ⟨_, ⟨⟩, hmap, -⟩
        exact hmap.symm
      · intro hdecl
        exact ⟨[], rfl, hdecl.symm, by simp [hdecl, Passing.wtypes]⟩

/-- A guest that serves every call, with everything allocated at `offset`. -/
def servingGuest (offset : UInt32) : Guest where
  allocate := some (.ok ⟨fun _ => .ok offset, fun vs => .ok (offset, vs.length.toUInt32),
    fun _ => .ok offset⟩)
  setResultPtr := some fun _ => true
  setResultSize := some fun _ => true

theorem lowered_string_agrees :
    ResultAgrees (servingGuest 8) (some (.string "ab")) [.i32 8, .i32 2] (some .string) :=
  have htyped : OutputHasType ∅ (some (.string "ab")) (some .string) := IValue.HasType.string
  (lowered_result_agrees_iff htyped rfl ⟨_, _, rfl, rfl, fun _ => rfl, fun _ => rfl⟩ rfl).mpr
    ⟨nofun, nofun⟩

/-- An `S64` is returned as one `i64` where an `i32` is registered. -/
theorem lowered_s64_disagrees :
    lowerOutputs (servingGuest 8) (some (.s64 7)) = ⟨[], some [.i64 7]⟩ ∧
      declaredResults (some .s64) = [.i32] ∧
      ¬ ResultAgrees (servingGuest 8) (some (.s64 7)) [.i64 7] (some .s64) := by
  refine ⟨rfl, rfl, ?_⟩
  rintro ⟨returned, ⟨⟩, htypes, -⟩
  cases htypes

/-! ## The error paths -/

/-- The setters a value passed so needs and the guest does not have. -/
def Passing.Lacks (guest : Guest) : Passing → Prop
  | .direct _ => False
  | .pointer => guest.setResultPtr = none
  | .pointerAndSize => guest.setResultPtr = none ∨ guest.setResultSize = none

/-- There is no `allocate`, writing the value to the guest memory fails, or a
setter it needs is missing. -/
inductive TakesErrorPath (guest : Guest) (output : Option IValue) : Prop
  | noAllocate (h : guest.allocate = none)
  | noLowerer {text : String} (h : guest.allocate = some (.error text))
  | lowering {lowerer : Lowerer} {e : HostImportError}
      (halloc : guest.allocate = some (.ok lowerer))
      (h : ivalueToWvalues lowerer output = .error e)
  | noSetter {v : IValue} (hv : output = some v) (h : (valuePassing v).Lacks guest)

theorem returned_initWasmFunc {α : Type} {func : Option α} {code : Int32} {k : α → LowerResult}
    {returned : List WValue} (h : (initWasmFunc func code k).returned = some returned) :
    func = none ∧ returned = [.i32 code] ∨
      ∃ f, func = some f ∧ (k f).returned = some returned := by
  cases func with
  | none => cases h; exact .inl ⟨rfl, rfl⟩
  | some f => exact .inr ⟨f, rfl, h⟩

theorem returned_callWasmFunc {func : Int32 → Bool} {call : Int32 → SetCall} {arg : Int32}
    {k : LowerResult} {returned : List WValue}
    (h : (callWasmFunc func call arg k).returned = some returned) :
    k.returned = some returned := by
  unfold callWasmFunc at h
  split at h
  · exact h
  · cases h

theorem returned_loweringError {guest : Guest} {returned : List WValue}
    (h : (returnLoweringError guest).returned = some returned) :
    returned.map WValue.wtype = [.i32] := by
  rcases returned_initWasmFunc h with ⟨-, rfl⟩ | ⟨setPtr, -, h⟩
  · rfl
  rcases returned_initWasmFunc h with ⟨-, rfl⟩ | ⟨setSize, -, h⟩
  · rfl
  cases returned_callWasmFunc (returned_callWasmFunc h)
  rfl

/-- The last stage of `lower_outputs` leaves the results of the value, or one
`i32` when a setter is missing. -/
theorem returned_passWvalues {guest : Guest} {v : IValue} {wvalues returned : List WValue}
    (hfits : (valuePassing v).Fits wvalues)
    (h : (passWvalues guest (isRecord (some v)) wvalues).returned = some returned) :
    (valuePassing v).Lacks guest ∧ returned.map WValue.wtype = [.i32] ∨
      ¬ (valuePassing v).Lacks guest ∧
        returned.map WValue.wtype = (valuePassing v).wtypes := by
  have hrecord := isRecord_iff v
  cases hp : valuePassing v with
  | direct wtype =>
    rw [hp] at hfits hrecord
    obtain ⟨w, rfl, rfl⟩ := hfits
    have hno : isRecord (some v) = false := by simpa using hrecord
    simp only [passWvalues, hno, Bool.false_eq_true, if_false] at h
    cases h
    exact .inr ⟨id, rfl⟩
  | pointer =>
    rw [hp] at hfits hrecord
    obtain ⟨ptr, rfl⟩ := hfits
    simp only [passWvalues, hrecord.mpr rfl, if_true] at h
    rcases returned_initWasmFunc h with ⟨hnone, rfl⟩ | ⟨setPtr, hptr, h⟩
    · exact .inl ⟨hnone, rfl⟩
    · cases returned_callWasmFunc h
      exact .inr ⟨by simp [Passing.Lacks, hptr], rfl⟩
  | pointerAndSize =>
    rw [hp] at hfits
    obtain ⟨ptr, size, rfl⟩ := hfits
    rcases returned_initWasmFunc h with ⟨hnone, rfl⟩ | ⟨setPtr, hptr, h⟩
    · exact .inl ⟨.inl hnone, rfl⟩
    rcases returned_initWasmFunc h with ⟨hnone, rfl⟩ | ⟨setSize, hsize, h⟩
    · exact .inl ⟨.inr hnone, rfl⟩
    · cases returned_callWasmFunc (returned_callWasmFunc h)
      exact .inr ⟨by simp [Passing.Lacks, hptr, hsize], rfl⟩

/-- **Result lemma.**  What `lower_outputs` returns is one `i32` on an error
path, and off the error paths the results of the value. -/
theorem returned_lowerOutputs {guest : Guest} {output : Option IValue} {returned : List WValue}
    (h : (lowerOutputs guest output).returned = some returned) :
    TakesErrorPath guest output ∧ returned.map WValue.wtype = [.i32] ∨
      ¬ TakesErrorPath guest output ∧ returned.map WValue.wtype = resultWtypes output := by
  rcases returned_initWasmFunc h with ⟨hnone, rfl⟩ | ⟨lowerer, halloc, h⟩
  · exact .inl ⟨.noAllocate hnone, rfl⟩
  rcases lowerer with text | lowerer
  · exact .inl ⟨.noLowerer halloc, returned_loweringError h⟩
  have hbind : (do ivalueToWvalues (← lowerError (.ok lowerer)) output) =
      ivalueToWvalues lowerer output := rfl
  rw [hbind] at h
  cases hlow : ivalueToWvalues lowerer output with
  | error e =>
    rw [hlow] at h
    exact .inl ⟨.lowering halloc hlow, returned_loweringError h⟩
  | ok wvalues =>
    rw [hlow] at h
    have hpath : TakesErrorPath guest output →
        ∃ v, output = some v ∧ (valuePassing v).Lacks guest := by
      rintro (hnone | hno | ⟨hsome, herr⟩ | ⟨hv, hlacks⟩)
      · rw [halloc] at hnone; cases hnone
      · rw [halloc] at hno; cases hno
      · rw [halloc] at hsome; cases hsome; rw [hlow] at herr; cases herr
      · exact ⟨_, hv, hlacks⟩
    rcases output with - | v
    · cases hlow
      cases h
      refine .inr ⟨fun herr => ?_, rfl⟩
      obtain ⟨v, hv, -⟩ := hpath herr
      cases hv
    · have hlast := returned_passWvalues (fits_ivalueToWvalues hlow) h
      rcases hlast with ⟨hlacks, htypes⟩ | ⟨hhas, htypes⟩
      · exact .inl ⟨.noSetter rfl hlacks, htypes⟩
      · refine .inr ⟨fun herr => ?_, htypes⟩
        obtain ⟨_, ⟨⟩, hlacks⟩ := hpath herr
        exact hhas hlacks

/-- **Exact agreement of the result ABI on every path.**  What `lower_outputs`
returns has the registered types exactly when one `i32` is registered, on an
error path, and the results of the value are, on the others. -/
theorem returned_types_iff {guest : Guest} {output : Option IValue} {returned : List WValue}
    (outputType : Option IType) (h : (lowerOutputs guest output).returned = some returned) :
    returned.map WValue.wtype = declaredResults outputType ↔
      (TakesErrorPath guest output → declaredResults outputType = [.i32]) ∧
        (¬ TakesErrorPath guest output → declaredResults outputType = resultWtypes output) := by
  rcases returned_lowerOutputs h with ⟨hpath, htypes⟩ | ⟨hpath, htypes⟩
  · rw [htypes]
    exact ⟨fun hd => ⟨fun _ => hd.symm, fun hno => absurd hpath hno⟩, fun hd => (hd.1 hpath).symm⟩
  · rw [htypes]
    exact ⟨fun hd => ⟨fun hyes => absurd hyes hpath, fun _ => hd.symm⟩,
      fun hd => (hd.2 hpath).symm⟩

/-- A guest without `allocate`. -/
def bareGuest : Guest := ⟨none, none, none⟩

theorem returned_types_bare_guest :
    [WValue.i32 2].map WValue.wtype = declaredResults (some .u32) := by
  have hrun : (lowerOutputs bareGuest (some (.u32 5))).returned = some [.i32 2] := rfl
  exact (returned_types_iff (some .u32) hrun).mpr
    ⟨fun _ => rfl, fun h => absurd (.noAllocate rfl) h⟩

/-- A string result for a guest without `allocate`: one `i32` is returned, none
is registered, and the backend reports the number of results. -/
theorem missing_allocate_result_mismatch :
    lowerOutputs bareGuest (some (.string "x")) = ⟨[], some [.i32 2]⟩ ∧
      [WValue.i32 2].map WValue.wtype ≠ declaredResults (some .string) ∧
      processFuncResults [.i32 2] (declaredResults (some .string)) = .error (0, 1) :=
  ⟨rfl, nofun, rfl⟩

end Marine.HostImports
