import Marine.HostImports.Lowering
import Marine.Lib.Bytes
import Mathlib.Algebra.Ring.Nat

/-!
# The wire format of host imports

A value that `ivalue_to_wvalues` has turned into raw values comes back through
`wvalues_to_ivalues`, and the guest gets the offset and the length of what was
written for it.  Offsets and lengths go through `i32`, so those above 2 GiB
are negative numbers on the way.

* `lift_lowered`: one value, there and back.
* `handed_slice`: the arguments of the setters.
* `wire_roundTrip`: both.
-/

namespace Marine.HostImports

/-- The interface type of a Boolean, an integer, a string or a byte array. -/
def wireType : IValue → Option IType
  | .boolean _ => some .boolean
  | .s8 _ => some .s8
  | .s16 _ => some .s16
  | .s32 _ => some .s32
  | .s64 _ => some .s64
  | .u8 _ => some .u8
  | .u16 _ => some .u16
  | .u32 _ => some .u32
  | .u64 _ => some .u64
  | .i32 _ => some .i32
  | .i64 _ => some .i64
  | .string _ => some .string
  | .byteArray _ => some .byteArray
  | .f32 _ | .f64 _ | .array _ | .record _ => none

/-- What is written to the memory of the guest for a string or a byte array. -/
def writtenBytes : IValue → Option (List UInt8)
  | .string str => some (Utf8.encode str)
  | .byteArray array => some array
  | _ => none

/-- One memory of 32-bit addresses: bytes that are written fit into it and are read
back from where they were written. -/
structure ReadsBack (lowerer : Lowerer) (lifter : Lifter) (bytes : List UInt8) : Prop where
  fits : ∀ offset, lowerer.writeBytes bytes = .ok offset → bytes.length < 2 ^ 32
  read : ∀ offset, lowerer.writeBytes bytes = .ok offset →
    lifter.readRawU8Array offset (UInt32.ofNat bytes.length) = .ok bytes

/-! ## Lifting what was lowered -/

section Lifting

variable {lowerer : Lowerer} {lifter : Lifter}

theorem wvaluesToIvalues_one {wvalues rest : List WValue} {t : IType} {v : IValue}
    (h : wvalueToIvalue lifter wvalues t = .ok (v, rest)) :
    wvaluesToIvalues lifter wvalues [t] = .ok [v] := by
  simp only [wvaluesToIvalues, liftLoop, h]
  rfl

theorem lift_string {str : String} {offset : UInt32}
    (hmem : ReadsBack lowerer lifter (Utf8.encode str))
    (hwrite : lowerer.writeBytes (Utf8.encode str) = .ok offset) :
    wvaluesToIvalues lifter [.i32 offset.toInt32, .i32 (Int32.ofNat str.utf8ByteSize)] [.string] =
      .ok [.string str] := by
  have hread : lifter.readRawU8Array offset (UInt32.ofNat str.utf8ByteSize) =
      .ok (Utf8.encode str) := hmem.read offset hwrite
  have hdecode : String.fromUTF8? ⟨(Utf8.encode str).toArray⟩ = some str := Utf8.decode_encode str
  have hround : wvalueToIvalue lifter
      [.i32 offset.toInt32, .i32 (Int32.ofNat str.utf8ByteSize)] .string =
      .ok (.string str, []) := by
    show (do
      let rawStr ← liftError (lifter.readRawU8Array offset (UInt32.ofNat str.utf8ByteSize))
      let str ← fromUtf8 rawStr
      return (IValue.string str, []) : Except HostImportError (IValue × List WValue)) = _
    rw [hread]
    show (do
      let str ← fromUtf8 (Utf8.encode str)
      return (IValue.string str, []) : Except HostImportError (IValue × List WValue)) = _
    rw [fromUtf8, hdecode]
    rfl
  exact wvaluesToIvalues_one hround

theorem lift_byteArray {array : List UInt8} {offset : UInt32}
    (hmem : ReadsBack lowerer lifter array)
    (hwrite : lowerer.writeBytes array = .ok offset) :
    wvaluesToIvalues lifter [.i32 offset.toInt32, .i32 (Int32.ofNat array.length)] [.byteArray] =
      .ok [.byteArray array] := by
  have hround : wvalueToIvalue lifter
      [.i32 offset.toInt32, .i32 (Int32.ofNat array.length)] .byteArray =
      .ok (.byteArray array, []) := by
    show (do
      let array ← liftError (lifter.readRawU8Array offset (UInt32.ofNat array.length))
      return (IValue.byteArray array, []) : Except HostImportError (IValue × List WValue)) = _
    rw [hmem.read offset hwrite]
    rfl
  exact wvaluesToIvalues_one hround

/-- **One value** is lifted as it was lowered. -/
theorem lift_lowered {v : IValue} {t : IType}
    (hmem : ∀ bytes, writtenBytes v = some bytes → ReadsBack lowerer lifter bytes)
    (hv : wireType v = some t) {wvalues : List WValue}
    (hlow : ivalueToWvalues lowerer (some v) = .ok wvalues) :
    wvaluesToIvalues lifter wvalues [t] = .ok [v] := by
  cases v with
  | string str =>
    cases hv
    obtain ⟨offset, hwrite, hlow⟩ := lowerError_bind_ok hlow
    cases hlow
    exact lift_string (hmem _ rfl) hwrite
  | byteArray array =>
    cases hv
    obtain ⟨offset, hwrite, hlow⟩ := lowerError_bind_ok hlow
    cases hlow
    exact lift_byteArray (hmem _ rfl) hwrite
  | boolean v =>
    cases hv
    cases hlow
    cases v <;> rfl
  | s8 v =>
    cases hv
    cases hlow
    show Except.ok [IValue.s8 v.toInt32.toInt8] = _
    rw [Int8.toInt8_toInt32]
  | s16 v =>
    cases hv
    cases hlow
    show Except.ok [IValue.s16 v.toInt32.toInt16] = _
    rw [Int16.toInt16_toInt32]
  | u8 v =>
    cases hv
    cases hlow
    show Except.ok [IValue.u8 v.toUInt32.toInt32.toUInt32.toUInt8] = _
    simp
  | u16 v =>
    cases hv
    cases hlow
    show Except.ok [IValue.u16 v.toUInt32.toInt32.toUInt32.toUInt16] = _
    simp
  | f32 _ | f64 _ | array _ | record _ => cases hv
  | _ =>
    cases hv
    cases hlow
    rfl

end Lifting

/-! ## What the guest gets -/

/-- The number that a setter of the guest is called with, read as `u32`. -/
def SetCall.Denotes (offset : UInt32) (size : Nat) : SetCall → Prop
  | .setResultPtr value => value.toUInt32 = offset
  | .setResultSize value => value.toUInt32.toNat = size

/-- **Setters.**  A guest whose setters return gets both numbers; others get at
most these. -/
theorem handed_slice {guest : Guest} {lowerer : Lowerer} {v : IValue} {offset size : Int32}
    (halloc : guest.allocate = some (.ok lowerer))
    (hlow : ivalueToWvalues lowerer (some v) = .ok [.i32 offset, .i32 size]) :
    (lowerOutputs guest (some v)).handed <+: [.setResultPtr offset, .setResultSize size] ∧
      (guest.Serves → (lowerOutputs guest (some v)).handed =
        [.setResultPtr offset, .setResultSize size]) := by
  rw [lowerOutputs_of_lowered halloc hlow]
  simp only [passWvalues, initWasmFunc, callWasmFunc, u128AsI32_toU128_i32]
  constructor
  · cases guest.setResultPtr with
    | none => exact List.nil_prefix
    | some setPtr =>
      cases guest.setResultSize with
      | none => exact List.nil_prefix
      | some setSize =>
        dsimp only
        by_cases hptr : setPtr offset
        · rw [if_pos hptr]
          by_cases hsize : setSize size
          · simp [hsize, LowerResult.return]
          · simp [hsize]
        · rw [if_neg hptr]
          simp
  · rintro ⟨setPtr, setSize, hptr, hsize, hptrs, hsizes⟩
    simp [hptr, hsize, hptrs, hsizes, LowerResult.return]

/-- **Wire format.**  Over the whole address space a value comes back as it was,
and the setters are called with the offset and the length of what was written. -/
theorem wire_roundTrip {lowerer : Lowerer} {lifter : Lifter} {v : IValue} {t : IType}
    (hmem : ∀ bytes, writtenBytes v = some bytes → ReadsBack lowerer lifter bytes)
    (hv : wireType v = some t) {wvalues : List WValue}
    (hlow : ivalueToWvalues lowerer (some v) = .ok wvalues) :
    wvaluesToIvalues lifter wvalues [t] = .ok [v] ∧
    ∀ bytes, writtenBytes v = some bytes → ∃ offset, lowerer.writeBytes bytes = .ok offset ∧
      ∀ guest : Guest, guest.allocate = some (.ok lowerer) →
        (∀ call ∈ (lowerOutputs guest (some v)).handed, call.Denotes offset bytes.length) ∧
        (guest.Serves → ∃ ptr size, (lowerOutputs guest (some v)).handed =
          [.setResultPtr ptr, .setResultSize size]) := by
  refine ⟨lift_lowered hmem hv hlow, fun bytes hbytes => ?_⟩
  have hslice : ∃ offset, lowerer.writeBytes bytes = .ok offset ∧
      wvalues = [.i32 offset.toInt32, .i32 (Int32.ofNat bytes.length)] := by
    cases v with
    | string str =>
      cases hbytes
      obtain ⟨offset, hwrite, hlow⟩ := lowerError_bind_ok hlow
      cases hlow
      exact ⟨offset, hwrite, rfl⟩
    | byteArray array =>
      cases hbytes
      obtain ⟨offset, hwrite, hlow⟩ := lowerError_bind_ok hlow
      cases hlow
      exact ⟨offset, hwrite, rfl⟩
    | _ => cases hbytes
  obtain ⟨offset, hwrite, rfl⟩ := hslice
  refine ⟨offset, hwrite, fun guest halloc => ?_⟩
  obtain ⟨hstart, hserved⟩ := handed_slice halloc hlow
  refine ⟨fun call hcall => ?_, fun hserves => ⟨_, _, hserved hserves⟩⟩
  have hfits := (hmem bytes hbytes).fits offset hwrite
  rcases List.mem_cons.mp (hstart.subset hcall) with rfl | hcall
  · rfl
  · rw [List.mem_singleton.mp hcall]
    show (UInt32.ofNat bytes.length).toNat = bytes.length
    exact UInt32.toNat_ofNat_of_lt' hfits

/-- A guest that has two bytes left, at 2 GiB. -/
def highLowerer : Lowerer where
  writeBytes bytes := if bytes = [1, 2] then .ok 0x80000000 else .error "no memory"
  arrayLowerMemory _ := .error "no memory"
  recordLowerMemory _ := .error "no memory"

def highLifter : Lifter where
  recordTypes := ∅
  readRawU8Array offset size :=
    if offset = 0x80000000 ∧ size = 2 then .ok [1, 2] else .error "out of bounds"
  arrayLiftMemory _ _ _ := .error "out of bounds"
  recordLiftMemory _ _ := .error "out of bounds"

theorem highLowerer_readsBack : ReadsBack highLowerer highLifter [1, 2] := by
  constructor
  · intro offset _
    decide
  · intro offset h
    cases h
    rfl

theorem wire_roundTrip_high :
    wvaluesToIvalues highLifter [.i32 (-2147483648), .i32 2] [.byteArray] =
      .ok [.byteArray [1, 2]] := by
  have hmem : ∀ bytes, writtenBytes (.byteArray [1, 2]) = some bytes →
      ReadsBack highLowerer highLifter bytes := by
    rintro bytes ⟨⟩
    exact highLowerer_readsBack
  exact (wire_roundTrip hmem rfl rfl).1

end Marine.HostImports
