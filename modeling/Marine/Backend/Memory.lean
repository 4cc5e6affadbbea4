import Marine.Lib.Fallible
import Marine.Lib.Slices
import Mathlib.Algebra.Ring.Nat

/-!
# The linear memory of a guest in both backends

`check_bounds` guards every access to a memory of the guest, and `read_vec` and
`write_bytes` panic (here: `none`) when the range leaves the memory.  The host
of the wasmtime backend has 64-bit addresses, the one of the JS backend runs as
`wasm32` itself.  The accesses of the engines themselves are a parameter.

* `readVec_writeBytes`, `writeBytes_frame`: what is written is read back, and
  the bytes outside of the range stay.
* `checkBounds_exact_iff`: the ranges on which the check agrees with the
  accesses.
-/

namespace Marine.Backend

open Slices

/-! ## The engines -/

/-- The bytes that `subarray` shows: both ends are cut down to the length. -/
def subarray (bytes : List UInt8) (start stop : UInt32) : List UInt8 :=
  slice bytes (min start.toNat bytes.length)
    (min stop.toNat bytes.length - min start.toNat bytes.length)

/-- **Linear memories**, as the engines offer them: `wasmtime::Memory` in the one
backend, the `ArrayBuffer` of a `WebAssembly.Memory` and `Uint8Array` in the other.
The propositions are what is documented of them. -/
class LinearMemory (Mem : Type) where
  bytes : Mem → List UInt8
  /-- There are at most 65536 pages of 64 KiB. -/
  length_le (mem : Mem) : (bytes mem).length ≤ 2 ^ 32
  /-- `wasmtime::Memory::data_size`. -/
  dataSize : Mem → Nat
  dataSize_eq (mem : Mem) : dataSize mem = (bytes mem).length
  /-- `wasmtime::Memory::read` into a buffer of `length` bytes. -/
  read (mem : Mem) (offset length : Nat) : Option (List UInt8)
  read_eq (mem : Mem) (offset length : Nat) : read mem offset length =
    if offset + length ≤ (bytes mem).length then some (slice (bytes mem) offset length) else none
  /-- `wasmtime::Memory::write`. -/
  write (mem : Mem) (offset : Nat) (source : List UInt8) : Option Mem
  write_isSome (mem : Mem) (offset : Nat) (source : List UInt8) :
    (write mem offset source).isSome ↔ offset + source.length ≤ (bytes mem).length
  write_bytes {mem mem' : Mem} {offset : Nat} {source : List UInt8}
    (h : write mem offset source = some mem') : bytes mem' = overwrite (bytes mem) offset source
  /-- `ArrayBuffer::byte_length`, a `u32`. -/
  byteLength : Mem → UInt32
  byteLength_eq (mem : Mem) : byteLength mem = UInt32.ofNat (bytes mem).length
  /-- `subarray(start, stop).copy_to` a buffer of `length` bytes; `copy_to` asserts that both
  sides have one length. -/
  copyTo (mem : Mem) (start stop : UInt32) (length : Nat) : Option (List UInt8)
  copyTo_eq (mem : Mem) (start stop : UInt32) (length : Nat) : copyTo mem start stop length =
    if (subarray (bytes mem) start stop).length = length then some (subarray (bytes mem) start stop)
    else none
  /-- `subarray(start, stop).copy_from`, which asserts the same. -/
  copyFrom (mem : Mem) (start stop : UInt32) (source : List UInt8) : Option Mem
  copyFrom_isSome (mem : Mem) (start stop : UInt32) (source : List UInt8) :
    (copyFrom mem start stop source).isSome ↔
      (subarray (bytes mem) start stop).length = source.length
  copyFrom_bytes {mem mem' : Mem} {start stop : UInt32} {source : List UInt8}
    (h : copyFrom mem start stop source = some mem') :
    bytes mem' = overwrite (bytes mem) (min start.toNat (bytes mem).length) source

/-- The number of bytes. -/
def LinearMemory.length {Mem : Type} [LinearMemory Mem] (mem : Mem) : Nat :=
  (LinearMemory.bytes mem).length

/-- `MemoryAccessError::OutOfBounds`. -/
structure MemoryAccessError where
  offset : UInt32
  size : UInt32
  memorySize : UInt32
  deriving DecidableEq, Repr

def checkedAdd (a b : UInt32) : Option UInt32 :=
  if a.toNat + b.toNat < 2 ^ 32 then some (a + b) else none

theorem checkedAdd_eq_some_iff {a b c : UInt32} :
    checkedAdd a b = some c ↔ c.toNat = a.toNat + b.toNat := by
  unfold checkedAdd
  have hadd : (a + b).toNat = (a.toNat + b.toNat) % 2 ^ 32 := UInt32.toNat_add a b
  by_cases hlt : a.toNat + b.toNat < 2 ^ 32
  · rw [if_pos hlt, Option.some.injEq, ← UInt32.toNat_inj, hadd, Nat.mod_eq_of_lt hlt]
    exact eq_comm
  · have hc := c.toNat_lt
    rw [if_neg hlt]
    simp
    omega

theorem checkedAdd_of_lt {a b : UInt32} (h : a.toNat + b.toNat < 2 ^ 32) :
    ∃ c, checkedAdd a b = some c ∧ c.toNat = a.toNat + b.toNat := by
  refine ⟨a + b, if_pos h, ?_⟩
  rw [UInt32.toNat_add]
  exact Nat.mod_eq_of_lt h

theorem checkedAdd_of_not_lt {a b : UInt32} (h : ¬ a.toNat + b.toNat < 2 ^ 32) :
    checkedAdd a b = none := if_neg h

variable {Mem : Type} [LinearMemory Mem]

open LinearMemory (length)

/-! ## The wasmtime backend -/

namespace WasmtimeMemory

def size (mem : Mem) : Nat := LinearMemory.dataSize mem

def readVec (mem : Mem) (offset size : UInt32) : Option (List UInt8) :=
  LinearMemory.read mem offset.toNat size.toNat

def writeBytes (mem : Mem) (offset : UInt32) (bytes : List UInt8) : Option Mem :=
  LinearMemory.write mem offset.toNat bytes

def outOfBounds (mem : Mem) (offset size : UInt32) : MemoryAccessError :=
  ⟨offset, size, UInt32.ofNat (LinearMemory.dataSize mem)⟩

def checkBounds (mem : Mem) (offset size : UInt32) : Except MemoryAccessError Unit :=
  match checkedAdd offset size with
  | none => .error (outOfBounds mem offset size)
  | some finalSize =>
    if LinearMemory.dataSize mem ≤ finalSize.toNat then .error (outOfBounds mem offset size)
    else .ok ()

end WasmtimeMemory

/-! ## The JS backend -/

namespace JsMemory

/-- `byteLength` reaches Rust as a `u32`. -/
def size (mem : Mem) : UInt32 := LinearMemory.byteLength mem

/-- `isize::MAX` of `wasm32`; a vector of more bytes is a capacity overflow. -/
def isizeMax : Nat := 2 ^ 31 - 1

def readVec (mem : Mem) (offset size : UInt32) : Option (List UInt8) :=
  if size.toNat ≤ isizeMax then
    match checkedAdd offset size with
    | none => none
    | some stop => LinearMemory.copyTo mem offset stop size.toNat
  else none

def writeBytes (mem : Mem) (offset : UInt32) (bytes : List UInt8) : Option Mem :=
  match checkedAdd offset (UInt32.ofNat bytes.length) with
  | none => none
  | some stop => LinearMemory.copyFrom mem offset stop bytes

def checkBounds (mem : Mem) (offset size : UInt32) : Except MemoryAccessError Unit :=
  match checkedAdd offset size with
  | none => .error ⟨offset, size, JsMemory.size mem⟩
  | some stop =>
    if stop ≥ JsMemory.size mem then .error ⟨offset, size, JsMemory.size mem⟩ else .ok ()

end JsMemory

/-! ## What the accesses need -/

namespace WasmtimeMemory

theorem readVec_eq {mem : Mem} {offset size : UInt32} :
    readVec mem offset size =
      if offset.toNat + size.toNat ≤ length mem
      then some (slice (LinearMemory.bytes mem) offset.toNat size.toNat) else none :=
  LinearMemory.read_eq mem offset.toNat size.toNat

theorem readVec_isSome_iff {mem : Mem} {offset size : UInt32} :
    (readVec mem offset size).isSome ↔ offset.toNat + size.toNat ≤ length mem := by
  rw [readVec_eq]
  split <;> simp_all

theorem writeBytes_isSome_iff {mem : Mem} {offset : UInt32} {bytes : List UInt8} :
    (writeBytes mem offset bytes).isSome ↔ offset.toNat + bytes.length ≤ length mem :=
  LinearMemory.write_isSome mem offset.toNat bytes

theorem checkBounds_isOk_iff {mem : Mem} {offset size : UInt32} :
    (checkBounds mem offset size).isOk ↔ offset.toNat + size.toNat < length mem := by
  have hle : length mem ≤ 2 ^ 32 := LinearMemory.length_le mem
  have hmem : LinearMemory.dataSize mem = length mem := LinearMemory.dataSize_eq mem
  unfold checkBounds
  by_cases hadd : offset.toNat + size.toNat < 2 ^ 32
  · obtain ⟨stop, hstop, hnat⟩ := checkedAdd_of_lt hadd
    simp only [hstop]
    by_cases hend : LinearMemory.dataSize mem ≤ stop.toNat
    · rw [if_pos hend]
      simp
      omega
    · rw [if_neg hend]
      simp
      omega
  · rw [checkedAdd_of_not_lt hadd]
    simp
    omega

end WasmtimeMemory

theorem length_subarray {bytes : List UInt8} {start stop : UInt32} {n : Nat}
    (h : stop.toNat = start.toNat + n) :
    (subarray bytes start stop).length = n ↔ start.toNat + n ≤ bytes.length ∨ n = 0 := by
  simp only [subarray, length_slice, h]
  omega

theorem subarray_eq {bytes : List UInt8} {start stop : UInt32} {n : Nat}
    (h : stop.toNat = start.toNat + n) (hn : (subarray bytes start stop).length = n) :
    subarray bytes start stop = slice bytes start.toNat n := by
  rcases (length_subarray h).mp hn with hfits | rfl
  · have hstart : min start.toNat bytes.length = start.toNat := by omega
    have hlength : min stop.toNat bytes.length - min start.toNat bytes.length = n := by omega
    rw [subarray, hlength, hstart]
  · rw [List.length_eq_zero_iff.mp hn]
    simp [slice]

namespace JsMemory

theorem readVec_isSome_iff {mem : Mem} {offset size : UInt32} :
    (readVec mem offset size).isSome ↔ size.toNat ≤ isizeMax ∧
      offset.toNat + size.toNat < 2 ^ 32 ∧
      (offset.toNat + size.toNat ≤ length mem ∨ size.toNat = 0) := by
  unfold readVec
  by_cases hsize : size.toNat ≤ isizeMax
  · rw [if_pos hsize]
    by_cases hadd : offset.toNat + size.toNat < 2 ^ 32
    · obtain ⟨stop, hstop, hnat⟩ := checkedAdd_of_lt hadd
      simp only [hstop, hsize, hadd, true_and, LinearMemory.copyTo_eq, length]
      rw [← length_subarray hnat]
      split <;> simp_all
    · rw [checkedAdd_of_not_lt hadd]
      exact iff_of_false (by simp) fun h => hadd h.2.1
  · rw [if_neg hsize]
    exact iff_of_false (by simp) fun h => hsize h.1

theorem writeBytes_isSome_iff {mem : Mem} {offset : UInt32} {bytes : List UInt8}
    (h : bytes.length < 2 ^ 32) :
    (writeBytes mem offset bytes).isSome ↔ offset.toNat + bytes.length < 2 ^ 32 ∧
      (offset.toNat + bytes.length ≤ length mem ∨ bytes.length = 0) := by
  have hlength : (UInt32.ofNat bytes.length).toNat = bytes.length := UInt32.toNat_ofNat_of_lt' h
  unfold writeBytes
  by_cases hadd : offset.toNat + (UInt32.ofNat bytes.length).toNat < 2 ^ 32
  · obtain ⟨stop, hstop, hnat⟩ := checkedAdd_of_lt hadd
    rw [hlength] at hadd hnat
    simp only [hstop, hadd, true_and, LinearMemory.copyFrom_isSome]
    exact length_subarray hnat
  · rw [checkedAdd_of_not_lt hadd]
    rw [hlength] at hadd
    exact iff_of_false (by simp) fun h => hadd h.1

theorem checkBounds_isOk_iff {mem : Mem} {offset size : UInt32} :
    (checkBounds mem offset size).isOk ↔
      offset.toNat + size.toNat < length mem ∧ length mem ≠ 2 ^ 32 := by
  have hle : length mem ≤ 2 ^ 32 := LinearMemory.length_le mem
  have hmem : (JsMemory.size mem).toNat = length mem % 2 ^ 32 := by
    rw [JsMemory.size, LinearMemory.byteLength_eq, UInt32.toNat_ofNat']
    rfl
  unfold checkBounds
  by_cases hadd : offset.toNat + size.toNat < 2 ^ 32
  · obtain ⟨stop, hstop, hnat⟩ := checkedAdd_of_lt hadd
    simp only [hstop]
    by_cases hend : stop ≥ JsMemory.size mem
    · rw [if_pos hend]
      rw [ge_iff_le, UInt32.le_iff_toNat_le] at hend
      simp
      omega
    · rw [if_neg hend]
      rw [ge_iff_le, UInt32.le_iff_toNat_le] at hend
      simp
      omega
  · rw [checkedAdd_of_not_lt hadd]
    simp
    omega

end JsMemory

/-! ## Both backends -/

/-- The implementations of `trait WasmBackend`. -/
inductive WasmBackend where
  | wasmtime
  | js
  deriving DecidableEq, Repr

namespace WasmBackend

def readVec : WasmBackend → Mem → UInt32 → UInt32 → Option (List UInt8)
  | .wasmtime => WasmtimeMemory.readVec
  | .js => JsMemory.readVec

def writeBytes : WasmBackend → Mem → UInt32 → List UInt8 → Option Mem
  | .wasmtime => WasmtimeMemory.writeBytes
  | .js => JsMemory.writeBytes

def checkBounds : WasmBackend → Mem → UInt32 → UInt32 → Except MemoryAccessError Unit
  | .wasmtime => WasmtimeMemory.checkBounds
  | .js => JsMemory.checkBounds

/-- A range that `read_vec` can read from a memory of `length` bytes. -/
def Readable (length : Nat) (offset size : UInt32) : WasmBackend → Prop
  | .wasmtime => offset.toNat + size.toNat ≤ length
  | .js => size.toNat ≤ JsMemory.isizeMax ∧ offset.toNat + size.toNat < 2 ^ 32 ∧
      (offset.toNat + size.toNat ≤ length ∨ size.toNat = 0)

theorem readVec_isSome_iff {backend : WasmBackend} {mem : Mem} {offset size : UInt32} :
    (backend.readVec mem offset size).isSome ↔ backend.Readable (length mem) offset size := by
  cases backend with
  | wasmtime => exact WasmtimeMemory.readVec_isSome_iff
  | js => exact JsMemory.readVec_isSome_iff

theorem readVec_eq_slice {backend : WasmBackend} {mem : Mem} {offset size : UInt32}
    {bytes : List UInt8} (h : backend.readVec mem offset size = some bytes) :
    bytes = slice (LinearMemory.bytes mem) offset.toNat size.toNat := by
  cases backend with
  | wasmtime =>
    simp only [readVec, WasmtimeMemory.readVec_eq, Option.ite_none_right_eq_some] at h
    cases h.2
    rfl
  | js =>
    simp only [readVec, JsMemory.readVec, Option.ite_none_right_eq_some] at h
    obtain ⟨-, h⟩ := h
    cases hstop : checkedAdd offset size with
    | none => simp [hstop] at h
    | some stop =>
      simp only [hstop, LinearMemory.copyTo_eq, Option.ite_none_right_eq_some,
        Option.some.injEq] at h
      obtain ⟨hlength, rfl⟩ := h
      exact subarray_eq (checkedAdd_eq_some_iff.mp hstop) hlength

theorem readVec_eq_some_iff {backend : WasmBackend} {mem : Mem} {offset size : UInt32}
    {bytes : List UInt8} :
    backend.readVec mem offset size = some bytes ↔
      backend.Readable (length mem) offset size ∧
        slice (LinearMemory.bytes mem) offset.toNat size.toNat = bytes := by
  rw [← readVec_isSome_iff]
  constructor
  · intro h
    rw [h]
    exact ⟨rfl, (readVec_eq_slice h).symm⟩
  · rintro ⟨hsome, rfl⟩
    obtain ⟨bytes, hbytes⟩ := Option.isSome_iff_exists.mp hsome
    rw [hbytes, readVec_eq_slice hbytes]

/-- **Writes.**  The memory after a write, in both backends. -/
theorem writeBytes_spec {backend : WasmBackend} {mem mem' : Mem} {offset : UInt32}
    {bytes : List UInt8} (hlength : bytes.length < 2 ^ 32)
    (h : backend.writeBytes mem offset bytes = some mem') :
    length mem' = length mem ∧
      (bytes = [] ∧ LinearMemory.bytes mem' = LinearMemory.bytes mem ∨
        offset.toNat + bytes.length ≤ length mem ∧
          LinearMemory.bytes mem' = overwrite (LinearMemory.bytes mem) offset.toNat bytes) := by
  cases backend with
  | wasmtime =>
    have hfits : offset.toNat + bytes.length ≤ length mem :=
      WasmtimeMemory.writeBytes_isSome_iff.mp (Option.isSome_of_eq_some h)
    have hbytes := LinearMemory.write_bytes h
    refine ⟨?_, Or.inr ⟨hfits, hbytes⟩⟩
    rw [length, hbytes]
    exact length_overwrite hfits
  | js =>
    simp only [writeBytes, JsMemory.writeBytes] at h
    cases hstop : checkedAdd offset (UInt32.ofNat bytes.length) with
    | none => simp [hstop] at h
    | some stop =>
      have hnat := checkedAdd_eq_some_iff.mp hstop
      rw [UInt32.toNat_ofNat_of_lt' hlength] at hnat
      simp only [hstop] at h
      have hbytes := LinearMemory.copyFrom_bytes h
      have hsub := (LinearMemory.copyFrom_isSome mem offset stop bytes).mp
        (Option.isSome_of_eq_some h)
      rcases (length_subarray hnat).mp hsub with hfits | hnil
      · rw [Nat.min_eq_left (by omega)] at hbytes
        refine ⟨?_, Or.inr ⟨hfits, hbytes⟩⟩
        rw [length, hbytes]
        exact length_overwrite hfits
      · cases List.length_eq_zero_iff.mp hnil
        have hsame : LinearMemory.bytes mem' = LinearMemory.bytes mem := by
          simpa [overwrite] using hbytes
        exact ⟨congrArg List.length hsame, Or.inl ⟨rfl, hsame⟩⟩

/-- What was written is read back. -/
theorem readVec_writeBytes {backend : WasmBackend} {mem mem' : Mem} {offset : UInt32}
    {bytes bytes' : List UInt8} (hlength : bytes.length < 2 ^ 32)
    (h : backend.writeBytes mem offset bytes = some mem')
    (hread : backend.readVec mem' offset (UInt32.ofNat bytes.length) = some bytes') :
    bytes' = bytes := by
  have hslice := readVec_eq_slice hread
  rw [UInt32.toNat_ofNat_of_lt' hlength] at hslice
  obtain ⟨-, ⟨rfl, -⟩ | ⟨hfits, hbytes⟩⟩ := writeBytes_spec hlength h
  · rw [hslice]
    simp [slice]
  · rw [hslice, hbytes]
    exact slice_overwrite hfits

/-- **Frame.**  A write changes no read of a range apart from its own. -/
theorem writeBytes_frame {backend : WasmBackend} {mem mem' : Mem}
    {offset offset' size : UInt32} {bytes : List UInt8} (hlength : bytes.length < 2 ^ 32)
    (h : backend.writeBytes mem offset bytes = some mem')
    (hdisjoint : offset'.toNat + size.toNat ≤ offset.toNat ∨
      offset.toNat + bytes.length ≤ offset'.toNat) :
    backend.readVec mem' offset' size = backend.readVec mem offset' size := by
  have hslice : slice (LinearMemory.bytes mem') offset'.toNat size.toNat =
      slice (LinearMemory.bytes mem) offset'.toNat size.toNat := by
    obtain ⟨-, ⟨-, hbytes⟩ | ⟨hfits, hbytes⟩⟩ := writeBytes_spec hlength h
    · rw [hbytes]
    · rw [hbytes]
      exact slice_overwrite_of_disjoint hfits hdisjoint
  ext read
  rw [readVec_eq_some_iff, readVec_eq_some_iff, hslice, (writeBytes_spec hlength h).1]

end WasmBackend

/-! ## Exactness of the check -/

/-- `check_bounds` lets a range pass exactly when it lies in the memory, and
exactly when reading and writing it does not panic. -/
def ExactCheck (backend : WasmBackend) (mem : Mem) (offset size : UInt32) : Prop :=
  ((backend.checkBounds mem offset size).isOk ↔ offset.toNat + size.toNat ≤ length mem) ∧
  ((backend.checkBounds mem offset size).isOk ↔ (backend.readVec mem offset size).isSome) ∧
  ∀ bytes : List UInt8, bytes.length = size.toNat →
    ((backend.checkBounds mem offset size).isOk ↔ (backend.writeBytes mem offset bytes).isSome)

/-- The range does not end where the memory ends.  In the JS backend, where the
size of a memory of 4 GiB is seen as 0, an empty range is cut down to the memory
and no vector has more than `isize::MAX` bytes, these ranges are left out too. -/
def ChecksRight (length : Nat) (offset size : UInt32) : WasmBackend → Prop
  | .wasmtime => offset.toNat + size.toNat ≠ length
  | .js => offset.toNat + size.toNat ≠ length ∧
      (length = 2 ^ 32 → length < offset.toNat + size.toNat) ∧
      (size.toNat = 0 → offset.toNat ≤ length) ∧
      (JsMemory.isizeMax < size.toNat → length ≤ offset.toNat + size.toNat)

/-- **Bounds check.**  The check is exact up to the end of the memory, and there
it is off by one. -/
theorem checkBounds_exact_iff (backend : WasmBackend) (mem : Mem)
    (offset size : UInt32) :
    ExactCheck backend mem offset size ↔ ChecksRight (length mem) offset size backend := by
  have hle : length mem ≤ 2 ^ 32 := LinearMemory.length_le mem
  have hsize := size.toNat_lt
  have hoffset := offset.toNat_lt
  have hsome : ∃ bytes : List UInt8, bytes.length = size.toNat :=
    ⟨List.replicate size.toNat 0, List.length_replicate⟩
  cases backend with
  | wasmtime =>
    have hwrite : ∀ bytes : List UInt8, bytes.length = size.toNat →
        ((WasmtimeMemory.writeBytes mem offset bytes).isSome ↔
          offset.toNat + size.toNat ≤ length mem) := by
      intro bytes hbytes
      rw [WasmtimeMemory.writeBytes_isSome_iff, hbytes]
    simp only [ExactCheck, ChecksRight, WasmBackend.checkBounds, WasmBackend.readVec,
      WasmBackend.writeBytes, WasmtimeMemory.checkBounds_isOk_iff,
      WasmtimeMemory.readVec_isSome_iff]
    constructor
    · rintro ⟨hcheck, -⟩
      omega
    · intro hne
      refine ⟨by omega, by omega, fun bytes hbytes => ?_⟩
      rw [hwrite bytes hbytes]
      omega
  | js =>
    have hwrite : ∀ bytes : List UInt8, bytes.length = size.toNat →
        ((JsMemory.writeBytes mem offset bytes).isSome ↔ offset.toNat + size.toNat < 2 ^ 32 ∧
          (offset.toNat + size.toNat ≤ length mem ∨ size.toNat = 0)) := by
      intro bytes hbytes
      rw [JsMemory.writeBytes_isSome_iff (by omega), hbytes]
    simp only [ExactCheck, ChecksRight, WasmBackend.checkBounds, WasmBackend.readVec,
      WasmBackend.writeBytes, JsMemory.checkBounds_isOk_iff, JsMemory.readVec_isSome_iff]
    constructor
    · rintro ⟨hcheck, hread, hwrites⟩
      obtain ⟨bytes, hbytes⟩ := hsome
      have hwritten := hwrites bytes hbytes
      rw [hwrite bytes hbytes] at hwritten
      omega
    · rintro ⟨hne, hfull, hempty, hlarge⟩
      refine ⟨by omega, by omega, fun bytes hbytes => ?_⟩
      rw [hwrite bytes hbytes]
      omega

/-- No range that ends with the memory passes the check. -/
theorem not_exactCheck_of_end {backend : WasmBackend} {mem : Mem} {offset size : UInt32}
    (hend : offset.toNat + size.toNat = length mem) : ¬ ExactCheck backend mem offset size := by
  rintro ⟨hcheck, -⟩
  cases backend with
  | wasmtime =>
    simp only [WasmBackend.checkBounds, WasmtimeMemory.checkBounds_isOk_iff] at hcheck
    omega
  | js =>
    simp only [WasmBackend.checkBounds, JsMemory.checkBounds_isOk_iff] at hcheck
    omega

/-- A memory as the list of its bytes. -/
structure GuestMemory where
  bytes : List UInt8
  length_le : bytes.length ≤ 2 ^ 32

/-- The memory with `source` written at `offset`. -/
def GuestMemory.overwritten (mem : GuestMemory) (offset : Nat) (source : List UInt8)
    (h : offset + source.length ≤ mem.bytes.length) : GuestMemory :=
  ⟨overwrite mem.bytes offset source, by
    rw [length_overwrite h]
    exact mem.length_le⟩

instance : LinearMemory GuestMemory where
  bytes := GuestMemory.bytes
  length_le := GuestMemory.length_le
  dataSize mem := mem.bytes.length
  dataSize_eq _ := rfl
  read mem offset length :=
    if offset + length ≤ mem.bytes.length then some (slice mem.bytes offset length) else none
  read_eq _ _ _ := rfl
  write mem offset source :=
    if h : offset + source.length ≤ mem.bytes.length
    then some (mem.overwritten offset source h) else none
  write_isSome mem offset source := by
    split <;> simp_all
  write_bytes h := by
    rw [Option.dite_none_right_eq_some] at h
    obtain ⟨_, ⟨⟩⟩ := h
    rfl
  byteLength mem := UInt32.ofNat mem.bytes.length
  byteLength_eq _ := rfl
  copyTo mem start stop length :=
    if (subarray mem.bytes start stop).length = length then some (subarray mem.bytes start stop)
    else none
  copyTo_eq _ _ _ _ := rfl
  copyFrom mem start stop source :=
    if h : (subarray mem.bytes start stop).length = source.length
    then some (mem.overwritten (min start.toNat mem.bytes.length) source (by
      rw [← h]
      simp only [subarray, length_slice]
      omega))
    else none
  copyFrom_isSome mem start stop source := by
    split <;> simp_all
  copyFrom_bytes h := by
    rw [Option.dite_none_right_eq_some] at h
    obtain ⟨_, ⟨⟩⟩ := h
    rfl

/-- A memory of one page. -/
def onePage : GuestMemory where
  bytes := List.replicate 65536 0
  length_le := by
    rw [List.length_replicate]
    decide

theorem length_onePage : length onePage = 65536 := List.length_replicate

theorem last_byte_readable (backend : WasmBackend) :
    (backend.readVec onePage 65535 1).isSome := by
  rw [WasmBackend.readVec_isSome_iff, length_onePage]
  cases backend with
  | wasmtime => exact Nat.le_refl 65536
  | js => exact ⟨by decide, by decide, by decide⟩

/-- The last byte of a page can be read and is refused by the check. -/
theorem last_byte_refused :
    ((WasmBackend.wasmtime.readVec onePage 65535 1).isSome ∧
      ¬ ExactCheck .wasmtime onePage 65535 1) ∧
    ((WasmBackend.js.readVec onePage 65535 1).isSome ∧ ¬ ExactCheck .js onePage 65535 1) := by
  have hend : (65535 : UInt32).toNat + (1 : UInt32).toNat = length onePage := by
    rw [length_onePage]
    rfl
  exact ⟨⟨last_byte_readable .wasmtime, not_exactCheck_of_end hend⟩,
    last_byte_readable .js, not_exactCheck_of_end hend⟩

end Marine.Backend
