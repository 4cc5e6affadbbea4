import Mathlib.Algebra.Ring.Nat
import Mathlib.Data.List.Basic

/-!
# Encodings as lists of bytes

* `Utf8.decode_eq_some_iff`: decoding gives exactly the string that is encoded
  as these bytes.
* `LittleEndian.decode_encode`, `LittleEndian.encode_decode`: `width` bytes encode
  the numbers below `256 ^ width`, each in exactly one way.
-/

namespace Utf8

def encode (s : String) : List UInt8 := s.toUTF8.data.toList

def decode (bytes : List UInt8) : Option String := String.fromUTF8? ⟨bytes.toArray⟩

theorem decode_eq_some_iff {bytes : List UInt8} {s : String} :
    decode bytes = some s ↔ encode s = bytes := by
  unfold decode encode String.fromUTF8?
  constructor
  · intro h
    split at h
    · cases h
      rfl
    · cases h
  · rintro rfl
    rw [Array.toArray_toList, String.toUTF8_eq_toByteArray, dif_pos s.isValidUTF8]
    rfl

@[simp] theorem decode_encode (s : String) : decode (encode s) = some s :=
  decode_eq_some_iff.mpr rfl

end Utf8

namespace LittleEndian

def encode : Nat → Nat → List UInt8
  | 0, _ => []
  | width + 1, n => UInt8.ofNat (n % 256) :: encode width (n / 256)

def decode : List UInt8 → Nat
  | [] => 0
  | byte :: bytes => byte.toNat + 256 * decode bytes

@[simp] theorem length_encode (width n : Nat) : (encode width n).length = width := by
  induction width generalizing n with
  | zero => rfl
  | succ width ih => simp [encode, ih]

theorem decode_encode {width n : Nat} (h : n < 256 ^ width) : decode (encode width n) = n := by
  induction width generalizing n with
  | zero =>
    rw [Nat.pow_zero] at h
    simp only [encode, decode]
    omega
  | succ width ih =>
    rw [Nat.pow_succ] at h
    have hbyte : (UInt8.ofNat (n % 256)).toNat = n % 256 :=
      UInt8.toNat_ofNat_of_lt' (Nat.mod_lt n (by decide))
    simp only [encode, decode]
    rw [ih (by omega), hbyte]
    omega

theorem encode_decode (bytes : List UInt8) : encode bytes.length (decode bytes) = bytes := by
  induction bytes with
  | nil => rfl
  | cons byte bytes ih =>
    have hbyte := byte.toNat_lt
    have hlow : (byte.toNat + 256 * decode bytes) % 256 = byte.toNat := by omega
    have hhigh : (byte.toNat + 256 * decode bytes) / 256 = decode bytes := by omega
    simp only [List.length_cons, encode, decode]
    rw [hlow, hhigh, ih, UInt8.ofNat_toNat]

end LittleEndian
