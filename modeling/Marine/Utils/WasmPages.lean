import Mathlib.Algebra.Order.Floor.Div
import Mathlib.Algebra.Ring.Nat

/-!
# Bytes and Wasm pages

`crates/utils/src/wasm_mem_pages_conversion.rs`.  The constant of the source is
65356, and a page of the Wasm specification has 65536 bytes.  Proved here:

* `toNat_bytesToWasmPagesCeil`, `toNat_wasmPagesToBytes`: neither conversion
  wraps, and the first one is a ceiling division by the constant;
* `bytesToWasmPagesCeil_le_iff`: the two conversions are a Galois connection,
  whatever the constant is;
* `exactCeiling_iff`: the ceiling is the one of the specification exactly for
  the byte counts that fit in as many pages of the constant's size.
-/

namespace Marine.Utils

def wasmPageSize : UInt32 := 65356

def bytesToWasmPagesCeil (offset : UInt32) : UInt32 :=
  if offset = 0 then 0 else 1 + (offset - 1) / wasmPageSize

def wasmPagesToBytes (pagesCount : UInt32) : UInt64 :=
  pagesCount.toUInt64 * wasmPageSize.toUInt64

/-! ## The conversions over the numbers -/

theorem toNat_wasmPageSize : wasmPageSize.toNat = 65356 := rfl

/-- **Spec of `bytes_to_wasm_pages_ceil`.** -/
theorem toNat_bytesToWasmPagesCeil (n : UInt32) :
    (bytesToWasmPagesCeil n).toNat = n.toNat ⌈/⌉ wasmPageSize.toNat := by
  rw [Nat.ceilDiv_eq_add_pred_div, toNat_wasmPageSize]
  by_cases hzero : n = 0
  · subst hzero
    rfl
  · have hpos : n.toNat ≠ 0 := fun h => hzero (UInt32.toNat_inj.mp h)
    have hbound := n.toNat_lt
    have hpred : (n - 1).toNat = n.toNat - 1 := by
      rw [UInt32.toNat_sub, UInt32.toNat_one]
      omega
    rw [bytesToWasmPagesCeil, if_neg hzero, UInt32.toNat_add, UInt32.toNat_div, hpred,
      toNat_wasmPageSize, UInt32.toNat_one]
    omega

/-- **Spec of `wasm_pages_to_bytes`.** -/
theorem toNat_wasmPagesToBytes (pages : UInt32) :
    (wasmPagesToBytes pages).toNat = wasmPageSize.toNat * pages.toNat := by
  have hbound := pages.toNat_lt
  rw [wasmPagesToBytes, UInt64.toNat_mul, UInt32.toNat_toUInt64, UInt32.toNat_toUInt64,
    toNat_wasmPageSize]
  omega

/-- **The Galois connection.** -/
theorem bytesToWasmPagesCeil_le_iff (n pages : UInt32) :
    bytesToWasmPagesCeil n ≤ pages ↔ n.toUInt64 ≤ wasmPagesToBytes pages := by
  rw [UInt32.le_iff_toNat_le, UInt64.le_iff_toNat_le, UInt32.toNat_toUInt64,
    toNat_bytesToWasmPagesCeil, toNat_wasmPagesToBytes]
  exact ceilDiv_le_iff_le_mul (by decide)

/-! ## The page of the specification -/

/-- The bytes of a page in the Wasm specification. -/
def specPageSize : Nat := 65536

/-- `bytes_to_wasm_pages_ceil n` is the least number of pages that hold `n`
bytes, it is below `pages` exactly when `n` is below the bytes of `pages`, and
the machine arithmetic of both conversions is the one of the numbers. -/
structure ExactCeiling (n : UInt32) : Prop where
  holds : n.toNat ≤ specPageSize * (bytesToWasmPagesCeil n).toNat
  least : ∀ pages, n.toNat ≤ specPageSize * pages → (bytesToWasmPagesCeil n).toNat ≤ pages
  galois : ∀ pages, bytesToWasmPagesCeil n ≤ pages ↔ n.toUInt64 ≤ wasmPagesToBytes pages
  exactPages : (bytesToWasmPagesCeil n).toNat = n.toNat ⌈/⌉ wasmPageSize.toNat
  exactBytes : ∀ pages, (wasmPagesToBytes pages).toNat = wasmPageSize.toNat * pages.toNat

/-- The pages of the constant's size that hold `n` bytes hold them in pages of
the specification too. -/
theorem le_specPageSize_mul (n : UInt32) :
    n.toNat ≤ specPageSize * (bytesToWasmPagesCeil n).toNat := by
  have hceil : n.toNat ≤ wasmPageSize.toNat * (bytesToWasmPagesCeil n).toNat := by
    rw [toNat_bytesToWasmPagesCeil]
    exact (ceilDiv_le_iff_le_mul (by decide : 0 < wasmPageSize.toNat)).mp le_rfl
  have hsize : wasmPageSize.toNat ≤ specPageSize := by decide
  exact hceil.trans (Nat.mul_le_mul_right _ hsize)

/-- **The conversion is the ceiling of the specification** exactly for the byte
counts that the pages of the specification hold in pages of the constant's
size. -/
theorem exactCeiling_iff (n : UInt32) :
    ExactCeiling n ↔ n.toNat ≤ 65356 * (n.toNat ⌈/⌉ specPageSize) := by
  have hspec : 0 < specPageSize := by decide
  have hconst : 0 < wasmPageSize.toNat := by decide
  constructor
  · intro h
    have hle := h.least _ ((ceilDiv_le_iff_le_mul hspec).mp le_rfl)
    rw [toNat_bytesToWasmPagesCeil] at hle
    exact (ceilDiv_le_iff_le_mul hconst).mp hle
  · intro h
    refine ⟨le_specPageSize_mul n, ?_, bytesToWasmPagesCeil_le_iff n,
      toNat_bytesToWasmPagesCeil n, toNat_wasmPagesToBytes⟩
    intro pages hpages
    have hfew : n.toNat ⌈/⌉ specPageSize ≤ pages := (ceilDiv_le_iff_le_mul hspec).mpr hpages
    rw [toNat_bytesToWasmPagesCeil]
    exact ((ceilDiv_le_iff_le_mul hconst).mpr h).trans hfew

/-- One page of the specification is given two. -/
theorem one_page_needs_two : ¬ ExactCeiling 65536 := by
  intro h
  have hone : (bytesToWasmPagesCeil 65536).toNat ≤ 1 := h.least 1 (by decide)
  exact absurd hone (by decide)

end Marine.Utils
