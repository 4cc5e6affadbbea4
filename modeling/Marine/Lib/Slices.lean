import Mathlib.Data.List.Basic

/-!
# Parts of a list

The part of a list behind a position, and a list in which such a part is
replaced.  What was written is read back, and everything outside of it is as
before.  `l.flatMap f` with blocks of length `n` holds the `i`-th element of the
block of `l[k]` at position `n * k + i`.
-/

namespace Slices

variable {α : Type*}

/-- The `n` elements from position `i` on, or as many as there are. -/
def slice (xs : List α) (i n : Nat) : List α := (xs.drop i).take n

/-- `xs` with `ys` in the place of the elements from position `i` on. -/
def overwrite (xs : List α) (i : Nat) (ys : List α) : List α :=
  xs.take i ++ ys ++ xs.drop (i + ys.length)

theorem length_slice (xs : List α) (i n : Nat) :
    (slice xs i n).length = min n (xs.length - i) := by
  simp [slice]

theorem length_slice_eq_iff {xs : List α} {i n : Nat} :
    (slice xs i n).length = n ↔ i + n ≤ xs.length ∨ n = 0 := by
  rw [length_slice]
  omega

@[simp] theorem slice_zero_append (xs ys : List α) : slice (xs ++ ys) 0 xs.length = xs := by
  simp [slice]

theorem slice_append_left {xs : List α} {i n : Nat} (ys : List α) (h : i + n ≤ xs.length) :
    slice (xs ++ ys) i n = slice xs i n := by
  have hi : i ≤ xs.length := by omega
  have hn : n ≤ (xs.drop i).length := by
    rw [List.length_drop]
    omega
  rw [slice, slice, List.drop_append_of_le_length hi, List.take_append_of_le_length hn]

theorem slice_append_right {xs : List α} {i : Nat} (ys : List α) (n : Nat) (h : xs.length ≤ i) :
    slice (xs ++ ys) i n = slice ys (i - xs.length) n := by
  rw [slice, slice, List.drop_append, List.drop_eq_nil_of_le h, List.nil_append]

/-- A list is what lies before a slice, the slice, and what lies behind it. -/
theorem take_append_slice (xs : List α) (i n : Nat) :
    xs.take i ++ (slice xs i n ++ xs.drop (i + n)) = xs := by
  rw [slice, ← List.drop_drop, List.take_append_drop, List.take_append_drop]

theorem length_overwrite {xs ys : List α} {i : Nat} (h : i + ys.length ≤ xs.length) :
    (overwrite xs i ys).length = xs.length := by
  simp only [overwrite, List.length_append, List.length_take, List.length_drop]
  omega

theorem slice_overwrite {xs ys : List α} {i : Nat} (h : i + ys.length ≤ xs.length) :
    slice (overwrite xs i ys) i ys.length = ys := by
  have hi : (xs.take i).length = i := List.length_take_of_le (by omega)
  rw [overwrite, List.append_assoc, slice_append_right _ _ (Nat.le_of_eq hi), hi, Nat.sub_self,
    slice_zero_append]

/-- **Frame.**  A write leaves what lies before it or behind it. -/
theorem slice_overwrite_of_disjoint {xs ys : List α} {i j n : Nat}
    (h : i + ys.length ≤ xs.length) (hdisjoint : j + n ≤ i ∨ i + ys.length ≤ j) :
    slice (overwrite xs i ys) j n = slice xs j n := by
  have hi : (xs.take i).length = i := List.length_take_of_le (by omega)
  rcases hdisjoint with hbefore | hbehind
  · have hsame : slice (xs.take i ++ xs.drop i) j n = slice (xs.take i) j n :=
      slice_append_left _ (by omega)
    rw [List.take_append_drop] at hsame
    rw [overwrite, List.append_assoc, slice_append_left _ (by omega), hsame]
  · have hlength : (xs.take i ++ ys).length = i + ys.length := by
      rw [List.length_append, hi]
    rw [overwrite, slice_append_right _ _ (by omega), hlength]
    rw [slice, slice, List.drop_drop]
    congr 2
    omega

end Slices

namespace Blocks

variable {α β : Type}

theorem length_flatMap {f : α → List β} {n : Nat} (hf : ∀ a, (f a).length = n) (l : List α) :
    (l.flatMap f).length = n * l.length := by
  induction l with
  | nil => simp
  | cons a l ih =>
    rw [List.flatMap_cons, List.length_append, hf, ih, List.length_cons, Nat.mul_succ]
    omega

theorem getElem?_flatMap {f : α → List β} {n : Nat} (hf : ∀ a, (f a).length = n) (l : List α)
    (k : Nat) {i : Nat} (hi : i < n) :
    (l.flatMap f)[n * k + i]? = l[k]?.bind fun a => (f a)[i]? := by
  induction l generalizing k with
  | nil => simp
  | cons a l ih =>
    rw [List.flatMap_cons]
    cases k with
    | zero =>
      rw [Nat.mul_zero, Nat.zero_add, List.getElem?_append_left (by rw [hf]; exact hi)]
      rfl
    | succ k =>
      have hpos : n * (k + 1) + i = n + (n * k + i) := by rw [Nat.mul_succ]; omega
      rw [List.getElem?_append_right (by rw [hf]; omega), hf, hpos, Nat.add_sub_cancel_left,
        ih, List.getElem?_cons_succ]

/-- The same behind a list of other elements. -/
theorem getElem?_append_flatMap {f : α → List β} {n : Nat} (hf : ∀ a, (f a).length = n)
    (base : List β) {l : List α} {k i : Nat} {a : α} {b : β} (ha : l[k]? = some a)
    (hb : (f a)[i]? = some b) : (base ++ l.flatMap f)[base.length + (n * k + i)]? = some b := by
  have hi : i < n := by
    obtain ⟨hlt, -⟩ := List.getElem?_eq_some_iff.mp hb
    rwa [hf] at hlt
  rw [List.getElem?_append_right (Nat.le_add_right ..), Nat.add_sub_cancel_left,
    getElem?_flatMap hf l k hi, ha, Option.bind_some, hb]

end Blocks
