import Mathlib.Data.List.Basic

/-!
# Texts

Splitting and trimming of strings by their characters.

* `splitOn_intercalate`: parts without the separator are found again.
* `length_splitOn`: there is one part more than there are separators.
-/

namespace Texts

/-- The characters with the property White_Space. -/
def isWhite (c : Char) : Bool :=
  (0x9 ≤ c.toNat && c.toNat ≤ 0xD) || c.toNat == 0x20 || c.toNat == 0x85 || c.toNat == 0xA0 ||
    c.toNat == 0x1680 || (0x2000 ≤ c.toNat && c.toNat ≤ 0x200A) || c.toNat == 0x2028 ||
    c.toNat == 0x2029 || c.toNat == 0x202F || c.toNat == 0x205F || c.toNat == 0x3000

def trim (s : String) : String :=
  String.ofList ((s.toList.dropWhile isWhite).reverse.dropWhile isWhite).reverse

/-! ## Splitting at a character -/

/-- The parts of a text between the occurrences of a character. -/
def splitOn (c : Char) (s : String) : List String :=
  (s.toList.splitOn c).map String.ofList

theorem splitOn_intercalate {c : Char} {parts : List String} (h : ∀ s ∈ parts, c ∉ s.toList)
    (hne : parts ≠ []) : splitOn c ((String.singleton c).intercalate parts) = parts := by
  have hlists : ∀ l ∈ parts.map String.toList, c ∉ l := by
    intro l hl
    obtain ⟨s, hs, rfl⟩ := List.mem_map.mp hl
    exact h s hs
  rw [splitOn, String.toList_intercalate, String.toList_singleton,
    List.splitOn_intercalate c hlists (by simpa using hne), List.map_map]
  simp [Function.comp_def]

theorem splitOn_of_notMem {c : Char} {s : String} (h : c ∉ s.toList) : splitOn c s = [s] := by
  have hone : splitOn c ((String.singleton c).intercalate [s]) = [s] :=
    splitOn_intercalate (by simpa using h) (by simp)
  rwa [String.intercalate_singleton] at hone

theorem splitOn_pair {c : Char} {s t : String} (hs : c ∉ s.toList) (ht : c ∉ t.toList) :
    splitOn c (s ++ String.singleton c ++ t) = [s, t] := by
  have htwo : splitOn c ((String.singleton c).intercalate [s, t]) = [s, t] :=
    splitOn_intercalate (by simp [hs, ht]) (by simp)
  rwa [String.intercalate_cons_cons, String.intercalate_singleton] at htwo

theorem intercalate_splitOn (c : Char) (s : String) :
    (String.singleton c).intercalate (splitOn c s) = s := by
  apply String.toList_inj.mp
  rw [String.toList_intercalate, splitOn, List.map_map, String.toList_singleton]
  simp [Function.comp_def]

theorem notMem_of_mem_splitOn {c : Char} {s part : String} (h : part ∈ splitOn c s) :
    c ∉ part.toList := by
  obtain ⟨l, hl, rfl⟩ := List.mem_map.mp h
  rw [String.toList_ofList]
  clear h
  generalize s.toList = chars at hl
  induction chars generalizing l with
  | nil =>
    rw [List.splitOn_nil, List.mem_singleton] at hl
    simp [hl]
  | cons x xs ih =>
    rw [List.splitOn_cons_eq_if_modifyHead] at hl
    by_cases hx : x = c
    · rw [if_pos (by simpa using hx)] at hl
      rcases List.mem_cons.mp hl with rfl | hl
      · simp
      · exact ih l hl
    · rw [if_neg (by simpa using hx)] at hl
      cases hparts : xs.splitOn c with
      | nil => exact absurd hparts (List.splitOn_ne_nil c xs)
      | cons part parts =>
        rw [hparts] at hl ih
        rcases List.mem_cons.mp hl with rfl | hl
        · simp [Ne.symm hx, ih part (List.mem_cons_self ..)]
        · exact ih l (List.mem_cons_of_mem part hl)

theorem length_splitOn (c : Char) (s : String) :
    (splitOn c s).length = s.toList.count c + 1 := by
  rw [splitOn, List.length_map]
  induction s.toList with
  | nil => rfl
  | cons x xs ih =>
    rw [List.splitOn_cons_eq_if_modifyHead]
    by_cases hx : x = c
    · simp [hx, ih]
    · simp [hx, ih]

end Texts
