import Marine.Interface.ModuleInterface
import Marine.Lib.Listings
import Mathlib.Data.List.Permutation
import Mathlib.Data.String.Basic

/-!
# The order of the signatures

`marine aqua` sorts the signatures of a module by the `Ord` of
`crates/module-interface/src/interface/module_interface.rs`.

* `cmp_eq_iff`: two signatures compare as equal exactly when they are equal.
* `lawfulOn_iff`: on the signatures of a list the comparison is a total order,
  and the list has one sorted arrangement, exactly when no name of the list has
  two different signatures.
-/

namespace Marine.Interface

namespace FunctionSignature

/-- `Ord::cmp`. -/
def cmp (self other : FunctionSignature) : Ordering :=
  if self.name < other.name then .lt
  else if self = other then .eq
  else .gt

theorem cmp_of_lt {a b : FunctionSignature} (h : a.name < b.name) : cmp a b = .lt := if_pos h

theorem cmp_self (a : FunctionSignature) : cmp a a = .eq := by
  rw [cmp, if_neg (lt_irrefl _), if_pos rfl]

theorem cmp_of_gt {a b : FunctionSignature} (h : b.name < a.name) : cmp a b = .gt := by
  have hne : a ≠ b := fun heq => lt_irrefl b.name (heq ▸ h)
  rw [cmp, if_neg (lt_asymm h), if_neg hne]

/-- Neither of two signatures of one name comes before the other. -/
theorem cmp_of_name_eq {a b : FunctionSignature} (hname : a.name = b.name) (hne : a ≠ b) :
    cmp a b = .gt := by
  rw [cmp, if_neg (hname ▸ lt_irrefl _), if_neg hne]

theorem cmp_eq_iff (a b : FunctionSignature) : cmp a b = .eq ↔ a = b := by
  constructor
  · intro h
    rw [cmp] at h
    split at h
    · cases h
    · split at h
      · assumption
      · cases h
  · rintro rfl
    exact cmp_self a

theorem cmp_ne_gt_iff (a b : FunctionSignature) : cmp a b ≠ .gt ↔ a.name < b.name ∨ a = b := by
  rw [cmp]
  split
  · simp [*]
  · split <;> simp [*]

end FunctionSignature

open FunctionSignature (cmp_of_lt cmp_of_gt cmp_of_name_eq cmp_eq_iff cmp_ne_gt_iff)

/-! ## The laws -/

/-- The order that `sort` promises for its result. -/
def Sorted (signatures : List FunctionSignature) : Prop :=
  signatures.Pairwise fun a b => a.cmp b ≠ .gt

/-- The comparison is a total order on the signatures of a list, and the list has
one sorted arrangement. -/
structure LawfulOn (signatures : List FunctionSignature) : Prop where
  antisymmetric : ∀ a ∈ signatures, ∀ b ∈ signatures, a.cmp b = (b.cmp a).swap
  transitive : ∀ a ∈ signatures, ∀ b ∈ signatures, ∀ c ∈ signatures, ∀ o,
    a.cmp b = o → b.cmp c = o → a.cmp c = o
  equal : ∀ a ∈ signatures, ∀ b ∈ signatures, a.cmp b = .eq ↔ a = b
  sorted : ∃! arranged : List FunctionSignature, arranged.Perm signatures ∧ Sorted arranged

/-- No name of the list has two different signatures. -/
def NamesDetermine (signatures : List FunctionSignature) : Prop :=
  ∀ a ∈ signatures, ∀ b ∈ signatures, a.name = b.name → a = b

section Laws

variable {signatures : List FunctionSignature}

/-- Three ways in which two signatures of the list compare. -/
theorem NamesDetermine.cases (h : NamesDetermine signatures) {a b : FunctionSignature}
    (ha : a ∈ signatures) (hb : b ∈ signatures) :
    (a.name < b.name ∧ a.cmp b = .lt) ∨ (a = b ∧ a.cmp b = .eq) ∨
      (b.name < a.name ∧ a.cmp b = .gt) := by
  rcases lt_trichotomy a.name b.name with hlt | hname | hgt
  · exact .inl ⟨hlt, cmp_of_lt hlt⟩
  · have heq := h a ha b hb hname
    exact .inr (.inl ⟨heq, (cmp_eq_iff a b).mpr heq⟩)
  · exact .inr (.inr ⟨hgt, cmp_of_gt hgt⟩)

theorem NamesDetermine.antisymmetric (h : NamesDetermine signatures) {a b : FunctionSignature}
    (ha : a ∈ signatures) (hb : b ∈ signatures) : a.cmp b = (b.cmp a).swap := by
  rcases h.cases ha hb with ⟨hlt, hcmp⟩ | ⟨rfl, hcmp⟩ | ⟨hgt, hcmp⟩
  · rw [hcmp, cmp_of_gt hlt]
    rfl
  · rw [hcmp]
    rfl
  · rw [hcmp, cmp_of_lt hgt]
    rfl

theorem NamesDetermine.transitive (h : NamesDetermine signatures) {a b c : FunctionSignature}
    (ha : a ∈ signatures) (hb : b ∈ signatures) (hc : c ∈ signatures) {o : Ordering}
    (hab : a.cmp b = o) (hbc : b.cmp c = o) : a.cmp c = o := by
  rcases h.cases ha hb with ⟨hlt, hcmp⟩ | ⟨rfl, -⟩ | ⟨hgt, hcmp⟩
  · rcases h.cases hb hc with ⟨hlt', -⟩ | ⟨rfl, -⟩ | ⟨-, hcmp'⟩
    · rw [← hab, hcmp]
      exact cmp_of_lt (hlt.trans hlt')
    · exact hab
    · simp [← hab, hcmp, hcmp'] at hbc
  · exact hbc
  · rcases h.cases hb hc with ⟨-, hcmp'⟩ | ⟨rfl, -⟩ | ⟨hgt', -⟩
    · simp [← hab, hcmp, hcmp'] at hbc
    · exact hab
    · rw [← hab, hcmp]
      exact cmp_of_gt (hgt'.trans hgt)

/-- Sorted arrangements of one list are equal. -/
theorem sorted_unique {l l' : List FunctionSignature} (hl : Sorted l) (hl' : Sorted l')
    (hperm : l.Perm l') : l = l' := by
  refine List.Perm.eq_of_pairwise ?_ hl hl' hperm
  intro a b _ _ hab hba
  rw [cmp_ne_gt_iff] at hab hba
  rcases hab with hlt | rfl
  · rcases hba with hgt | rfl
    · exact absurd hlt (lt_asymm hgt)
    · rfl
  · rfl

theorem NamesDetermine.exists_sorted (h : NamesDetermine signatures) :
    ∃ arranged : List FunctionSignature, arranged.Perm signatures ∧ Sorted arranged := by
  refine ⟨signatures.mergeSort fun a b => decide (a.name ≤ b.name),
    List.mergeSort_perm _ _, ?_⟩
  have hsorted := Sorting.pairwise_mergeSort FunctionSignature.name signatures
  refine hsorted.imp_of_mem ?_
  intro a b ha hb hle
  rw [cmp_ne_gt_iff]
  rcases lt_or_eq_of_le hle with hlt | hname
  · exact .inl hlt
  · exact .inr (h a (List.mem_mergeSort.mp ha) b (List.mem_mergeSort.mp hb) hname)

end Laws

/-- **The comparison is lawful on a list** exactly when its names determine its
signatures. -/
theorem lawfulOn_iff (signatures : List FunctionSignature) :
    LawfulOn signatures ↔ NamesDetermine signatures := by
  constructor
  · intro h a ha b hb hname
    by_contra hne
    have hswap := h.antisymmetric a ha b hb
    rw [cmp_of_name_eq hname hne, cmp_of_name_eq hname.symm (Ne.symm hne)] at hswap
    cases hswap
  · intro h
    refine ⟨fun a ha b hb => h.antisymmetric ha hb, fun a ha b hb c hc o => h.transitive ha hb hc,
      fun a _ b _ => cmp_eq_iff a b, ?_⟩
    obtain ⟨arranged, hperm, hsorted⟩ := h.exists_sorted
    refine ⟨arranged, ⟨hperm, hsorted⟩, ?_⟩
    rintro other ⟨hperm', hsorted'⟩
    exact sorted_unique hsorted' hsorted (hperm'.trans hperm.symm)

/-- `f(x: u32)` and `f(x: u64)`. -/
def overloads : List FunctionSignature :=
  [⟨"f", [("x", "u32")], []⟩, ⟨"f", [("x", "u64")], []⟩]

/-- Two signatures of one name are each greater than the other, and no
arrangement of them is sorted. -/
theorem overloads_unordered : ¬ LawfulOn overloads ∧
    ¬ ∃ arranged : List FunctionSignature, arranged.Perm overloads ∧ Sorted arranged := by
  have hab : FunctionSignature.cmp ⟨"f", [("x", "u32")], []⟩ ⟨"f", [("x", "u64")], []⟩ = .gt :=
    cmp_of_name_eq rfl (by decide)
  have hba : FunctionSignature.cmp ⟨"f", [("x", "u64")], []⟩ ⟨"f", [("x", "u32")], []⟩ = .gt :=
    cmp_of_name_eq rfl (by decide)
  have hunsorted : ¬ ∃ arranged : List FunctionSignature, arranged.Perm overloads ∧
      Sorted arranged := by
    rintro ⟨arranged, hperm, hsorted⟩
    obtain rfl | rfl := List.perm_pair.mp hperm
    · exact List.rel_of_pairwise_cons hsorted (by simp) hab
    · exact List.rel_of_pairwise_cons hsorted (by simp) hba
  refine ⟨fun h => ?_, hunsorted⟩
  obtain ⟨arranged, harranged, -⟩ := h.sorted
  exact hunsorted ⟨arranged, harranged⟩

end Marine.Interface
