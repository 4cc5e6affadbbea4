import Mathlib.Algebra.Order.Sub.Basic
import Mathlib.Algebra.BigOperators.Group.List.Basic

/-!
# Ledgers of a limited resource

A ledger splits a limit into what is in use and what may still be handed out.
Amounts live in an ordered additive monoid with truncated subtraction.  An
entry of the ledger refuses an amount, commits it, or wastes it: a wasted
amount leaves the free part and never arrives in use.  Proved here:

* `Step.within`: every entry keeps the part in use within the limit;
* `Step.balanced`: an entry that gives back what does not arrive in use keeps
  the books balanced;
* `Balanced.le_free_iff`: while the books balance, an amount can be handed out
  exactly when it is at most the limit less the part in use.
-/

namespace Ledger

/-- What may still be handed out and what is in use. -/
structure Account (M : Type*) where
  free : M
  used : M

/-- One entry of the ledger for a request of `a`. -/
inductive Step {M : Type*} [Add M] [LE M] [Sub M] (a : M) : Account M → Account M → Prop
  | refuse {acc : Account M} : ¬ a ≤ acc.free → Step a acc acc
  | commit {acc : Account M} : a ≤ acc.free → Step a acc ⟨acc.free - a, acc.used + a⟩
  | waste {acc : Account M} : a ≤ acc.free → Step a acc ⟨acc.free - a, acc.used⟩

/-- The part in use and the free part stay within the limit. -/
def Within {M : Type*} [Add M] [LE M] (limit : M) (acc : Account M) : Prop :=
  acc.used + acc.free ≤ limit

/-- Nothing is lost between the part in use and the free part. -/
def Balanced {M : Type*} [Add M] (limit : M) (acc : Account M) : Prop :=
  acc.used + acc.free = limit

theorem Balanced.within {M : Type*} [Add M] [Preorder M] {limit : M} {acc : Account M}
    (h : Balanced limit acc) : Within limit acc := le_of_eq h

variable {M : Type*} [AddCommMonoid M] [PartialOrder M] [CanonicallyOrderedAdd M]

theorem Within.used_le {limit : M} {acc : Account M} (h : Within limit acc) :
    acc.used ≤ limit := le_trans le_self_add h

variable [Sub M] [OrderedSub M] [AddLeftMono M]

theorem commit_total {a free : M} (used : M) (h : a ≤ free) :
    used + a + (free - a) = used + free := by
  rw [add_assoc, add_tsub_cancel_of_le h]

/-- **Step lemma.**  No entry takes the ledger over its limit. -/
theorem Step.within {limit a : M} {acc acc' : Account M} (h : Step a acc acc')
    (hw : Within limit acc) : Within limit acc' := by
  cases h with
  | refuse _ => exact hw
  | commit ha => exact le_trans (le_of_eq (commit_total acc.used ha)) hw
  | waste _ => exact le_trans (add_le_add_right tsub_le_self acc.used) hw

theorem Step.balanced {limit a : M} {acc acc' : Account M} (h : Step a acc acc')
    (hkeep : acc'.used = acc.used → acc'.free = acc.free) (hb : Balanced limit acc) :
    Balanced limit acc' := by
  cases h with
  | refuse _ => exact hb
  | commit ha => exact (commit_total acc.used ha).trans hb
  | waste _ => exact (congrArg (acc.used + ·) (hkeep rfl)).trans hb

omit [CanonicallyOrderedAdd M] [AddLeftMono M] in
theorem Balanced.le_free_iff [AddLeftReflectLE M] {limit a : M} {acc : Account M}
    (h : Balanced limit acc) : a ≤ acc.free ↔ a ≤ limit - acc.used := by
  have he : limit - acc.used = acc.free := by
    rw [← h, add_comm, add_tsub_cancel_right]
  rw [he]

/-! ## Totals over a list -/

section Totals

variable {α N : Type*} [AddCommMonoid N]

/-- Replacing one element of a list moves the total by that element alone. -/
theorem sum_map_set (f : α → N) {l : List α} {i : ℕ} {a : α} (h : l[i]? = some a) (b : α) :
    ((l.set i b).map f).sum + f a = (l.map f).sum + f b := by
  induction l generalizing i with
  | nil => simp at h
  | cons x l ih =>
    cases i with
    | zero =>
      obtain rfl : x = a := by simpa using h
      simp only [List.set_cons_zero, List.map_cons, List.sum_cons]
      ac_rfl
    | succ i =>
      have hi := ih (i := i) (by simpa using h)
      simp only [List.set_cons_succ, List.map_cons, List.sum_cons]
      rw [add_assoc, hi, add_assoc]

theorem sum_map_concat (f : α → N) (l : List α) (b : α) :
    ((l ++ [b]).map f).sum = (l.map f).sum + f b := by
  simp

end Totals

end Ledger
