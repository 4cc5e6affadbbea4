import Mathlib.Data.List.Pairwise
import Mathlib.Order.Lattice

/-!
# Maps in the order of their keys

A map whose entries are kept in the order of their keys, as a B-tree keeps them:
what an insertion changes, and that such a map is known by what is found in it.

* `lookup_insert`: an insertion changes what is found under its key.
* `eq_of_lookup_eq`: two maps in which the same is found are the same.
-/

namespace SortedMaps

variable {κ β : Type} [LinearOrder κ]

/-- The entries with `v` under `k`. -/
def insert (entries : List (κ × β)) (k : κ) (v : β) : List (κ × β) :=
  match entries with
  | [] => [(k, v)]
  | p :: rest =>
    if k < p.1 then (k, v) :: p :: rest
    else if p.1 = k then (k, v) :: rest
    else p :: insert rest k v

/-- The keys ascend. -/
def Sorted (entries : List (κ × β)) : Prop := entries.Pairwise fun p q => p.1 < q.1

theorem mem_insert {entries : List (κ × β)} {k : κ} {v : β} {p : κ × β}
    (h : p ∈ insert entries k v) : p = (k, v) ∨ p ∈ entries := by
  induction entries with
  | nil => exact .inl (List.mem_singleton.mp h)
  | cons q entries ih =>
    unfold insert at h
    split_ifs at h with hlt heq
    · exact List.mem_cons.mp h
    · exact (List.mem_cons.mp h).imp_right (List.mem_cons_of_mem q)
    · rcases List.mem_cons.mp h with rfl | h
      · exact .inr List.mem_cons_self
      · exact (ih h).imp_right (List.mem_cons_of_mem q)

/-- **An insertion keeps the order.** -/
theorem sorted_insert {entries : List (κ × β)} (h : Sorted entries) (k : κ) (v : β) :
    Sorted (insert entries k v) := by
  induction entries with
  | nil => exact List.pairwise_singleton _ _
  | cons q entries ih =>
    obtain ⟨hq, hentries⟩ := List.pairwise_cons.mp h
    unfold insert
    split_ifs with hlt heq
    · refine List.pairwise_cons.mpr ⟨fun p hp => ?_, h⟩
      rcases List.mem_cons.mp hp with rfl | hp
      · exact hlt
      · exact lt_trans hlt (hq p hp)
    · exact List.pairwise_cons.mpr ⟨fun p hp => heq ▸ hq p hp, hentries⟩
    · refine List.pairwise_cons.mpr ⟨fun p hp => ?_, ih hentries⟩
      rcases mem_insert hp with rfl | hp
      · exact lt_of_le_of_ne (not_lt.mp hlt) heq
      · exact hq p hp

/-- A new key stands beside the others. -/
theorem insert_perm {entries : List (κ × β)} {k : κ} (h : k ∉ entries.map Prod.fst) (v : β) :
    (insert entries k v).Perm ((k, v) :: entries) := by
  induction entries with
  | nil => exact .refl _
  | cons q entries ih =>
    rw [List.map_cons, List.mem_cons, not_or] at h
    unfold insert
    split_ifs with hlt heq
    · exact .refl _
    · exact absurd heq.symm h.1
    · exact ((ih h.2).cons q).trans (.swap (k, v) q entries)

section Lookup

variable [BEq κ] [LawfulBEq κ]

theorem lookup_cons (p : κ × β) (entries : List (κ × β)) (k : κ) :
    (p :: entries).lookup k = if k = p.1 then some p.2 else entries.lookup k := by
  obtain ⟨key, value⟩ := p
  rw [List.lookup_cons]
  by_cases hk : k = key
  · simp [hk]
  · simp [hk, beq_eq_false_iff_ne.mpr hk]

/-- **What is found** after an insertion. -/
theorem lookup_insert (entries : List (κ × β)) (k k' : κ) (v : β) :
    (insert entries k v).lookup k' = if k' = k then some v else entries.lookup k' := by
  induction entries with
  | nil => exact lookup_cons (k, v) [] k'
  | cons q entries ih =>
    rw [insert]
    by_cases hlt : k < q.1
    · rw [if_pos hlt, lookup_cons]
    · rw [if_neg hlt]
      by_cases heq : q.1 = k
      · rw [if_pos heq, lookup_cons, lookup_cons, heq]
        by_cases hk : k' = k
        · simp [hk]
        · simp [hk]
      · rw [if_neg heq, lookup_cons, lookup_cons, ih]
        by_cases hk : k' = k
        · rw [if_pos hk, if_pos hk, if_neg fun h => heq (h.symm.trans hk)]
        · rw [if_neg hk, if_neg hk]

theorem lookup_eq_none_of_lt {entries : List (κ × β)} {k : κ} (h : ∀ p ∈ entries, k < p.1) :
    entries.lookup k = none := by
  rw [List.lookup_eq_none_iff]
  intro p hp
  exact bne_iff_ne.mpr (ne_of_lt (h p hp))

/-- The first key is the least in which something is found. -/
theorem head_le {p q : κ × β} {entries entries' : List (κ × β)} (h : Sorted (p :: entries))
    (hlookup : (p :: entries).lookup q.1 = (q :: entries').lookup q.1) : p.1 ≤ q.1 := by
  by_contra hlt
  rw [not_le] at hlt
  have hnone : (p :: entries).lookup q.1 = none := lookup_eq_none_of_lt
    (List.forall_mem_cons.mpr ⟨hlt, fun r hr => lt_trans hlt ((List.pairwise_cons.mp h).1 r hr)⟩)
  rw [hnone, lookup_cons, if_pos rfl] at hlookup
  cases hlookup

/-- **A map is known by what is found in it.** -/
theorem eq_of_lookup_eq {entries entries' : List (κ × β)} (h : Sorted entries)
    (h' : Sorted entries') (hlookup : ∀ k, entries.lookup k = entries'.lookup k) :
    entries = entries' := by
  induction entries generalizing entries' with
  | nil =>
    cases entries' with
    | nil => rfl
    | cons q entries' => simpa [lookup_cons] using hlookup q.1
  | cons p entries ih =>
    cases entries' with
    | nil => simpa [lookup_cons] using hlookup p.1
    | cons q entries' =>
      obtain ⟨hp, hentries⟩ := List.pairwise_cons.mp h
      obtain ⟨hq, hentries'⟩ := List.pairwise_cons.mp h'
      have hkeys : p.1 = q.1 := le_antisymm (head_le h (hlookup q.1))
        (head_le h' (hlookup p.1).symm)
      have hvalues : p.2 = q.2 := by
        have hfound := hlookup p.1
        rw [lookup_cons, lookup_cons, if_pos rfl, if_pos hkeys] at hfound
        exact Option.some.inj hfound
      refine congrArg₂ List.cons (Prod.ext hkeys hvalues) (ih hentries hentries' fun k => ?_)
      -- the first key is found in neither rest
      by_cases hk : k = p.1
      · subst hk
        rw [lookup_eq_none_of_lt hp, lookup_eq_none_of_lt (hkeys ▸ hq)]
      · have hfound := hlookup k
        rwa [lookup_cons, lookup_cons, if_neg hk, if_neg fun h => hk (h.trans hkeys.symm)]
          at hfound

end Lookup

end SortedMaps
