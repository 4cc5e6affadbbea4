import Mathlib.Data.List.Nodup

/-!
# Collections with identifiers

A collection hands out an identifier with each item that is added, lists its
items in the order of insertion, and deletes by identifier.  `items_deleteWhere`
and `items_add` say what a reader of the items sees; a list with tombstones is
such a collection.
-/

namespace Collections

/-- The operations and their laws. -/
structure Collection (C Id Item : Type) [DecidableEq Id] where
  iter : C → List (Id × Item)
  add : C → Item → C
  delete : C → Id → C
  nodup : ∀ c, ((iter c).map Prod.fst).Nodup
  iter_add : ∀ c a, ∃ id, iter (add c a) = iter c ++ [(id, a)]
  iter_delete : ∀ c id, iter (delete c id) = (iter c).filter fun p => p.1 ≠ id

namespace Collection

variable {C Id Item : Type} [DecidableEq Id] (coll : Collection C Id Item)

def items (c : C) : List Item := (coll.iter c).map Prod.snd

/-- The identifiers of the items with a property are collected, then deleted one
by one. -/
def deleteWhere (p : Item → Bool) (c : C) : C :=
  ((coll.iter c).filterMap fun x => if p x.2 then some x.1 else none).foldl coll.delete c

theorem items_add (c : C) (a : Item) : coll.items (coll.add c a) = coll.items c ++ [a] := by
  obtain ⟨id, hid⟩ := coll.iter_add c a
  simp [items, hid]

theorem iter_foldl_delete (ids : List Id) (c : C) :
    coll.iter (ids.foldl coll.delete c) = (coll.iter c).filter fun x => x.1 ∉ ids := by
  induction ids generalizing c with
  | nil => simp
  | cons id ids ih =>
    rw [List.foldl_cons, ih, coll.iter_delete, List.filter_filter]
    congr 1
    funext x
    by_cases hid : x.1 = id
    · simp [hid]
    · simp [hid]

/-- Items that share no identifier are deleted one at a time. -/
theorem filter_collected {l : List (Id × Item)} (h : (l.map Prod.fst).Nodup) (p : Item → Bool) :
    (l.filter fun x => x.1 ∉ l.filterMap fun y => if p y.2 then some y.1 else none) =
      l.filter fun x => !p x.2 := by
  apply List.filter_congr
  intro x hx
  have hmem : (x.1 ∈ l.filterMap fun y => if p y.2 then some y.1 else none) ↔ p x.2 := by
    rw [List.mem_filterMap]
    constructor
    · rintro ⟨y, hy, hid⟩
      by_cases hp : p y.2
      · rw [if_pos hp, Option.some.injEq] at hid
        have hsame : y = x := List.inj_on_of_nodup_map h hy hx hid
        rwa [← hsame]
      · rw [if_neg hp] at hid
        cases hid
    · intro hp
      exact ⟨x, hx, if_pos hp⟩
  simp [hmem]

/-- **Deletion** leaves the items without the property, in their order. -/
theorem items_deleteWhere (p : Item → Bool) (c : C) :
    coll.items (coll.deleteWhere p c) = (coll.items c).filter fun a => !p a := by
  rw [items, deleteWhere, iter_foldl_delete, filter_collected (coll.nodup c), items,
    List.filter_map]
  rfl

end Collection

/-! ## Tombstones -/

section Tombstones

variable {Item : Type}

/-- The places of a list that are not deleted, counted from a first place. -/
def live (start : Nat) (slots : List (Option Item)) : List (Nat × Item) :=
  match slots with
  | [] => []
  | none :: slots => live (start + 1) slots
  | some a :: slots => (start, a) :: live (start + 1) slots

theorem le_of_mem_live {slots : List (Option Item)} {start : Nat} {x : Nat × Item}
    (h : x ∈ live start slots) : start ≤ x.1 := by
  induction slots generalizing start with
  | nil => cases h
  | cons slot slots ih =>
    cases slot with
    | none =>
      have hle : start + 1 ≤ x.1 := ih h
      omega
    | some a =>
      rcases List.mem_cons.mp h with rfl | hx
      · exact Nat.le_refl _
      · have hle : start + 1 ≤ x.1 := ih hx
        omega

theorem nodup_live (slots : List (Option Item)) (start : Nat) :
    ((live start slots).map Prod.fst).Nodup := by
  induction slots generalizing start with
  | nil => exact List.nodup_nil
  | cons slot slots ih =>
    cases slot with
    | none => exact ih (start + 1)
    | some a =>
      refine List.nodup_cons.mpr ⟨?_, ih (start + 1)⟩
      intro hmem
      obtain ⟨x, hx, hfst⟩ := List.mem_map.mp hmem
      have hle : start + 1 ≤ x.1 := le_of_mem_live hx
      have heq : x.1 = start := hfst
      omega

theorem live_concat (slots : List (Option Item)) (start : Nat) (a : Item) :
    live start (slots ++ [some a]) = live start slots ++ [(start + slots.length, a)] := by
  induction slots generalizing start with
  | nil => simp [live]
  | cons slot slots ih =>
    have hlen : start + (slots.length + 1) = start + 1 + slots.length := by omega
    cases slot with
    | none => simp [live, ih, hlen]
    | some b => simp [live, ih, hlen]

/-- A deleted place is passed over. -/
theorem live_set (slots : List (Option Item)) (start id : Nat) :
    live start (slots.set id none) =
      (live start slots).filter fun x => x.1 ≠ start + id := by
  induction slots generalizing start id with
  | nil => rfl
  | cons slot slots ih =>
    cases id with
    | zero =>
      have hkeep : (live (start + 1) slots).filter (fun x => x.1 ≠ start) =
          live (start + 1) slots := by
        apply List.filter_eq_self.mpr
        intro x hx
        have hle : start + 1 ≤ x.1 := le_of_mem_live hx
        have hne : x.1 ≠ start := by omega
        simpa using hne
      cases slot with
      | none => simpa [live] using hkeep.symm
      | some a => simpa [live] using hkeep.symm
    | succ id =>
      have hnext : start + 1 + id = start + (id + 1) := by omega
      have htail := ih (start + 1) id
      rw [hnext] at htail
      cases slot with
      | none => simpa [live] using htail
      | some a => simpa [live] using htail

/-- A list whose deleted places stay empty. -/
def tombstones : Collection (List (Option Item)) Nat Item where
  iter := live 0
  add slots a := slots ++ [some a]
  delete slots id := slots.set id none
  nodup slots := nodup_live slots 0
  iter_add slots a := ⟨0 + slots.length, live_concat slots 0 a⟩
  iter_delete slots id := by
    have hset := live_set slots 0 id
    rwa [Nat.zero_add] at hset

end Tombstones

end Collections
