import Mathlib.Data.List.Induction
import Mathlib.Data.List.Sort

/-!
# Listings

Items that come in groups are listed one group after another, each item at its
first place.  The groups are taken in the order of a key, and groups with one
key in any order.

* `appendNew_comm`: two groups may change places where one lists the first
  items of the other.
* `listing_of_nested`: where that holds of all groups with one key, the order
  is determined by the key.
* `listing_eq_iff`: the converse, too.
* `Sorting.pairwise_mergeSort`: sorting by a key, where items may have one key.
-/

namespace Sorting

variable {α β : Type} [LinearOrder β]

theorem pairwise_mergeSort (key : α → β) (l : List α) :
    (l.mergeSort fun a b => decide (key a ≤ key b)).Pairwise fun a b => key a ≤ key b := by
  have htrans : ∀ a b c : α, decide (key a ≤ key b) = true → decide (key b ≤ key c) = true →
      decide (key a ≤ key c) = true := by
    intro a b c hab hbc
    exact decide_eq_true ((of_decide_eq_true hab).trans (of_decide_eq_true hbc))
  have htotal : ∀ a b : α, (decide (key a ≤ key b) || decide (key b ≤ key a)) = true := by
    intro a b
    rcases le_total (key a) (key b) with h | h <;> simp [h]
  exact (List.pairwise_mergeSort htrans htotal l).imp fun h => of_decide_eq_true h

/-- A list in order is left as it is. -/
theorem mergeSort_of_pairwise {key : α → β} {l : List α}
    (h : l.Pairwise fun a b => key a ≤ key b) :
    (l.mergeSort fun a b => decide (key a ≤ key b)) = l :=
  List.mergeSort_of_pairwise (h.imp fun hle => decide_eq_true hle)

end Sorting

namespace Listings

section Append

variable {α : Type} [DecidableEq α]

/-- The items that are not listed yet are added. -/
def appendNew (seen items : List α) : List α :=
  items.foldl (fun seen x => if x ∈ seen then seen else seen ++ [x]) seen

/-- The items that are added, in the order in which they come. -/
def fresh (seen items : List α) : List α :=
  (appendNew [] items).filter fun x => decide (x ∉ seen)

theorem appendNew_append (seen xs ys : List α) :
    appendNew seen (xs ++ ys) = appendNew (appendNew seen xs) ys :=
  List.foldl_append

theorem appendNew_concat (seen xs : List α) (x : α) :
    appendNew seen (xs ++ [x]) =
      if x ∈ appendNew seen xs then appendNew seen xs else appendNew seen xs ++ [x] :=
  appendNew_append seen xs [x]

@[simp] theorem mem_appendNew {seen xs : List α} {x : α} :
    x ∈ appendNew seen xs ↔ x ∈ seen ∨ x ∈ xs := by
  induction xs using List.reverseRecOn with
  | nil => simp [appendNew]
  | append_singleton xs y ih =>
    rw [appendNew_concat]
    split
    · rename_i hy
      rw [ih, List.mem_append, List.mem_singleton]
      constructor
      · rintro (hseen | hxs)
        · exact .inl hseen
        · exact .inr (.inl hxs)
      · rintro (hseen | hxs | rfl)
        · exact .inl hseen
        · exact .inr hxs
        · exact ih.mp hy
    · simp [ih, or_assoc]

theorem nodup_appendNew {seen : List α} (h : seen.Nodup) (xs : List α) :
    (appendNew seen xs).Nodup := by
  induction xs using List.reverseRecOn with
  | nil => exact h
  | append_singleton xs y ih =>
    rw [appendNew_concat]
    split
    · exact ih
    · rename_i hy
      rw [List.nodup_append]
      refine ⟨ih, List.nodup_singleton y, fun a ha b hb => ?_⟩
      rw [List.mem_singleton.mp hb]
      rintro rfl
      exact hy ha

theorem nodup_fresh (seen xs : List α) : (fresh seen xs).Nodup :=
  (nodup_appendNew List.nodup_nil xs).filter _

theorem appendNew_eq (seen xs : List α) : appendNew seen xs = seen ++ fresh seen xs := by
  induction xs using List.reverseRecOn with
  | nil => simp [appendNew, fresh]
  | append_singleton xs y ih =>
    have hlisted : y ∈ appendNew [] xs ↔ y ∈ xs := by simp
    unfold fresh at ih ⊢
    rw [appendNew_concat, appendNew_concat]
    simp only [mem_appendNew, hlisted]
    by_cases hseen : y ∈ seen
    · by_cases hxs : y ∈ xs <;> simp [hseen, hxs, ih]
    · by_cases hxs : y ∈ xs <;> simp [hseen, hxs, ih]

theorem appendNew_of_subset {seen xs : List α} (h : ∀ x ∈ xs, x ∈ seen) :
    appendNew seen xs = seen := by
  rw [appendNew_eq, fresh]
  have hnone : (appendNew [] xs).filter (fun x => decide (x ∉ seen)) = [] := by
    rw [List.filter_eq_nil_iff]
    intro x hx
    have hseen : x ∈ seen := h x (by simpa using hx)
    simpa using hseen
  rw [hnone, List.append_nil]

/-- The items of more groups are left out. -/
theorem fresh_eq_filter {seen seen' more : List α} (xs : List α)
    (h : ∀ x, x ∈ seen' ↔ x ∈ seen ∨ x ∈ more) :
    fresh seen' xs = (fresh seen xs).filter fun x => decide (x ∉ more) := by
  unfold fresh
  rw [List.filter_filter]
  apply List.filter_congr
  intro x _
  by_cases hseen : x ∈ seen
  · simp [h, hseen]
  · simp [h, hseen]

theorem fresh_congr {seen seen' : List α} (xs : List α) (h : ∀ x, x ∈ seen' ↔ x ∈ seen) :
    fresh seen' xs = fresh seen xs := by
  unfold fresh
  apply List.filter_congr
  intro x _
  simp [h]

/-! ## Two groups -/

/-- One list is the beginning of the other. -/
def Comparable (xs ys : List α) : Prop := xs <+: ys ∨ ys <+: xs

omit [DecidableEq α] in
theorem Comparable.symm {xs ys : List α} (h : Comparable xs ys) : Comparable ys xs := Or.symm h

omit [DecidableEq α] in
theorem Comparable.filter {xs ys : List α} (h : Comparable xs ys) (p : α → Bool) :
    Comparable (xs.filter p) (ys.filter p) :=
  h.imp (fun hxy => hxy.filter p) fun hyx => hyx.filter p

/-- Behind a group that lists the first items of the next one, only that one
counts. -/
theorem appendNew_of_initial {seen xs ys : List α} (h : fresh seen xs <+: fresh seen ys) :
    appendNew (appendNew seen xs) ys = appendNew seen ys ∧
      appendNew (appendNew seen ys) xs = appendNew seen ys := by
  have hsplit : ∀ zs, appendNew (appendNew seen xs) zs =
      seen ++ (fresh seen xs ++ (fresh seen zs).filter fun x => decide (x ∉ xs)) := by
    intro zs
    rw [appendNew_eq _ zs, fresh_eq_filter zs fun x => mem_appendNew, appendNew_eq seen xs,
      List.append_assoc]
  obtain ⟨rest, hrest⟩ := h
  constructor
  · have hnodup := nodup_fresh seen ys
    rw [← hrest, List.nodup_append] at hnodup
    have hxs : (fresh seen xs).filter (fun x => decide (x ∉ xs)) = [] := by
      rw [List.filter_eq_nil_iff]
      intro x hx
      have hmem : x ∈ xs := by simpa using (List.mem_filter.mp hx).1
      simpa using hmem
    have hnew : rest.filter (fun x => decide (x ∉ xs)) = rest := by
      rw [List.filter_eq_self]
      intro x hx
      have hunseen : x ∉ seen := by
        have hx' : x ∈ fresh seen ys := by
          rw [← hrest]
          exact List.mem_append_right _ hx
        simpa using (List.mem_filter.mp hx').2
      have hnotmem : x ∉ xs := by
        intro hxs
        have hfresh : x ∈ fresh seen xs :=
          List.mem_filter.mpr ⟨by simpa using hxs, by simpa using hunseen⟩
        exact hnodup.2.2 x hfresh x hx rfl
      simpa using hnotmem
    rw [hsplit, appendNew_eq seen ys, ← hrest, List.filter_append, hxs, hnew, List.nil_append]
  · rw [appendNew_of_subset]
    intro x hx
    by_cases hseen : x ∈ seen
    · exact mem_appendNew.mpr (.inl hseen)
    · have hfresh : x ∈ fresh seen xs :=
        List.mem_filter.mpr ⟨by simpa using hx, by simpa using hseen⟩
      rw [appendNew_eq, ← hrest]
      exact List.mem_append_right _ (List.mem_append_left _ hfresh)

/-- **Two groups change places.** -/
theorem appendNew_comm {seen xs ys : List α} (h : Comparable (fresh seen xs) (fresh seen ys)) :
    appendNew (appendNew seen xs) ys = appendNew (appendNew seen ys) xs := by
  rcases h with hxy | hyx
  · rw [(appendNew_of_initial hxy).1, (appendNew_of_initial hxy).2]
  · rw [(appendNew_of_initial hyx).1, (appendNew_of_initial hyx).2]

end Append

/-! ## Groups in the order of a key -/

section Groups

variable {ρ α β : Type} [DecidableEq α] [LinearOrder β] (items : ρ → List α) (key : ρ → β)

def listing (roots : List ρ) : List α := appendNew [] (roots.flatMap items)

/-- The items of the groups with a smaller key. -/
def earlier (roots : List ρ) (k : β) : List α :=
  (roots.filter fun r => decide (key r < k)).flatMap items

/-- Of two groups with one key, and without the items of smaller keys, one lists
the first items of the other. -/
def NestedFrom (seen : List α) (roots : List ρ) : Prop :=
  ∀ a ∈ roots, ∀ b ∈ roots, key a = key b →
    Comparable (fresh (seen ++ earlier items key roots (key a)) (items a))
      (fresh (seen ++ earlier items key roots (key a)) (items b))

def Nested (roots : List ρ) : Prop := NestedFrom items key [] roots

abbrev SortedBy (roots : List ρ) : Prop := roots.Pairwise fun a b => key a ≤ key b

variable {items key}

omit [DecidableEq α] in
theorem earlier_eq_nil {roots : List ρ} {k : β} (h : ∀ r ∈ roots, k ≤ key r) :
    earlier items key roots k = [] := by
  have hnone : roots.filter (fun r => decide (key r < k)) = [] := by
    rw [List.filter_eq_nil_iff]
    intro r hr
    simpa using h r hr
  rw [earlier, hnone, List.flatMap_nil]

theorem appendNew_cons (seen : List α) (a : ρ) (roots : List ρ) :
    appendNew seen ((a :: roots).flatMap items) =
      appendNew (appendNew seen (items a)) (roots.flatMap items) := by
  rw [List.flatMap_cons, appendNew_append]

/-- A group is moved to the front. -/
theorem appendNew_move {seen : List α} {a : ρ} {front : List ρ} (back : List ρ)
    (h : ∀ c ∈ front, Comparable (fresh seen (items c)) (fresh seen (items a))) :
    appendNew seen ((front ++ a :: back).flatMap items) =
      appendNew seen ((a :: (front ++ back)).flatMap items) := by
  induction front generalizing seen with
  | nil => rfl
  | cons c front ih =>
    have hrest : ∀ d ∈ front, Comparable (fresh (appendNew seen (items c)) (items d))
        (fresh (appendNew seen (items c)) (items a)) := by
      intro d hd
      rw [fresh_eq_filter _ fun x => mem_appendNew, fresh_eq_filter _ fun x => mem_appendNew]
      exact (h d (List.mem_cons_of_mem c hd)).filter _
    rw [List.cons_append, appendNew_cons, ih hrest, appendNew_cons, appendNew_cons,
      List.cons_append, appendNew_cons, appendNew_comm (h c (List.mem_cons_self ..))]

/-- The first group is used up. -/
theorem NestedFrom.tail {seen : List α} {a : ρ} {roots : List ρ}
    (hsorted : SortedBy key (a :: roots)) (h : NestedFrom items key seen (a :: roots)) :
    NestedFrom items key (appendNew seen (items a)) roots := by
  intro b hb c hc hkey
  have hle : key a ≤ key b := List.rel_of_pairwise_cons hsorted hb
  have hmem : ∀ x, x ∈ appendNew seen (items a) ++ earlier items key roots (key b) ↔
      x ∈ seen ++ earlier items key (a :: roots) (key b) ∨ x ∈ items a := by
    intro x
    unfold earlier
    rcases lt_or_eq_of_le hle with hlt | heq
    · by_cases hx : x ∈ items a <;> simp [hlt, hx]
    · by_cases hx : x ∈ items a <;> simp [heq, hx]
  rw [fresh_eq_filter _ hmem, fresh_eq_filter _ hmem]
  exact (h b (List.mem_cons_of_mem a hb) c (List.mem_cons_of_mem a hc) hkey).filter _

/-- **The key determines the listing** of nested groups. -/
theorem appendNew_of_nested {roots roots' : List ρ} {seen : List α} (hperm : roots.Perm roots')
    (hsorted : SortedBy key roots) (hsorted' : SortedBy key roots')
    (hnested : NestedFrom items key seen roots) :
    appendNew seen (roots.flatMap items) = appendNew seen (roots'.flatMap items) := by
  induction roots generalizing seen roots' with
  | nil => rw [List.nil_perm.mp hperm]
  | cons a roots ih =>
    obtain ⟨front, back, rfl⟩ := List.append_of_mem (hperm.subset (List.mem_cons_self ..))
    have hrest : roots.Perm (front ++ back) :=
      List.Perm.cons_inv (hperm.trans List.perm_middle)
    have hfront : ∀ c ∈ front, key c = key a := by
      intro c hc
      have hmem : c ∈ roots := hrest.symm.subset (List.mem_append_left back hc)
      exact le_antisymm ((List.pairwise_append.mp hsorted').2.2 c hc a (List.mem_cons_self ..))
        (List.rel_of_pairwise_cons hsorted hmem)
    have hnone : earlier items key (a :: roots) (key a) = [] := by
      apply earlier_eq_nil
      intro c hc
      rcases List.mem_cons.mp hc with rfl | hc
      · exact le_rfl
      · exact List.rel_of_pairwise_cons hsorted hc
    have hcomparable : ∀ c ∈ front, Comparable (fresh seen (items c)) (fresh seen (items a)) := by
      intro c hc
      have hmem : c ∈ a :: roots :=
        List.mem_cons_of_mem a (hrest.symm.subset (List.mem_append_left back hc))
      have h := hnested c hmem a (List.mem_cons_self ..) (hfront c hc)
      rwa [hfront c hc, hnone, List.append_nil] at h
    have hsorted'' : SortedBy key (front ++ back) :=
      hsorted'.sublist (List.Sublist.append_left (List.sublist_cons_self a back) front)
    rw [appendNew_move back hcomparable, appendNew_cons, appendNew_cons]
    exact ih hrest hsorted.tail hsorted'' (hnested.tail hsorted)

/-- The groups with a smaller key, in order. -/
def smaller (key : ρ → β) (roots : List ρ) (k : β) : List ρ :=
  (roots.mergeSort fun a b => decide (key a ≤ key b)).filter fun r => decide (key r < k)

variable (key) in
/-- Any group comes first among those with its key in some arrangement. -/
theorem exists_arrangement {roots : List ρ} {a : ρ} (ha : a ∈ roots) :
    ∃ back, (smaller key roots (key a) ++ a :: back).Perm roots ∧
      SortedBy key (smaller key roots (key a) ++ a :: back) := by
  have hperm : (roots.mergeSort fun a b => decide (key a ≤ key b)).Perm roots :=
    List.mergeSort_perm _ _
  have hsorted := Sorting.pairwise_mergeSort key roots
  unfold smaller
  generalize (roots.mergeSort fun a b => decide (key a ≤ key b)) = sorted at hperm hsorted
  obtain ⟨front, rest, rfl⟩ := List.append_of_mem (hperm.symm.subset ha)
  have hothers : SortedBy key (front ++ rest) :=
    hsorted.sublist (List.Sublist.append_left (List.sublist_cons_self a rest) front)
  have hsmaller : (front ++ a :: rest).filter (fun r => decide (key r < key a)) =
      (front ++ rest).filter fun r => decide (key r < key a) := by
    simp
  refine ⟨(front ++ rest).filter fun r => !decide (key r < key a), ?_, ?_⟩
  · rw [hsmaller]
    have hsplit := List.filter_append_perm (fun r => decide (key r < key a)) (front ++ rest)
    exact List.perm_middle.trans ((hsplit.cons a).trans (List.perm_middle.symm.trans hperm))
  · rw [hsmaller]
    refine List.pairwise_append.mpr ⟨hothers.filter _, List.pairwise_cons.mpr ⟨?_,
      hothers.filter _⟩, ?_⟩
    · intro b hb
      simpa using (List.mem_filter.mp hb).2
    · intro b hb c hc
      have hlt : key b < key a := by simpa using (List.mem_filter.mp hb).2
      rcases List.mem_cons.mp hc with rfl | hc
      · exact hlt.le
      · have hle : key a ≤ key c := by simpa using (List.mem_filter.mp hc).2
        exact hlt.le.trans hle

/-- **Groups are nested** if the key determines the listing: each of two with
one key may come first among those. -/
theorem nested_of_listing {roots : List ρ}
    (h : ∀ r r', r.Perm roots → r'.Perm roots → SortedBy key r → SortedBy key r' →
      listing items r = listing items r') : Nested items key roots := by
  intro a ha b hb hkey
  obtain ⟨back, hperm, hsorted⟩ := exists_arrangement key ha
  obtain ⟨back', hperm', hsorted'⟩ := exists_arrangement key hb
  have hsame := h _ _ hperm hperm' hsorted hsorted'
  rw [← hkey] at hsame
  have hseen : ∀ x, x ∈ appendNew [] ((smaller key roots (key a)).flatMap items) ↔
      x ∈ [] ++ earlier items key roots (key a) := by
    intro x
    simp [smaller, earlier]
  have hinitial : ∀ c back, appendNew [] ((smaller key roots (key a)).flatMap items) ++
      fresh ([] ++ earlier items key roots (key a)) (items c) <+:
        listing items (smaller key roots (key a) ++ c :: back) := by
    intro c back
    rw [listing, List.flatMap_append, appendNew_append, appendNew_cons, appendNew_eq _ (items c),
      fresh_congr (items c) hseen, appendNew_eq _ (back.flatMap items)]
    exact List.prefix_append _ _
  have ha' := hinitial a back
  rw [hsame] at ha'
  rcases List.prefix_or_prefix_of_prefix ha' (hinitial b back') with hab | hba
  · exact .inl ((List.prefix_append_right_inj _).mp hab)
  · exact .inr ((List.prefix_append_right_inj _).mp hba)

theorem Nested.perm {roots roots' : List ρ} (h : Nested items key roots)
    (hperm : roots'.Perm roots) : Nested items key roots' := by
  intro a ha b hb hkey
  have hearlier : ∀ x, x ∈ [] ++ earlier items key roots' (key a) ↔
      x ∈ [] ++ earlier items key roots (key a) := by
    intro x
    simp [earlier, hperm.mem_iff]
  rw [fresh_congr _ hearlier, fresh_congr _ hearlier]
  exact h a (hperm.subset ha) b (hperm.subset hb) hkey

/-- **The key determines the listing** exactly when groups with one key are
nested. -/
theorem listing_eq_iff (roots : List ρ) :
    (∀ r r', r.Perm roots → r'.Perm roots → SortedBy key r → SortedBy key r' →
      listing items r = listing items r') ↔ Nested items key roots := by
  refine ⟨nested_of_listing, fun h r r' hperm hperm' hsorted hsorted' => ?_⟩
  exact appendNew_of_nested (hperm.trans hperm'.symm) hsorted hsorted' (h.perm hperm)

end Groups

end Listings
