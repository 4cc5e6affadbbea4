import Marine.Lib.Fallible
import Mathlib.Data.List.AList
import Mathlib.Data.List.Induction

/-!
# Registries in which nothing is defined twice

A `Registry` takes a definition unless there is one already with its key.  `define`
fails with the key then; `defineAll` adds definitions one after another.

* `isOk_defineAll_iff`: when a list of definitions is accepted.
* `lookup_defineAll`: what the registry holds then.
* `defineAll_error`, `two_le_count_of_defineAll_error`: the key of a failure is one
  defined twice.
* `defineAll_perm`: the order of the definitions does not matter, but for the key of
  a failure.
-/

namespace Registration

/-- **Registries**, with what adding a definition does to them. -/
class Registry (τ : Type) (κ β : outParam Type) where
  empty : τ
  lookup : τ → κ → Option β
  lookup_empty (k : κ) : lookup empty k = none
  add : τ → κ → β → Option τ
  add_isSome (t : τ) (k : κ) (v : β) : (add t k v).isSome ↔ lookup t k = none
  lookup_add_self {t t' : τ} {k : κ} {v : β} (h : add t k v = some t') : lookup t' k = some v
  lookup_add_ne {t t' : τ} {k k' : κ} {v : β} (h : add t k v = some t') (hne : k' ≠ k) :
    lookup t' k' = lookup t k'

open Registry (lookup)

variable {τ κ β : Type} [Registry τ κ β]

def define (t : τ) (p : κ × β) : Except κ τ :=
  match Registry.add t p.1 p.2 with
  | some t' => .ok t'
  | none => .error p.1

def defineAll (t : τ) (l : List (κ × β)) : Except κ τ := l.foldlM define t

variable {t t' : τ} {p : κ × β} {l l' : List (κ × β)}

theorem define_eq_ok_iff : define t p = .ok t' ↔ Registry.add t p.1 p.2 = some t' := by
  unfold define
  cases Registry.add t p.1 p.2 <;> simp

theorem lookup_of_define_ok (h : define t p = .ok t') : lookup t p.1 = none :=
  (Registry.add_isSome t p.1 p.2).mp (Option.isSome_of_eq_some (define_eq_ok_iff.mp h))

theorem define_of_free (h : lookup t p.1 = none) : ∃ t', define t p = .ok t' := by
  obtain ⟨t', ht'⟩ := Option.isSome_iff_exists.mp ((Registry.add_isSome t p.1 p.2).mpr h)
  exact ⟨t', define_eq_ok_iff.mpr ht'⟩

theorem define_of_taken (h : lookup t p.1 ≠ none) : define t p = .error p.1 := by
  unfold define
  cases hadd : Registry.add t p.1 p.2 with
  | none => rfl
  | some t' => exact absurd ((Registry.add_isSome t p.1 p.2).mp (by rw [hadd]; rfl)) h

theorem define_eq_error_iff {k : κ} :
    define t p = .error k ↔ lookup t p.1 ≠ none ∧ k = p.1 := by
  by_cases h : lookup t p.1 = none
  · obtain ⟨t', ht'⟩ := define_of_free h
    simp [ht', h]
  · rw [define_of_taken h]
    simp [h, eq_comm]

/-- What is found after a definition. -/
theorem lookup_define_self (h : define t p = .ok t') : lookup t' p.1 = some p.2 :=
  Registry.lookup_add_self (define_eq_ok_iff.mp h)

theorem lookup_define_ne (h : define t p = .ok t') {k : κ} (hne : k ≠ p.1) :
    lookup t' k = lookup t k :=
  Registry.lookup_add_ne (define_eq_ok_iff.mp h) hne

theorem lookup_define_eq_none_iff (h : define t p = .ok t') {k : κ} :
    lookup t' k = none ↔ k ≠ p.1 ∧ lookup t k = none := by
  by_cases hk : k = p.1
  · subst hk
    simp [lookup_define_self h]
  · simp [lookup_define_ne h hk, hk]

@[simp] theorem defineAll_nil : defineAll t [] = .ok t := rfl

theorem defineAll_cons :
    defineAll t (p :: l) = define t p >>= fun t' => defineAll t' l := by
  rw [defineAll, List.foldlM_cons]
  rfl

theorem defineAll_append :
    defineAll t (l ++ l') = defineAll t l >>= fun t' => defineAll t' l' := by
  rw [defineAll, List.foldlM_append]
  rfl

/-- **What is accepted**: keys that are new and distinct. -/
theorem isOk_defineAll_iff : (∃ t', defineAll t l = .ok t') ↔
    (l.map Prod.fst).Nodup ∧ ∀ p ∈ l, lookup t p.1 = none := by
  induction l generalizing t with
  | nil => simp
  | cons p l ih =>
    rw [defineAll_cons]
    simp only [Fallible.bind_eq_ok_iff, List.map_cons, List.nodup_cons, List.forall_mem_cons]
    constructor
    · rintro ⟨t', next, hdefine, hrest⟩
      obtain ⟨hnodup, hfresh⟩ := ih.mp ⟨t', hrest⟩
      simp only [lookup_define_eq_none_iff hdefine] at hfresh
      refine ⟨⟨fun hmem => ?_, hnodup⟩, lookup_of_define_ok hdefine,
        fun q hq => (hfresh q hq).2⟩
      obtain ⟨q, hq, hkey⟩ := List.mem_map.mp hmem
      exact (hfresh q hq).1 hkey
    · rintro ⟨⟨hdistinct, hnodup⟩, hnew, hfresh⟩
      obtain ⟨next, hdefine⟩ := define_of_free hnew
      have hfresh' : ∀ q ∈ l, lookup next q.1 = none := by
        intro q hq
        refine (lookup_define_eq_none_iff hdefine).mpr ⟨fun hkey => ?_, hfresh q hq⟩
        exact hdistinct (List.mem_map.mpr ⟨q, hq, hkey⟩)
      obtain ⟨t', hrest⟩ := ih.mpr ⟨hnodup, hfresh'⟩
      exact ⟨t', next, hdefine, hrest⟩

/-- **What the registry holds.** -/
theorem lookup_defineAll (h : defineAll t l = .ok t') {k : κ} {v : β} :
    lookup t' k = some v ↔ lookup t k = some v ∨ (k, v) ∈ l := by
  induction l generalizing t with
  | nil =>
    cases h
    simp
  | cons p l ih =>
    rw [defineAll_cons] at h
    obtain ⟨next, hdefine, hrest⟩ := Fallible.bind_eq_ok_iff.mp h
    rw [ih hrest, List.mem_cons]
    by_cases hk : k = p.1
    · subst hk
      rw [lookup_define_self hdefine, lookup_of_define_ok hdefine, Option.some.injEq]
      simp [Prod.ext_iff, eq_comm]
    · rw [lookup_define_ne hdefine hk]
      simp [Prod.ext_iff, hk]

theorem isOk_defineAll_empty_iff :
    (∃ t', defineAll (Registry.empty : τ) l = .ok t') ↔ (l.map Prod.fst).Nodup := by
  rw [isOk_defineAll_iff]
  exact and_iff_left fun p _ => Registry.lookup_empty p.1

theorem lookup_defineAll_empty (h : defineAll Registry.empty l = .ok t') {k : κ} {v : β} :
    lookup t' k = some v ↔ (k, v) ∈ l := by
  rw [lookup_defineAll h, Registry.lookup_empty]
  simp

/-- **What a failure names**: a key that was in the registry or is defined again. -/
theorem defineAll_error {k : κ} (h : defineAll t l = .error k) :
    ∃ l₁ v l₂, l = l₁ ++ (k, v) :: l₂ ∧ (lookup t k ≠ none ∨ k ∈ l₁.map Prod.fst) := by
  induction l generalizing t with
  | nil => cases h
  | cons p l ih =>
    rw [defineAll_cons] at h
    cases hdefine : define t p with
    | error e =>
      rw [hdefine] at h
      cases h
      obtain ⟨hmem, rfl⟩ := define_eq_error_iff.mp hdefine
      exact ⟨[], p.2, l, rfl, .inl hmem⟩
    | ok next =>
      rw [hdefine] at h
      obtain ⟨l₁, v, l₂, rfl, hmem⟩ := ih h
      refine ⟨p :: l₁, v, l₂, rfl, ?_⟩
      rw [ne_eq, lookup_define_eq_none_iff hdefine] at hmem
      rw [List.map_cons, List.mem_cons]
      tauto

/-- A key that a failure names was in the registry, or is defined twice. -/
theorem two_le_count_of_defineAll_error [BEq κ] [LawfulBEq κ] {k : κ}
    (h : defineAll t l = .error k) (hfree : lookup t k = none) :
    2 ≤ (l.map Prod.fst).count k := by
  obtain ⟨l₁, v, l₂, rfl, hmem⟩ := defineAll_error h
  have hbefore : 0 < (l₁.map Prod.fst).count k :=
    List.count_pos_iff.mpr (hmem.resolve_left fun htaken => htaken hfree)
  rw [List.map_append, List.map_cons, List.count_append, List.count_cons_self]
  omega

/-- **The order does not matter** to whether definitions are accepted and to what the
registry holds then. -/
theorem defineAll_perm (hperm : l.Perm l') :
    ((∃ t', defineAll t l = .ok t') ↔ ∃ t', defineAll t l' = .ok t') ∧
      ∀ s s', defineAll t l = .ok s → defineAll t l' = .ok s' → ∀ k, lookup s k = lookup s' k := by
  refine ⟨?_, fun s s' hs hs' k => ?_⟩
  · rw [isOk_defineAll_iff, isOk_defineAll_iff, (hperm.map Prod.fst).nodup_iff]
    simp only [hperm.mem_iff]
  · ext v
    rw [lookup_defineAll hs, lookup_defineAll hs', hperm.mem_iff]

/-- The association lists are a registry. -/
instance {κ β : Type} [DecidableEq κ] : Registry (AList fun _ : κ => β) κ β where
  empty := ∅
  lookup table k := table.lookup k
  lookup_empty := AList.lookup_empty
  add table k v := if k ∈ table then none else some (table.insert k v)
  add_isSome table k v := by
    rw [AList.lookup_eq_none]
    split <;> simp_all
  lookup_add_self h := by
    rw [Option.ite_none_left_eq_some] at h
    obtain ⟨-, ⟨⟩⟩ := h
    exact AList.lookup_insert _
  lookup_add_ne h hne := by
    rw [Option.ite_none_left_eq_some] at h
    obtain ⟨-, ⟨⟩⟩ := h
    exact AList.lookup_insert_ne hne

end Registration
