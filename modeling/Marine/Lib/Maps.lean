import Mathlib.Data.List.AList
import Mathlib.Data.List.Induction

/-!
# Maps collected from lists

`collect` builds a map from key-value pairs, a later pair replacing an earlier
one with its key; `collectAll` keeps every value under its key, in order.
`lookup_collect` and `lookup_collectAll` say what the two hold.
-/

namespace Maps

variable {κ β : Type} [DecidableEq κ]

def collect (l : List (κ × β)) : AList fun _ : κ => β :=
  l.foldl (fun m p => m.insert p.1 p.2) ∅

/-- Add a value under a key that may have some already. -/
def push (m : AList fun _ : κ => List β) (p : κ × β) : AList fun _ : κ => List β :=
  m.insert p.1 ((m.lookup p.1).getD [] ++ [p.2])

def collectAll (l : List (κ × β)) : AList fun _ : κ => List β := l.foldl push ∅

/-- The values of a list of pairs under one key. -/
def valuesOf (l : List (κ × β)) (k : κ) : List β := (l.filter fun p => p.1 = k).map Prod.snd

@[simp] theorem collect_concat (l : List (κ × β)) (p : κ × β) :
    collect (l ++ [p]) = (collect l).insert p.1 p.2 := by
  simp only [collect, List.foldl_append, List.foldl_cons, List.foldl_nil]

@[simp] theorem valuesOf_concat (l : List (κ × β)) (p : κ × β) (k : κ) :
    valuesOf (l ++ [p]) k = valuesOf l k ++ if p.1 = k then [p.2] else [] := by
  unfold valuesOf
  by_cases h : p.1 = k <;> simp [List.filter_append, h]

/-- A collected map holds the last value given for a key. -/
theorem lookup_collect (l : List (κ × β)) (k : κ) :
    (collect l).lookup k = (valuesOf l k).getLast? := by
  induction l using List.reverseRecOn with
  | nil => rfl
  | append_singleton l p ih =>
    rw [collect_concat, valuesOf_concat]
    by_cases h : p.1 = k
    · subst h
      simp
    · rw [AList.lookup_insert_ne (Ne.symm h), if_neg h, List.append_nil, ih]

theorem mem_collect (l : List (κ × β)) (k : κ) : k ∈ collect l ↔ k ∈ l.map Prod.fst := by
  induction l using List.reverseRecOn with
  | nil => simp [collect]
  | append_singleton l p ih =>
    rw [collect_concat, AList.mem_insert, ih, List.map_append, List.mem_append, or_comm]
    simp

/-- Under distinct keys nothing is replaced. -/
theorem lookup_collect_eq_some_iff {l : List (κ × β)} (h : (l.map Prod.fst).Nodup) {k : κ} {v : β} :
    (collect l).lookup k = some v ↔ (k, v) ∈ l := by
  induction l using List.reverseRecOn with
  | nil => simp [collect]
  | append_singleton l p ih =>
    rw [List.map_append, List.nodup_append] at h
    rw [collect_concat, List.mem_append, List.mem_singleton]
    by_cases hk : p.1 = k
    · subst hk
      have hnew : (p.1, v) ∉ l := fun hmem =>
        h.2.2 p.1 (List.mem_map.mpr ⟨_, hmem, rfl⟩) p.1 (by simp) rfl
      rw [AList.lookup_insert, Option.some.injEq]
      constructor
      · intro he
        right
        rw [← he]
      · rintro (hmem | he)
        · exact absurd hmem hnew
        · rw [← he]
    · rw [AList.lookup_insert_ne (Ne.symm hk), ih h.1]
      constructor
      · intro hmem
        exact .inl hmem
      · rintro (hmem | he)
        · exact hmem
        · exact absurd (by rw [← he]) hk

/-- The values changed one by one. -/
def mapValues {γ : Type} (f : β → γ) (m : AList fun _ : κ => β) : AList fun _ : κ => γ :=
  collect (m.entries.map fun e => (e.1, f e.2))

@[simp] theorem lookup_mapValues {γ : Type} (f : β → γ) (m : AList fun _ : κ => β) (k : κ) :
    (mapValues f m).lookup k = (m.lookup k).map f := by
  have hkeys : (m.entries.map fun e => (e.1, f e.2)).map Prod.fst = m.keys := by
    rw [List.map_map]
    rfl
  ext v
  rw [mapValues, lookup_collect_eq_some_iff (hkeys ▸ m.keys_nodup), List.mem_map,
    Option.map_eq_some_iff]
  constructor
  · rintro ⟨e, he, heq⟩
    obtain ⟨rfl, rfl⟩ := Prod.mk.inj heq
    exact ⟨e.2, AList.mem_lookup_iff.mpr he, rfl⟩
  · rintro ⟨b, hb, rfl⟩
    exact ⟨⟨k, b⟩, AList.mem_lookup_iff.mp hb, rfl⟩

/-- A union has the left values, and the right ones where there are none. -/
theorem lookup_union_or (m m' : AList fun _ : κ => β) (k : κ) :
    (m ∪ m').lookup k = (m.lookup k).or (m'.lookup k) := by
  by_cases hk : k ∈ m
  · obtain ⟨v, hv⟩ := Option.isSome_iff_exists.mp (AList.lookup_isSome.mpr hk)
    rw [AList.lookup_union_left hk, hv, Option.some_or]
  · rw [AList.lookup_union_right hk, AList.lookup_eq_none.mpr hk, Option.none_or]

theorem lookup_collectAll (l : List (κ × β)) (k : κ) :
    (collectAll l).lookup k = if valuesOf l k = [] then none else some (valuesOf l k) := by
  induction l using List.reverseRecOn with
  | nil => rfl
  | append_singleton l p ih =>
    have hpush : collectAll (l ++ [p]) = push (collectAll l) p := by
      simp only [collectAll, List.foldl_append, List.foldl_cons, List.foldl_nil]
    rw [hpush, push, valuesOf_concat]
    by_cases h : p.1 = k
    · subst h
      have hne : valuesOf l p.1 ++ [p.2] ≠ [] := by simp
      rw [AList.lookup_insert, ih, if_pos rfl, if_neg hne]
      by_cases hnil : valuesOf l p.1 = [] <;> simp [hnil]
    · rw [AList.lookup_insert_ne (Ne.symm h), if_neg h, List.append_nil, ih]

@[simp] theorem mem_valuesOf {l : List (κ × β)} {k : κ} {v : β} :
    v ∈ valuesOf l k ↔ (k, v) ∈ l := by
  simp only [valuesOf, List.mem_map, List.mem_filter, decide_eq_true_eq]
  constructor
  · rintro ⟨⟨_, _⟩, ⟨hmem, rfl⟩, hv⟩
    cases hv
    exact hmem
  · intro hmem
    exact ⟨(k, v), ⟨hmem, rfl⟩, rfl⟩

theorem lookup_collectAll_isSome (l : List (κ × β)) (k : κ) :
    ((collectAll l).lookup k).isSome ↔ ∃ v, (k, v) ∈ l := by
  rw [lookup_collectAll]
  by_cases hnil : valuesOf l k = []
  · simp only [hnil, if_true, Option.isSome_none, Bool.false_eq_true, false_iff]
    rintro ⟨v, hv⟩
    rw [← mem_valuesOf, hnil] at hv
    cases hv
  · simp only [hnil, if_false, Option.isSome_some, true_iff]
    obtain ⟨v, hv⟩ := List.exists_mem_of_ne_nil _ hnil
    exact ⟨v, mem_valuesOf.mp hv⟩

/-- Collecting the elements of a list that have a value under `g`, by position. -/
theorem lookup_collect_zipIdx {α : Type} (g : α → Option β) (l : List α) (i : Nat) :
    (collect (l.zipIdx.filterMap fun p => (g p.1).map fun b => (p.2, b))).lookup i =
      l[i]?.bind g := by
  induction l using List.reverseRecOn with
  | nil => rfl
  | append_singleton l a ih =>
    rw [List.zipIdx_append, List.filterMap_append]
    simp only [Nat.zero_add, List.zipIdx_cons, List.zipIdx_nil, List.filterMap_cons,
      List.filterMap_nil]
    by_cases hi : i = l.length
    · subst hi
      have hend : l[l.length]? = none := List.getElem?_eq_none (Nat.le_refl _)
      rw [List.getElem?_concat_length, Option.bind_some]
      cases hg : g a with
      | none => simpa [hend] using ih
      | some b => simp
    · have hsame : (l ++ [a])[i]? = l[i]? := by
        rcases Nat.lt_or_ge i l.length with hlt | hge
        · exact List.getElem?_append_left hlt
        · have hgt : l.length < i := by omega
          rw [List.getElem?_eq_none (by simp; omega), List.getElem?_eq_none hge]
      rw [hsame, ← ih]
      cases hg : g a with
      | none => simp
      | some b => simp [AList.lookup_insert_ne hi]

/-- The elements of a list by position. -/
def enumerate (l : List β) : List (Nat × β) := l.zipIdx.map fun p => (p.2, p.1)

theorem lookup_collect_enumerate (l : List β) (i : Nat) :
    (collect (enumerate l)).lookup i = l[i]? := by
  have henum : enumerate l = l.zipIdx.filterMap fun p => (some p.1).map fun b => (p.2, b) := by
    simp [enumerate]
  rw [henum, lookup_collect_zipIdx some, Option.bind_fun_some]

theorem enumerate_append (l l' : List β) :
    enumerate (l ++ l') =
      enumerate l ++ l'.zipIdx.map fun p => (l.length + p.2, p.1) := by
  have hshift : l'.zipIdx l.length = l'.zipIdx.map fun p => (p.1, l.length + p.2) :=
    List.zipIdx_eq_map_add
  simp only [enumerate, List.zipIdx_append, List.map_append, Nat.zero_add, hshift, List.map_map]
  rfl

theorem length_collect {l : List (κ × β)} (h : (l.map Prod.fst).Nodup) :
    (collect l).entries.length = l.length := by
  induction l using List.reverseRecOn with
  | nil => rfl
  | append_singleton l p ih =>
    rw [List.map_append, List.nodup_append] at h
    have hnew : p.1 ∉ collect l := by
      rw [← AList.lookup_isSome, lookup_collect]
      intro hsome
      obtain ⟨v, hv⟩ := Option.isSome_iff_exists.mp hsome
      obtain ⟨q, hq, -⟩ := List.mem_map.mp (List.mem_of_getLast? hv)
      obtain ⟨hmem, hkey⟩ := List.mem_filter.mp hq
      exact h.2.2 q.1 (List.mem_map.mpr ⟨q, hmem, rfl⟩) p.1 (by simp) (by simpa using hkey)
    rw [collect_concat, AList.entries_insert_of_notMem hnew, List.length_cons, ih h.1,
      List.length_append, List.length_singleton]

theorem nodup_enumerate (l : List β) : ((enumerate l).map Prod.fst).Nodup := by
  have hkeys : (enumerate l).map Prod.fst = List.range' 0 l.length := by
    simp [enumerate, List.map_map, Function.comp_def]
  rw [hkeys]
  exact List.nodup_range'

/-- Under distinct keys every value is alone. -/
theorem lookup_collectAll_of_mem {l : List (κ × β)} (h : (l.map Prod.fst).Nodup) {k : κ} {v : β}
    (hv : (k, v) ∈ l) : (collectAll l).lookup k = some [v] := by
  have hvalues : valuesOf l k = [v] := by
    induction l with
    | nil => cases hv
    | cons p l ih =>
      rw [List.map_cons, List.nodup_cons] at h
      by_cases hk : p.1 = k
      · have hnone : l.filter (fun q => q.1 = k) = [] := by
          rw [List.filter_eq_nil_iff]
          intro q hq hqk
          exact h.1 (List.mem_map.mpr ⟨q, hq, (of_decide_eq_true hqk).trans hk.symm⟩)
        rcases List.mem_cons.mp hv with rfl | hl
        · simp [valuesOf, hnone]
        · exact absurd (List.mem_map.mpr ⟨_, hl, hk.symm⟩) h.1
      · rcases List.mem_cons.mp hv with rfl | hl
        · exact absurd rfl hk
        · have htail := ih h.2 hl
          simpa [valuesOf, hk] using htail
  rw [lookup_collectAll, hvalues, if_neg (by simp)]

/-- The first values under the keys. -/
theorem mem_heads_iff_head? (l : List (κ × β)) {k : κ} {v : β} :
    (∃ vs, ⟨k, vs⟩ ∈ (collectAll l).entries ∧ vs.head? = some v) ↔
      (valuesOf l k).head? = some v := by
  have hentry : ∀ vs, ⟨k, vs⟩ ∈ (collectAll l).entries ↔ (collectAll l).lookup k = some vs :=
    fun vs => AList.mem_lookup_iff.symm
  simp only [hentry, lookup_collectAll]
  by_cases hnil : valuesOf l k = []
  · simp [hnil]
  · simp [hnil]

theorem mem_heads_iff {l : List (κ × β)} (h : (l.map Prod.fst).Nodup) {k : κ} {v : β} :
    (∃ vs, ⟨k, vs⟩ ∈ (collectAll l).entries ∧ vs.head? = some v) ↔ (k, v) ∈ l := by
  rw [mem_heads_iff_head?]
  constructor
  · intro hhead
    exact mem_valuesOf.mp (List.mem_of_mem_head? hhead)
  · intro hmem
    have hlookup := lookup_collectAll_of_mem h hmem
    rw [lookup_collectAll] at hlookup
    split at hlookup
    · cases hlookup
    · rw [Option.some.inj hlookup]
      rfl

/-- **The first values are all values** exactly when no key has two. -/
theorem heads_exact_iff (l : List (κ × β)) :
    (∀ k v, (valuesOf l k).head? = some v ↔ (k, v) ∈ l) ↔
      ∀ p ∈ l, ∀ q ∈ l, p.1 = q.1 → p.2 = q.2 := by
  constructor
  · rintro h ⟨k, v⟩ hv ⟨k', v'⟩ hv' rfl
    have hhead := (h k v).mpr hv
    rw [(h k v').mpr hv'] at hhead
    exact (Option.some.inj hhead).symm
  · intro h k v
    constructor
    · intro hhead
      exact mem_valuesOf.mp (List.mem_of_mem_head? hhead)
    · intro hmem
      have hne : valuesOf l k ≠ [] := List.ne_nil_of_mem (mem_valuesOf.mpr hmem)
      obtain ⟨v', hhead⟩ := Option.isSome_iff_exists.mp (List.isSome_head?.mpr hne)
      have hmem' : (k, v') ∈ l := mem_valuesOf.mp (List.mem_of_mem_head? hhead)
      have hsame : v' = v := h _ hmem' _ hmem rfl
      rw [hhead, hsame]

/-! ## Keys by position -/

section Positions

variable {α γ ι : Type}

theorem mem_mapIdx_iff {f : Nat → α → γ} {l : List α} {b : γ} :
    b ∈ l.mapIdx f ↔ ∃ i a, l[i]? = some a ∧ f i a = b := by
  constructor
  · intro h
    obtain ⟨i, hi, rfl⟩ := List.mem_mapIdx.mp h
    exact ⟨i, l[i], List.getElem?_eq_getElem hi, rfl⟩
  · rintro ⟨i, a, ha, rfl⟩
    obtain ⟨hi, rfl⟩ := List.getElem?_eq_some_iff.mp ha
    exact List.mem_mapIdx.mpr ⟨i, hi, rfl⟩

theorem keys_mapIdx {c : Nat → ι} (key : γ → ι) {f : Nat → α → γ} (hf : ∀ i a, key (f i a) = c i)
    (l : List α) : (l.mapIdx f).map key = (List.range l.length).map c := by
  apply List.ext_getElem?
  intro i
  cases ha : l[i]? with
  | none =>
    have hlen : ¬ i < l.length := Nat.not_lt.mpr (List.getElem?_eq_none_iff.mp ha)
    simp [hlen]
  | some a =>
    have hlen : i < l.length := (List.getElem?_eq_some_iff.mp ha).1
    simp [hf, hlen]

end Positions

/-- Two runs of keys without a common key. -/
theorem nodup_keys_append {α α' γ ι : Type} {c d : Nat → ι} (key : γ → ι) {f : Nat → α → γ}
    {g : Nat → α' → γ} {l : List α} {l' : List α'} (hf : ∀ i a, key (f i a) = c i)
    (hg : ∀ i a, key (g i a) = d i) (hc : Function.Injective c) (hd : Function.Injective d)
    (hcd : ∀ i < l.length, ∀ j < l'.length, c i ≠ d j) :
    ((l.mapIdx f ++ l'.mapIdx g).map key).Nodup := by
  rw [List.map_append, keys_mapIdx key hf, keys_mapIdx key hg, List.nodup_append]
  refine ⟨List.nodup_range.map hc, List.nodup_range.map hd, fun x hx y hy => ?_⟩
  obtain ⟨i, hi, rfl⟩ := List.mem_map.mp hx
  obtain ⟨j, hj, rfl⟩ := List.mem_map.mp hy
  exact hcd i (List.mem_range.mp hi) j (List.mem_range.mp hj)

end Maps
