import Marine.Lib.Listings
import Mathlib.Data.List.Nodup

/-!
# Depth-first search

A search without a check for cycles that lists each node behind the nodes it
has edges to.  The recursion is bounded by fuel.

* `visit_isSome`: as much fuel as there are unused nodes is enough.
* `visit_spec`: where a rank goes down along the edges, the nodes that are used
  and not listed yet lie above the visited one, and so it is listed behind all
  its neighbours.
* `visitAll_spec`: both for a search from all roots.
* `visitAll_listing`: the listed nodes are those of the trees of the roots, each
  at its first place.
-/

namespace DepthFirst

variable {α : Type}

structure State (α : Type) where
  used : List α
  sortedOrder : List α

def visit [DecidableEq α] (next : α → List α) : Nat → α → State α → Option (State α)
  | 0, _, _ => none
  | fuel + 1, a, s =>
    if a ∈ s.used then
      some s
    else do
      let s ← (next a).foldlM (fun s b => visit next fuel b s) { s with used := a :: s.used }
      return { s with sortedOrder := s.sortedOrder ++ [a] }

def visitAll [DecidableEq α] (next : α → List α) (fuel : Nat) (roots : List α) (s : State α) :
    Option (State α) :=
  roots.foldlM (fun s a => visit next fuel a s) s

/-- Each listed node comes behind its neighbours. -/
def Sorted (next : α → List α) (order : List α) : Prop :=
  ∀ (i : Nat) a, order[i]? = some a → ∀ b ∈ next a, ∃ j < i, order[j]? = some b

/-- The listed nodes are used, listed once and sorted. -/
structure Good (next : α → List α) (s : State α) : Prop where
  used : ∀ a ∈ s.sortedOrder, a ∈ s.used
  nodup : s.sortedOrder.Nodup
  sorted : Sorted next s.sortedOrder

/-- What a search does between two states: it uses and lists more nodes, lists
what it uses, and lists nothing that was in use before. -/
structure Extends (s s' : State α) : Prop where
  used : ∀ a ∈ s.used, a ∈ s'.used
  listed : ∀ a ∈ s.sortedOrder, a ∈ s'.sortedOrder
  closed : ∀ a ∈ s'.used, a ∈ s.used ∨ a ∈ s'.sortedOrder
  fresh : ∀ a ∈ s'.sortedOrder, a ∈ s.sortedOrder ∨ a ∉ s.used

/-- What is used and not listed lies above rank `m`. -/
def OpenAbove (rank : α → Nat) (m : Nat) (s : State α) : Prop :=
  ∀ a ∈ s.used, a ∈ s.sortedOrder ∨ m < rank a

theorem Extends.refl (s : State α) : Extends s s :=
  ⟨fun _ h => h, fun _ h => h, fun _ h => .inl h, fun _ h => .inl h⟩

theorem Extends.trans {s s' s'' : State α} (h : Extends s s') (h' : Extends s' s'') :
    Extends s s'' := by
  refine ⟨fun a ha => h'.used a (h.used a ha), fun a ha => h'.listed a (h.listed a ha),
    fun a ha => ?_, fun a ha => ?_⟩
  · rcases h'.closed a ha with hused | hlisted
    · exact (h.closed a hused).imp_right (h'.listed a)
    · exact .inr hlisted
  · rcases h'.fresh a ha with hlisted | hunused
    · exact h.fresh a hlisted
    · exact .inr fun hused => hunused (h.used a hused)

theorem OpenAbove.extends {rank : α → Nat} {m : Nat} {s s' : State α} (h : OpenAbove rank m s)
    (he : Extends s s') : OpenAbove rank m s' := by
  intro a ha
  rcases he.closed a ha with hused | hlisted
  · exact (h a hused).imp_left (he.listed a)
  · exact .inl hlisted

theorem Sorted.concat {next : α → List α} {order : List α} {a : α} (h : Sorted next order)
    (ha : ∀ b ∈ next a, b ∈ order) : Sorted next (order ++ [a]) := by
  intro i c hc b hb
  have hbefore : ∃ j < i, order[j]? = some b := by
    have hlen : i < (order ++ [a]).length := (List.getElem?_eq_some_iff.mp hc).1
    simp only [List.length_append, List.length_singleton] at hlen
    rcases Nat.lt_or_ge i order.length with hlt | hge
    · rw [List.getElem?_append_left hlt] at hc
      exact h i c hc b hb
    · obtain rfl : i = order.length := by omega
      rw [List.getElem?_concat_length] at hc
      cases hc
      obtain ⟨j, hj, hget⟩ := List.getElem_of_mem (ha b hb)
      exact ⟨j, hj, List.getElem?_eq_some_iff.mpr ⟨hj, hget⟩⟩
  obtain ⟨j, hj, hget⟩ := hbefore
  have hjlen : j < order.length := (List.getElem?_eq_some_iff.mp hget).1
  exact ⟨j, hj, (List.getElem?_append_left hjlen).trans hget⟩

/-! ## A node is used, then listed -/

theorem Good.use {next : α → List α} {s : State α} (h : Good next s) (a : α) :
    Good next { s with used := a :: s.used } :=
  ⟨fun b hb => List.mem_cons_of_mem a (h.used b hb), h.nodup, h.sorted⟩

theorem OpenAbove.use_of_lt {rank : α → Nat} {s : State α} {a : α} {m : Nat}
    (h : OpenAbove rank (rank a) s) (hlt : m < rank a) :
    OpenAbove rank m { s with used := a :: s.used } := by
  intro c hc
  rcases List.mem_cons.mp hc with rfl | hc
  · exact .inr hlt
  · exact (h c hc).imp_right fun hlt' => by omega

theorem Good.list {next : α → List α} {s : State α} {a : α} (h : Good next s) (ha : a ∈ s.used)
    (hfresh : a ∉ s.sortedOrder) (hnext : ∀ b ∈ next a, b ∈ s.sortedOrder) :
    Good next { s with sortedOrder := s.sortedOrder ++ [a] } := by
  refine ⟨fun b hb => ?_, ?_, h.sorted.concat hnext⟩
  · rcases List.mem_append.mp hb with hb | hb
    · exact h.used b hb
    · rw [List.mem_singleton.mp hb]
      exact ha
  · rw [List.nodup_append]
    refine ⟨h.nodup, by simp, fun b hb c hc => ?_⟩
    rw [List.mem_singleton.mp hc]
    rintro rfl
    exact hfresh hb

/-- Seen from before its use, the listed node is the only one the search adds to
what it has done in between. -/
theorem Extends.list {s s' : State α} {a : α} (h : Extends { s with used := a :: s.used } s')
    (ha : a ∉ s.used) : Extends s { s' with sortedOrder := s'.sortedOrder ++ [a] } := by
  refine ⟨fun b hb => h.used b (List.mem_cons_of_mem a hb),
    fun b hb => List.mem_append_left _ (h.listed b hb), fun b hb => ?_, fun b hb => ?_⟩
  · rcases h.closed b hb with hb | hb
    · rcases List.mem_cons.mp hb with rfl | hb
      · exact .inr (by simp)
      · exact .inl hb
    · exact .inr (List.mem_append_left _ hb)
  · rcases List.mem_append.mp hb with hb | hb
    · exact (h.fresh b hb).imp_right fun hunused hused => hunused (List.mem_cons_of_mem a hused)
    · rw [List.mem_singleton.mp hb]
      exact .inr ha

/-! ## Trees -/

/-- The tree of a node, each node behind its subtrees. -/
def postorder (next : α → List α) : Nat → α → List α
  | 0, _ => []
  | fuel + 1, a => (next a).flatMap (postorder next fuel) ++ [a]

/-- What lies in the tree of a listed node is listed. -/
theorem postorder_listed {order : List α} (h : Sorted next order) {fuel : Nat} {a : α}
    (ha : a ∈ order) : ∀ b ∈ postorder next fuel a, b ∈ order := by
  induction fuel generalizing a with
  | zero => nofun
  | succ fuel ih =>
    intro b hb
    rw [postorder, List.mem_append, List.mem_flatMap, List.mem_singleton] at hb
    rcases hb with ⟨c, hc, hb⟩ | rfl
    · obtain ⟨i, hi, hget⟩ := List.getElem_of_mem ha
      obtain ⟨j, -, hj⟩ := h i a (List.getElem?_eq_some_iff.mpr ⟨hi, hget⟩) c hc
      exact ih (List.mem_of_getElem? hj) b hb
    · exact ha

/-! ## Loops -/

/-- **Loop rule.** -/
theorem foldlM_keeps {σ β : Type} {f : σ → β → Option σ} {I : σ → Prop} {l : List β}
    (hstep : ∀ b ∈ l, ∀ s s', I s → f s b = some s' → I s') {s s' : σ} (hs : I s)
    (h : l.foldlM f s = some s') : I s' := by
  induction l generalizing s with
  | nil =>
    cases h
    exact hs
  | cons b l ih =>
    rw [List.foldlM_cons] at h
    obtain ⟨s₁, hb, h⟩ := Option.bind_eq_some_iff.mp h
    exact ih (fun c hc => hstep c (List.mem_cons_of_mem b hc))
      (hstep b (List.mem_cons_self ..) s s₁ hs hb) h

section Search

variable [DecidableEq α] {next : α → List α}

/-! ## Fuel -/

theorem visit_used {fuel : Nat} {a : α} {s s' : State α} (h : visit next fuel a s = some s') :
    ∀ b ∈ s.used, b ∈ s'.used := by
  induction fuel generalizing a s s' with
  | zero => cases h
  | succ fuel ih =>
    rw [visit] at h
    by_cases ha : a ∈ s.used
    · rw [if_pos ha] at h
      cases h
      exact fun _ hb => hb
    · rw [if_neg ha] at h
      obtain ⟨s₁, hfold, h⟩ := Option.bind_eq_some_iff.mp h
      cases h
      exact foldlM_keeps (I := fun t => ∀ b ∈ s.used, b ∈ t.used)
        (fun c _ t t' ht hc b hb => ih hc b (ht b hb))
        (fun b hb => List.mem_cons_of_mem a hb) hfold

/-- The nodes that are not in use. -/
def unused (nodes : List α) (s : State α) : List α :=
  nodes.filter fun a => decide (a ∉ s.used)

theorem unused_eq_filter {nodes : List α} {s s' : State α} (h : ∀ a ∈ s.used, a ∈ s'.used) :
    unused nodes s' = (unused nodes s).filter fun a => decide (a ∉ s'.used) := by
  unfold unused
  rw [List.filter_filter]
  apply List.filter_congr
  intro a _
  by_cases ha : a ∈ s.used
  · simp [ha, h a ha]
  · simp [ha]

theorem unused_length_le {nodes : List α} {s s' : State α} (h : ∀ a ∈ s.used, a ∈ s'.used) :
    (unused nodes s').length ≤ (unused nodes s).length := by
  rw [unused_eq_filter h]
  exact List.length_filter_le _ _

theorem unused_length_lt {nodes : List α} {s s' : State α} (h : ∀ a ∈ s.used, a ∈ s'.used) {a : α}
    (hmem : a ∈ nodes) (ha : a ∉ s.used) (ha' : a ∈ s'.used) :
    (unused nodes s').length < (unused nodes s).length := by
  rw [unused_eq_filter h]
  apply List.length_filter_lt_length_iff_exists.mpr
  exact ⟨a, by simp [unused, hmem, ha], by simp [ha']⟩

/-- **Enough fuel.**  Each visit that goes on uses a new node. -/
theorem visit_isSome {nodes : List α} (hclosed : ∀ a ∈ nodes, ∀ b ∈ next a, b ∈ nodes)
    {fuel : Nat} {a : α} {s : State α} (ha : a ∈ nodes) (hfuel : (unused nodes s).length < fuel) :
    ∃ s', visit next fuel a s = some s' := by
  induction fuel generalizing a s with
  | zero => omega
  | succ fuel ih =>
    rw [visit]
    by_cases hused : a ∈ s.used
    · exact ⟨s, if_pos hused⟩
    · rw [if_neg hused]
      have hlt : (unused nodes { s with used := a :: s.used }).length < (unused nodes s).length :=
        unused_length_lt (fun b hb => List.mem_cons_of_mem a hb) ha hused (List.mem_cons_self ..)
      have hloop : ∀ (l : List α) (t : State α), (∀ b ∈ l, b ∈ nodes) →
          (unused nodes t).length < fuel →
          ∃ t', l.foldlM (fun s b => visit next fuel b s) t = some t' := by
        intro l
        induction l with
        | nil => exact fun t _ _ => ⟨t, rfl⟩
        | cons b l ihl =>
          intro t hl ht
          obtain ⟨t₁, ht₁⟩ := ih (hl b (List.mem_cons_self ..)) ht
          have hle : (unused nodes t₁).length ≤ (unused nodes t).length :=
            unused_length_le (visit_used ht₁)
          obtain ⟨t', ht'⟩ := ihl t₁ (fun c hc => hl c (List.mem_cons_of_mem b hc)) (by omega)
          exact ⟨t', by rw [List.foldlM_cons, ht₁]; exact ht'⟩
      obtain ⟨s₁, hs₁⟩ := hloop (next a) _ (hclosed a ha) (Nat.lt_of_lt_of_le hlt (by omega))
      exact ⟨_, by rw [hs₁]; rfl⟩

/-! ## Order -/

/-- **Loop lemma.** -/
theorem foldlM_visit_spec {rank : α → Nat} {fuel : Nat}
    (hvisit : ∀ a s s', visit next fuel a s = some s' → Good next s → OpenAbove rank (rank a) s →
      Good next s' ∧ Extends s s' ∧ a ∈ s'.sortedOrder)
    {l : List α} {s s' : State α} (h : l.foldlM (fun s b => visit next fuel b s) s = some s')
    (hgood : Good next s) (hopen : ∀ b ∈ l, OpenAbove rank (rank b) s) :
    Good next s' ∧ Extends s s' ∧ ∀ b ∈ l, b ∈ s'.sortedOrder := by
  induction l generalizing s with
  | nil =>
    cases h
    exact ⟨hgood, Extends.refl _, by simp⟩
  | cons b l ih =>
    rw [List.foldlM_cons] at h
    obtain ⟨s₁, hb, h⟩ := Option.bind_eq_some_iff.mp h
    obtain ⟨hgood₁, hext₁, hlisted⟩ := hvisit b s s₁ hb hgood (hopen b (List.mem_cons_self ..))
    obtain ⟨hgood', hext', hrest⟩ := ih h hgood₁
      fun c hc => (hopen c (List.mem_cons_of_mem b hc)).extends hext₁
    refine ⟨hgood', hext₁.trans hext', fun c hc => ?_⟩
    rcases List.mem_cons.mp hc with rfl | hc
    · exact hext'.listed _ hlisted
    · exact hrest c hc

/-- **Visit.**  The visited node ends up listed, behind all its neighbours. -/
theorem visit_spec {rank : α → Nat} (hrank : ∀ a, ∀ b ∈ next a, rank b < rank a) {fuel : Nat}
    {a : α} {s s' : State α} (h : visit next fuel a s = some s') (hgood : Good next s)
    (hopen : OpenAbove rank (rank a) s) : Good next s' ∧ Extends s s' ∧ a ∈ s'.sortedOrder := by
  induction fuel generalizing a s s' with
  | zero => cases h
  | succ fuel ih =>
    rw [visit] at h
    by_cases ha : a ∈ s.used
    · rw [if_pos ha] at h
      cases h
      exact ⟨hgood, Extends.refl s, (hopen a ha).resolve_right (Nat.lt_irrefl _)⟩
    · rw [if_neg ha] at h
      obtain ⟨s₁, hfold, h⟩ := Option.bind_eq_some_iff.mp h
      cases h
      have hunlisted : a ∉ s.sortedOrder := fun hlisted => ha (hgood.used a hlisted)
      -- while the neighbours are visited, `a` itself is open
      have hopen₀ : ∀ b ∈ next a, OpenAbove rank (rank b) { s with used := a :: s.used } :=
        fun b hb => hopen.use_of_lt (hrank a b hb)
      obtain ⟨hgood₁, hext₁, hlisted⟩ := foldlM_visit_spec
        (fun _ _ _ hv hg ho => ih hv hg ho) hfold (hgood.use a) hopen₀
      have hfresh : a ∉ s₁.sortedOrder := fun hlisted =>
        (hext₁.fresh a hlisted).elim hunlisted fun hunused => hunused (List.mem_cons_self ..)
      have hused : a ∈ s₁.used := hext₁.used a (List.mem_cons_self ..)
      exact ⟨hgood₁.list hused hfresh hlisted, hext₁.list ha, by simp⟩

/-! ## The listing -/

theorem foldlM_visit_listing {rank : α → Nat} (hrank : ∀ a, ∀ b ∈ next a, rank b < rank a)
    {fuel : Nat} (hvisit : ∀ a s s', visit next fuel a s = some s' → Good next s →
      OpenAbove rank (rank a) s →
      s'.sortedOrder = Listings.appendNew s.sortedOrder (postorder next fuel a))
    {l : List α} {s s' : State α} (h : l.foldlM (fun s b => visit next fuel b s) s = some s')
    (hgood : Good next s) (hopen : ∀ b ∈ l, OpenAbove rank (rank b) s) :
    s'.sortedOrder = Listings.appendNew s.sortedOrder (l.flatMap (postorder next fuel)) := by
  induction l generalizing s with
  | nil =>
    cases h
    rfl
  | cons b l ih =>
    rw [List.foldlM_cons] at h
    obtain ⟨s₁, hb, h⟩ := Option.bind_eq_some_iff.mp h
    have hopen₁ := hopen b (List.mem_cons_self ..)
    obtain ⟨hgood₁, hext₁, -⟩ := visit_spec hrank hb hgood hopen₁
    rw [ih h hgood₁ fun c hc => (hopen c (List.mem_cons_of_mem b hc)).extends hext₁,
      hvisit b s s₁ hb hgood hopen₁, List.flatMap_cons, Listings.appendNew_append]

/-- **Listing.**  A visit lists the nodes of the tree that are not listed yet. -/
theorem visit_listing {rank : α → Nat} (hrank : ∀ a, ∀ b ∈ next a, rank b < rank a) {fuel : Nat}
    {a : α} {s s' : State α} (h : visit next fuel a s = some s') (hgood : Good next s)
    (hopen : OpenAbove rank (rank a) s) :
    s'.sortedOrder = Listings.appendNew s.sortedOrder (postorder next fuel a) := by
  induction fuel generalizing a s s' with
  | zero => cases h
  | succ fuel ih =>
    have hvisit := h
    rw [visit] at h
    by_cases ha : a ∈ s.used
    · rw [if_pos ha] at h
      cases h
      have hlisted := (hopen a ha).resolve_right (Nat.lt_irrefl _)
      exact (Listings.appendNew_of_subset (postorder_listed hgood.sorted hlisted)).symm
    · rw [if_neg ha] at h
      obtain ⟨s₁, hfold, h⟩ := Option.bind_eq_some_iff.mp h
      cases h
      have hloop := foldlM_visit_listing hrank (fun _ _ _ hv hg ho => ih hv hg ho) hfold
        (hgood.use a) fun b hb => hopen.use_of_lt (hrank a b hb)
      -- the node itself is listed last
      have hnodup := (visit_spec hrank hvisit hgood hopen).1.nodup
      rw [List.nodup_append] at hnodup
      have hfresh : a ∉ s₁.sortedOrder := fun hmem =>
        hnodup.2.2 a hmem a (List.mem_singleton_self a) rfl
      rw [postorder, Listings.appendNew_concat, ← hloop, if_neg hfresh]

/-! ## Search from all roots -/

theorem visit_within {nodes : List α} (hclosed : ∀ a ∈ nodes, ∀ b ∈ next a, b ∈ nodes) {fuel : Nat}
    {a : α} {s s' : State α} (h : visit next fuel a s = some s') (ha : a ∈ nodes)
    (hs : ∀ b ∈ s.used, b ∈ nodes) : ∀ b ∈ s'.used, b ∈ nodes := by
  induction fuel generalizing a s s' with
  | zero => cases h
  | succ fuel ih =>
    rw [visit] at h
    by_cases hused : a ∈ s.used
    · rw [if_pos hused] at h
      cases h
      exact hs
    · rw [if_neg hused] at h
      obtain ⟨s₁, hfold, h⟩ := Option.bind_eq_some_iff.mp h
      cases h
      refine foldlM_keeps (I := fun t => ∀ b ∈ t.used, b ∈ nodes)
        (fun c hc t t' ht hv => ih hv (hclosed a ha c hc) ht) (fun b hb => ?_) hfold
      rcases List.mem_cons.mp hb with rfl | hb
      · exact ha
      · exact hs b hb

def State.empty : State α := ⟨[], []⟩

omit [DecidableEq α] in
theorem good_empty : Good next State.empty := by
  refine ⟨?_, ?_, ?_⟩ <;> simp [State.empty, Sorted]

omit [DecidableEq α] in
theorem openAbove_empty (rank : α → Nat) (m : Nat) : OpenAbove rank m State.empty := by
  simp [OpenAbove, State.empty]

theorem visitAll_isSome {nodes roots : List α} (hclosed : ∀ a ∈ nodes, ∀ b ∈ next a, b ∈ nodes)
    (hroots : ∀ a ∈ roots, a ∈ nodes) {fuel : Nat} (s : State α)
    (hfuel : (unused nodes s).length < fuel) : ∃ s', visitAll next fuel roots s = some s' := by
  induction roots generalizing s with
  | nil => exact ⟨s, rfl⟩
  | cons a roots ih =>
    obtain ⟨s₁, hs₁⟩ := visit_isSome hclosed (hroots a (List.mem_cons_self ..)) hfuel
    have hle : (unused nodes s₁).length ≤ (unused nodes s).length :=
      unused_length_le (visit_used hs₁)
    obtain ⟨s', hs'⟩ := ih (fun b hb => hroots b (List.mem_cons_of_mem a hb)) s₁ (by omega)
    exact ⟨s', by rw [visitAll, List.foldlM_cons, hs₁]; exact hs'⟩

/-- **Search.**  A search from all nodes of a closed graph without cycles lists
them, each once and behind its neighbours. -/
theorem visitAll_spec {nodes roots : List α} (hclosed : ∀ a ∈ nodes, ∀ b ∈ next a, b ∈ nodes)
    (hroots : ∀ a, a ∈ roots ↔ a ∈ nodes) {rank : α → Nat}
    (hrank : ∀ a, ∀ b ∈ next a, rank b < rank a) {fuel : Nat} (hfuel : nodes.length < fuel) :
    ∃ s, visitAll next fuel roots State.empty = some s ∧ s.sortedOrder.Nodup ∧
      Sorted next s.sortedOrder ∧ ∀ a, a ∈ s.sortedOrder ↔ a ∈ nodes := by
  have hunused : (unused nodes State.empty).length ≤ nodes.length := List.length_filter_le _ _
  obtain ⟨s, hs⟩ := visitAll_isSome hclosed (fun a ha => (hroots a).mp ha) State.empty
    (Nat.lt_of_le_of_lt hunused hfuel)
  obtain ⟨hgood, -, hlisted⟩ := foldlM_visit_spec
    (fun _ _ _ hv hg ho => visit_spec hrank hv hg ho) hs good_empty
    fun b _ => openAbove_empty rank (rank b)
  have hwithin : ∀ a ∈ s.used, a ∈ nodes :=
    foldlM_keeps (I := fun t => ∀ b ∈ t.used, b ∈ nodes)
      (fun c hc _ _ ht hv => visit_within hclosed hv ((hroots c).mp hc) ht)
      (by simp [State.empty]) hs
  refine ⟨s, hs, hgood.nodup, hgood.sorted, fun a => ⟨fun ha => hwithin a (hgood.used a ha),
    fun ha => hlisted a ((hroots a).mpr ha)⟩⟩

/-- The listing of a search from all roots. -/
theorem visitAll_listing {rank : α → Nat} (hrank : ∀ a, ∀ b ∈ next a, rank b < rank a) {fuel : Nat}
    {roots : List α} {s : State α} (h : visitAll next fuel roots State.empty = some s) :
    s.sortedOrder = Listings.listing (postorder next fuel) roots := by
  exact foldlM_visit_listing hrank (fun _ _ _ hv hg ho => visit_listing hrank hv hg ho) h good_empty
    fun b _ => openAbove_empty rank (rank b)

end Search

end DepthFirst
