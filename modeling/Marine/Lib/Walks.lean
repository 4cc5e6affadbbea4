import Mathlib.Data.List.Basic
import Mathlib.Order.Lattice.Nat

/-!
# Walks along weighted edges

`next a` lists the edges out of `a` with their weights.  `check_iff` says what
a recursive check with a level limit decides: no path is heavier than the
limit, and every node on one is known.  `Path.simulate` carries paths from one
graph to another.  A node on a cycle has paths of every weight
(`Path.exists_of_cycle`).  Where the paths from a node are bounded, the heaviest
one is its `height`, which goes down along every path (`Path.height_lt`).
-/

namespace Walks

variable {α β : Type}

/-- A path from one node to another and the sum of its weights. -/
inductive Path (next : α → List (α × Nat)) : α → Nat → α → Prop
  | here (a : α) : Path next a 0 a
  | step {a b c : α} {w n : Nat} : (b, w) ∈ next a → Path next b n c → Path next a (w + n) c

theorem Path.forall_iff {next : α → List (α × Nat)} {a : α} {Q : Nat → α → Prop} :
    (∀ n c, Path next a n c → Q n c) ↔
      Q 0 a ∧ ∀ b w, (b, w) ∈ next a → ∀ n c, Path next b n c → Q (w + n) c := by
  constructor
  · intro h
    exact ⟨h 0 a (.here a), fun b w hb n c hp => h (w + n) c (.step hb hp)⟩
  · rintro ⟨hhere, hstep⟩ n c hp
    cases hp with
    | here => exact hhere
    | step hb hp => exact hstep _ _ hb _ _ hp

/-- **Checks with a level limit.**  The check may carry a state that it does not
depend on, as long as the checks below it do not.  The induction is on what is
left of the limit; an edge without weight would not use it up. -/
theorem check_iff {σ : Type} {next : α → List (α × Nat)} {limit : Nat} {known : α → Prop}
    {c : σ → α → Nat → Prop} (hpos : ∀ a b w, (b, w) ∈ next a → 0 < w)
    (hlimit : ∀ s a level, limit < level → ¬ c s a level)
    (hcheck : ∀ s a level, level ≤ limit →
      (∀ b w, (b, w) ∈ next a → ∀ s s', c s b (level + w) → c s' b (level + w)) →
      (c s a level ↔ known a ∧ ∀ b w, (b, w) ∈ next a → ∀ s', c s' b (level + w)))
    (s : σ) (a : α) (level : Nat) :
    c s a level ↔ ∀ n b, Path next a n b → level + n ≤ limit ∧ known b := by
  induction hleft : limit + 1 - level using Nat.strongRecOn generalizing s a level with
  | _ left ih =>
    by_cases hlevel : level ≤ limit
    · have hbelow : ∀ b w, (b, w) ∈ next a → ∀ s', (c s' b (level + w) ↔
          ∀ n d, Path next b n d → level + w + n ≤ limit ∧ known d) := by
        intro b w hb s'
        have hw := hpos a b w hb
        exact ih _ (by omega) s' b (level + w) rfl
      have hsame : ∀ b w, (b, w) ∈ next a → ∀ s s',
          c s b (level + w) → c s' b (level + w) :=
        fun b w hb s s' h => (hbelow b w hb s').mpr ((hbelow b w hb s).mp h)
      rw [hcheck s a level hlevel hsame, Path.forall_iff]
      constructor
      · rintro ⟨hknown, hnext⟩
        refine ⟨⟨hlevel, hknown⟩, fun b w hb n d hp => ?_⟩
        rw [← Nat.add_assoc]
        exact (hbelow b w hb s).mp (hnext b w hb s) n d hp
      · rintro ⟨⟨-, hknown⟩, hnext⟩
        refine ⟨hknown, fun b w hb s' => (hbelow b w hb s').mpr fun n d hp => ?_⟩
        rw [Nat.add_assoc]
        exact hnext b w hb n d hp
    · refine ⟨fun h => absurd h (hlimit s a level (by omega)), fun h => ?_⟩
      have hhere := (h 0 a (.here a)).1
      omega

/-- Paths follow a simulation. -/
theorem Path.simulate {next : α → List (α × Nat)} {next' : β → List (β × Nat)} {R : α → β → Prop}
    (hR : ∀ a a', R a a' → ∀ b w, (b, w) ∈ next a → ∃ b', (b', w) ∈ next' a' ∧ R b b')
    {a b : α} {n : Nat} (h : Path next a n b) {a' : β} (ha : R a a') :
    ∃ b', Path next' a' n b' ∧ R b b' := by
  induction h generalizing a' with
  | here => exact ⟨a', .here a', ha⟩
  | step hb _ ih =>
    obtain ⟨b', hb', hbR⟩ := hR _ _ ha _ _ hb
    obtain ⟨c', hc', hcR⟩ := ih hbR
    exact ⟨c', .step hb' hc', hcR⟩

theorem Path.exists_edge {next : α → List (α × Nat)} {a c : α} {n : Nat} (h : Path next a n c)
    (hn : 0 < n) : ∃ b w, (b, w) ∈ next a := by
  cases h with
  | here => exact absurd hn (Nat.lt_irrefl 0)
  | step hb _ => exact ⟨_, _, hb⟩

theorem Path.append {next : α → List (α × Nat)} {a b c : α} {n m : Nat} (h : Path next a n b)
    (h' : Path next b m c) : Path next a (n + m) c := by
  induction h with
  | here => rwa [Nat.zero_add]
  | step hb _ ih =>
    rw [Nat.add_assoc]
    exact .step hb (ih h')

/-! ## Cycles -/

/-- Along edges of weight one there is a path of every smaller weight. -/
theorem Path.truncate {next : α → List (α × Nat)} (hunit : ∀ a b w, (b, w) ∈ next a → w = 1)
    {a c : α} {n : Nat} (h : Path next a n c) {m : Nat} (hm : m ≤ n) :
    ∃ b, Path next a m b := by
  induction h generalizing m with
  | here a =>
    obtain rfl := Nat.le_zero.mp hm
    exact ⟨a, .here a⟩
  | @step a b c w n hb _ ih =>
    obtain rfl := hunit a b w hb
    cases m with
    | zero => exact ⟨a, .here a⟩
    | succ m =>
      obtain ⟨d, hd⟩ := ih (show m ≤ n by omega)
      rw [Nat.add_comm m 1]
      exact ⟨d, .step hb hd⟩

theorem Path.cycle {next : α → List (α × Nat)} {a : α} {n : Nat} (h : Path next a n a)
    (k : Nat) : Path next a (k * n) a := by
  induction k with
  | zero =>
    rw [Nat.zero_mul]
    exact .here a
  | succ k ih =>
    rw [Nat.succ_mul, Nat.add_comm]
    exact h.append ih

/-- From a node on a cycle there are paths of every weight. -/
theorem Path.exists_of_cycle {next : α → List (α × Nat)}
    (hunit : ∀ a b w, (b, w) ∈ next a → w = 1) {a : α} {n : Nat} (h : Path next a n a)
    (hn : 0 < n) (m : Nat) : ∃ b, Path next a m b :=
  (h.cycle m).truncate hunit (Nat.le_mul_of_pos_right m hn)

/-! ## Heights -/

/-- The weight of the heaviest path out of a node. -/
noncomputable def height (next : α → List (α × Nat)) (a : α) : Nat :=
  sSup {n | ∃ c, Path next a n c}

theorem Path.height_lt {next : α → List (α × Nat)} {a b : α} {n limit : Nat}
    (h : Path next a n b) (hn : 0 < n) (hlimit : ∀ m c, Path next a m c → m ≤ limit) :
    height next b < height next a := by
  have hbounda : BddAbove {m | ∃ c, Path next a m c} :=
    ⟨limit, fun m ⟨c, hm⟩ => hlimit m c hm⟩
  have hboundb : BddAbove {m | ∃ c, Path next b m c} :=
    ⟨limit, fun m ⟨c, hm⟩ => Nat.le_trans (Nat.le_add_left m n) (hlimit _ c (h.append hm))⟩
  have hnonempty : Set.Nonempty {m | ∃ c, Path next b m c} := ⟨0, b, .here b⟩
  obtain ⟨c, hc⟩ : ∃ c, Path next b (height next b) c := Nat.sSup_mem hnonempty hboundb
  have hle : n + height next b ≤ height next a := le_csSup hbounda ⟨c, h.append hc⟩
  omega

end Walks
