import Marine.Lib.EffectCode
import Marine.Lib.Fallible

/-!
# Programs with a state that may fail

`StateT σ (Except ε)`: a program from a state to a value and the next state, or
to an error.

* `bind_eq_ok_iff`: inversion of a program that returns.
* `yields_iff`: what a program yields, read off its runs.
-/

namespace Stateful

variable {σ ε α β : Type}

theorem pure_eq_ok_iff {a b : α} {s s' : σ} :
    (pure a : StateT σ (Except ε) α) s = .ok (b, s') ↔ b = a ∧ s' = s := by
  show Except.ok (a, s) = .ok (b, s') ↔ _
  rw [Except.ok.injEq, Prod.mk.injEq]
  exact and_congr eq_comm eq_comm

/-- **Inversion.** -/
theorem bind_eq_ok_iff {x : StateT σ (Except ε) α} {f : α → StateT σ (Except ε) β} {b : β}
    {s s' : σ} :
    (x >>= f) s = .ok (b, s') ↔ ∃ a t, x s = .ok (a, t) ∧ f a t = .ok (b, s') := by
  show (x s >>= fun p => f p.1 p.2) = .ok (b, s') ↔ _
  rw [Fallible.bind_eq_ok_iff]
  exact Prod.exists

/-- The value seen through a function. -/
theorem bind_pure_eq_ok_iff {x : StateT σ (Except ε) α} {g : α → β} {b : β} {s s' : σ} :
    (x >>= fun a => pure (g a)) s = .ok (b, s') ↔ ∃ a, x s = .ok (a, s') ∧ b = g a := by
  rw [bind_eq_ok_iff]
  constructor
  · rintro ⟨a, t, hx, hpure⟩
    obtain ⟨rfl, rfl⟩ := pure_eq_ok_iff.mp hpure
    exact ⟨a, hx, rfl⟩
  · rintro ⟨a, hx, rfl⟩
    exact ⟨a, s', hx, pure_eq_ok_iff.mpr ⟨rfl, rfl⟩⟩

theorem yields_iff {P : α → Prop} {x : StateT σ (Except ε) α} :
    EffectCode.Yields P x ↔ ∀ s a s', x s = .ok (a, s') → P a := by
  constructor
  · intro h s a s' hx
    classical
    have hsame := h (fun a => pure (decide (P a))) (fun _ => pure true) fun a ha => by
      rw [decide_eq_true ha]
    have hdecide : (x >>= fun a => pure (decide (P a))) s = .ok (decide (P a), s') :=
      bind_pure_eq_ok_iff.mpr ⟨a, hx, rfl⟩
    rw [hsame] at hdecide
    obtain ⟨_, -, htrue⟩ := bind_pure_eq_ok_iff.mp hdecide
    exact of_decide_eq_true htrue
  · intro h β f g hfg
    funext s
    show (x s >>= fun p => f p.1 p.2) = (x s >>= fun p => g p.1 p.2)
    cases hx : x s with
    | error e => rfl
    | ok p => exact congrFun (hfg p.1 (h s p.1 p.2 hx)) p.2

end Stateful
