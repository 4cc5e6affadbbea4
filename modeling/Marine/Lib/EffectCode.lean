import Mathlib.Data.List.Basic

/-!
# Straight-line code with effects

Instructions change a stack of values and have effects in a lawful monad.
`Computes step code pops x pushes` says that code on any stack with `pops` on
top has the effects of `x` and leaves `pushes a` there for its value `a`.

* `Computes.bind`: sequencing, where the first part yields only values with a
  property.
* `Computes.frame`: what lies below is kept.
* `Computes.exec_eq`: the whole run from the values it takes.
-/

namespace EffectCode

variable {ι τ : Type} {m : Type → Type} [Monad m]

/-- Run code on a stack, given top first. -/
def exec (step : ι → List τ → m (List τ)) : List ι → List τ → m (List τ)
  | [], stack => pure stack
  | i :: code, stack => step i stack >>= exec step code

/-- `code` replaces `pops` by `pushes a`, where `a` is what `x` gives. -/
def Computes {α : Type} (step : ι → List τ → m (List τ)) (code : List ι) (pops : List τ)
    (x : m α) (pushes : α → List τ) : Prop :=
  ∀ rest, exec step code (pops ++ rest) = x >>= fun a => pure (pushes a ++ rest)

/-- Whatever follows `x`, it is only run for values with `P`. -/
def Yields {α : Type} (P : α → Prop) (x : m α) : Prop :=
  ∀ ⦃β : Type⦄ (f g : α → m β), (∀ a, P a → f a = g a) → x >>= f = x >>= g

variable [LawfulMonad m] {step : ι → List τ → m (List τ)} {α β : Type}

/-! ## Values that a program yields -/

theorem yields_pure {P : α → Prop} {a : α} (h : P a) : Yields P (pure a : m α) := by
  intro γ f g hfg
  rw [pure_bind, pure_bind]
  exact hfg a h

omit [LawfulMonad m] in
theorem yields_true (x : m α) : Yields (fun _ => True) x := by
  intro γ f g hfg
  have hsame : f = g := funext fun a => hfg a trivial
  rw [hsame]

theorem yields_of_some {P : α → Prop} {x : Option α} (h : ∀ a, x = some a → P a) :
    Yields P x := by
  intro γ f g hfg
  cases x with
  | none => rfl
  | some a => exact hfg a (h a rfl)

theorem Yields.bind {P : α → Prop} {Q : β → Prop} {x : m α} {f : α → m β} (hx : Yields P x)
    (hf : ∀ a, P a → Yields Q (f a)) : Yields Q (x >>= f) := by
  intro γ k k' hk
  rw [bind_assoc, bind_assoc]
  exact hx _ _ fun a ha => hf a ha k k' hk

/-! ## Code -/

theorem exec_append (code code' : List ι) (stack : List τ) :
    exec step (code ++ code') stack = exec step code stack >>= exec step code' := by
  induction code generalizing stack with
  | nil => rw [List.nil_append, exec, pure_bind]
  | cons i code ih =>
    rw [List.cons_append, exec, exec, bind_assoc]
    exact bind_congr fun stack' => ih stack'

namespace Computes

variable {code code' : List ι} {s s' : List τ} {x : m α} {f : α → m β} {pushes : α → List τ}
  {pushes' : β → List τ}

theorem nil {a : α} (h : pushes a = s) : Computes step [] s (pure a) pushes := by
  intro rest
  rw [exec, pure_bind, h]

/-- **Sequencing.** -/
theorem bind {P : α → Prop} (h : Computes step code s x pushes) (hx : Yields P x)
    (h' : ∀ a, P a → Computes step code' (pushes a) (f a) pushes') :
    Computes step (code ++ code') s (x >>= f) pushes' := by
  intro rest
  rw [exec_append, h rest, bind_assoc, bind_assoc]
  apply hx
  intro a ha
  rw [pure_bind]
  exact h' a ha rest

theorem append (h : Computes step code s x pushes)
    (h' : ∀ a, Computes step code' (pushes a) (f a) pushes') :
    Computes step (code ++ code') s (x >>= f) pushes' :=
  h.bind (yields_true x) fun a _ => h' a

/-- An instruction with an effect. -/
theorem cons {i : ι} (hi : ∀ rest, step i (s ++ rest) = x >>= fun a => pure (pushes a ++ rest))
    (h : ∀ a, Computes step code (pushes a) (f a) pushes') :
    Computes step (i :: code) s (x >>= f) pushes' := by
  intro rest
  rw [exec, hi, bind_assoc, bind_assoc]
  refine bind_congr fun a => ?_
  rw [pure_bind]
  exact h a rest

/-- An instruction that only moves values. -/
theorem consPure {i : ι} (hi : ∀ rest, step i (s ++ rest) = pure (s' ++ rest))
    (h : Computes step code s' x pushes) : Computes step (i :: code) s x pushes := by
  intro rest
  rw [exec, hi, pure_bind]
  exact h rest

theorem single {i : ι}
    (hi : ∀ rest, step i (s ++ rest) = x >>= fun a => pure (pushes a ++ rest)) :
    Computes step [i] s x pushes := by
  intro rest
  rw [exec, hi, bind_assoc]
  refine bind_congr fun a => ?_
  rw [pure_bind, exec]

omit [LawfulMonad m] in
/-- What lies below is kept. -/
theorem frame (h : Computes step code s x pushes) (below : List τ) :
    Computes step code (s ++ below) x (fun a => pushes a ++ below) := by
  intro rest
  rw [List.append_assoc, h]
  refine bind_congr fun a => ?_
  rw [List.append_assoc]

/-- The value seen through `g`. -/
theorem mapPure {g : α → β} (h : Computes step code s x pushes)
    (hg : ∀ a, pushes' (g a) = pushes a) :
    Computes step code s (x >>= fun a => pure (g a)) pushes' := by
  intro rest
  rw [h rest, bind_assoc]
  refine bind_congr fun a => ?_
  rw [pure_bind, hg]

/-- The value before it is seen through `g`. -/
theorem ofMapPure {g : α → β} (h : Computes step code s (x >>= fun a => pure (g a)) pushes') :
    Computes step code s x fun a => pushes' (g a) := by
  intro rest
  rw [h rest, bind_assoc]
  refine bind_congr fun a => ?_
  rw [pure_bind]

omit [LawfulMonad m] in
theorem exec_eq (h : Computes step code s x pushes) :
    exec step code s = x >>= fun a => pure (pushes a) := by
  have hempty := h []
  simpa only [List.append_nil] using hempty

end Computes

end EffectCode
