import Marine.Lib.Fallible

/-!
# Programs that keep a journal

A program that may fail and that appends to a journal; a step may read what the
journal holds so far.  What was written stays when the program fails.

* `result_bind`: the result of a program, when that of each step is known.
* `bind_eq_ok_iff`: inversion of a program that returns.
-/

/-- A program from the journal before it to its result and the journal after it. -/
def Journal (ω ε α : Type) : Type := List ω → Except ε α × List ω

namespace Journal

variable {ω ε ε' α β : Type}

instance : Monad (Journal ω ε) where
  pure a := fun log => (.ok a, log)
  bind x f := fun log =>
    match x log with
    | (.ok a, log') => f a log'
    | (.error e, log') => (.error e, log')

/-- A step that writes nothing. -/
def stage (x : Except ε α) : Journal ω ε α := fun log => (x, log)

/-- The same program with its result seen through `f`. -/
def mapResult (f : Except ε α → Except ε' β) (x : Journal ω ε α) : Journal ω ε' β :=
  fun log => (f (x log).1, (x log).2)

theorem bind_of_ok {x : Journal ω ε α} {f : α → Journal ω ε β} {log log' : List ω} {a : α}
    (h : x log = (.ok a, log')) : (x >>= f) log = f a log' := by
  show (match x log with | (.ok a, log') => f a log' | (.error e, log') => (.error e, log')) = _
  rw [h]

theorem bind_of_error {x : Journal ω ε α} {f : α → Journal ω ε β} {log log' : List ω} {e : ε}
    (h : x log = (.error e, log')) : (x >>= f) log = (.error e, log') := by
  show (match x log with | (.ok a, log') => f a log' | (.error e, log') => (.error e, log')) = _
  rw [h]

/-- **Inversion.** -/
theorem bind_eq_ok_iff {x : Journal ω ε α} {f : α → Journal ω ε β} {log log' : List ω} {b : β} :
    (x >>= f) log = (.ok b, log') ↔
      ∃ a between, x log = (.ok a, between) ∧ f a between = (.ok b, log') := by
  cases hx : x log with
  | mk result between =>
    cases result with
    | error e =>
      rw [bind_of_error hx]
      constructor
      · intro h
        cases h
      · rintro ⟨a, between', h, _⟩
        cases h
    | ok a =>
      rw [bind_of_ok hx]
      constructor
      · intro h
        exact ⟨a, between, rfl, h⟩
      · rintro ⟨a', between', h, hf⟩
        cases h
        exact hf

/-- **The result of a program** is that of the plain one whose steps have the same
results. -/
theorem result_bind {x : Journal ω ε α} {y : Except ε α} {f : α → Journal ω ε β}
    {g : α → Except ε β} {log : List ω} (hx : (x log).1 = y)
    (hf : ∀ a log', x log = (.ok a, log') → (f a log').1 = g a) :
    ((x >>= f) log).1 = (y >>= g) := by
  cases hlog : x log with
  | mk result log' =>
    rw [hlog] at hx
    cases result with
    | error e =>
      rw [bind_of_error hlog, ← hx]
      rfl
    | ok a =>
      rw [bind_of_ok hlog, ← hx, hf a log' hlog]
      rfl

theorem result_stage_bind {y : Except ε α} {f : α → Journal ω ε β} {g : α → Except ε β}
    {log : List ω} (hf : ∀ a, y = .ok a → (f a log).1 = g a) :
    ((stage y >>= f) log).1 = (y >>= g) := by
  apply result_bind rfl
  intro a log' h
  cases h
  exact hf a rfl

theorem stage_bind_eq_ok_iff {y : Except ε α} {f : α → Journal ω ε β} {log log' : List ω} {b : β} :
    (stage y >>= f) log = (.ok b, log') ↔ ∃ a, y = .ok a ∧ f a log = (.ok b, log') := by
  rw [bind_eq_ok_iff]
  constructor
  · rintro ⟨a, between, hy, hf⟩
    cases hy
    exact ⟨a, rfl, hf⟩
  · rintro ⟨a, rfl, hf⟩
    exact ⟨a, log, rfl, hf⟩

end Journal
