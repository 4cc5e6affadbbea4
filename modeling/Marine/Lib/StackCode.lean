import Mathlib.Data.List.Basic

/-!
# Straight-line code on a typed stack

Instructions change a stack of types, or do not apply to it.  `Moves step code
pops pushes` says that code replaces `pops` by `pushes` at the top of any
stack; its rules put code together.

* `Moves.append`: sequencing.
* `Moves.frame`: what lies below is kept.
* `step_of_exec`: in code that runs every instruction has applied.
-/

namespace StackCode

variable {ι τ : Type}

/-- Run code on a stack, given top first. -/
def exec (step : ι → List τ → Option (List τ)) : List ι → List τ → Option (List τ)
  | [], stack => some stack
  | i :: code, stack => (step i stack).bind (exec step code)

/-- Take `pops` from the top of a stack and put `pushes` there. -/
def popPush [DecidableEq τ] (pops pushes stack : List τ) : Option (List τ) :=
  if pops.isPrefixOf stack then some (pushes ++ stack.drop pops.length) else none

theorem popPush_append [DecidableEq τ] (pops pushes rest : List τ) :
    popPush pops pushes (pops ++ rest) = some (pushes ++ rest) := by
  have hprefix : pops.isPrefixOf (pops ++ rest) := List.isPrefixOf_iff_prefix.mpr ⟨rest, rfl⟩
  rw [popPush, if_pos hprefix, List.drop_left]

variable {step : ι → List τ → Option (List τ)}

theorem exec_append (code code' : List ι) (stack : List τ) :
    exec step (code ++ code') stack = (exec step code stack).bind (exec step code') := by
  induction code generalizing stack with
  | nil => rfl
  | cons i code ih =>
    rw [List.cons_append, exec, exec]
    cases step i stack with
    | none => rfl
    | some stack' => exact ih stack'

/-- Code that runs to its end has run each of its instructions. -/
theorem step_of_exec {code : List ι} {stack stack' : List τ}
    (h : exec step code stack = some stack') {i : ι} (hi : i ∈ code) :
    ∃ s s', step i s = some s' := by
  induction code generalizing stack with
  | nil => cases hi
  | cons j code ih =>
    obtain ⟨next, hj, hcode⟩ := Option.bind_eq_some_iff.mp h
    rcases List.mem_cons.mp hi with rfl | hi
    · exact ⟨stack, next, hj⟩
    · exact ih hcode hi

/-- `code` replaces `pops` by `pushes`, whatever lies below. -/
def Moves (step : ι → List τ → Option (List τ)) (code : List ι) (pops pushes : List τ) : Prop :=
  ∀ rest, exec step code (pops ++ rest) = some (pushes ++ rest)

namespace Moves

variable {code code' : List ι} {s s' s'' : List τ}

theorem nil (s : List τ) : Moves step [] s s := fun _ => rfl

theorem single {i : ι} (h : ∀ rest, step i (s ++ rest) = some (s' ++ rest)) :
    Moves step [i] s s' := by
  intro rest
  rw [exec, h]
  rfl

theorem append (h : Moves step code s s') (h' : Moves step code' s' s'') :
    Moves step (code ++ code') s s'' := by
  intro rest
  rw [exec_append, h rest]
  exact h' rest

theorem frame (h : Moves step code s s') (below : List τ) :
    Moves step code (s ++ below) (s' ++ below) := by
  intro rest
  rw [List.append_assoc, List.append_assoc]
  exact h (below ++ rest)

theorem exec_eq (h : Moves step code s s') : exec step code s = some s' := by
  have hempty := h []
  rwa [List.append_nil, List.append_nil] at hempty

end Moves

end StackCode
