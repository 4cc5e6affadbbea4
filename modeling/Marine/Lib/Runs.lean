import Mathlib.Data.Option.Basic

/-!
# Runs of a partial step function

A system is a step function `step : σ → ε → Option σ`: the state after an
event, or `none` when the event ends the process.  Proved here, for every
such system:

* `along_of_invariant`: an invariant kept by the steps that meet a condition
  carries a property of single steps to whole runs;
* `run_invariant`: the same for the state a run ends in;
* `along_iff_of_rel`: two systems whose steps keep a relation have conditions along
  their runs that are equivalent step by step;
* `always_iff_along`: when one step from a good state ends in good states
  exactly if it meets a condition, a run stays in good states exactly if all
  its steps meet the condition.
-/

namespace Runs

variable {σ ε : Type*} (step : σ → ε → Option σ)

/-- The state after a list of events, `none` once the process is gone. -/
def run : σ → List ε → Option σ
  | s, [] => some s
  | s, e :: es => (step s e).bind fun s' => run s' es

/-- Every step of the run from `s` meets `P`, read at the state before it. -/
def Along (P : σ → ε → Prop) : σ → List ε → Prop
  | _, [] => True
  | s, e :: es => P s e ∧ ∀ s' ∈ step s e, Along P s' es

/-- Every state of the run from `s` meets `I`, the first and last included. -/
def Always (I : σ → Prop) : σ → List ε → Prop
  | s, [] => I s
  | s, e :: es => I s ∧ ∀ s' ∈ step s e, Always I s' es

variable {step}

theorem Along.mono {P Q : σ → ε → Prop} (h : ∀ s e, P s e → Q s e) {s : σ} {es : List ε}
    (hP : Along step P s es) : Along step Q s es := by
  induction es generalizing s with
  | nil => trivial
  | cons e es ih => exact ⟨h s e hP.1, fun s' hs' => ih (hP.2 s' hs')⟩

theorem along_true (s : σ) (es : List ε) : Along step (fun _ _ => True) s es := by
  induction es generalizing s with
  | nil => trivial
  | cons e es ih => exact ⟨trivial, fun s' _ => ih s'⟩

/-- A condition on the events alone. -/
theorem along_of_forall {P : ε → Prop} {es : List ε} (h : ∀ e ∈ es, P e) (s : σ) :
    Along step (fun _ e => P e) s es := by
  induction es generalizing s with
  | nil => trivial
  | cons e es ih =>
    exact ⟨h e (List.mem_cons_self ..), fun s' _ =>
      ih (fun e he => h e (List.mem_cons_of_mem _ he)) s'⟩

theorem Along.and {P Q : σ → ε → Prop} {s : σ} {es : List ε} (hP : Along step P s es)
    (hQ : Along step Q s es) : Along step (fun s e => P s e ∧ Q s e) s es := by
  induction es generalizing s with
  | nil => trivial
  | cons e es ih => exact ⟨⟨hP.1, hQ.1⟩, fun s' hs' => ih (hP.2 s' hs') (hQ.2 s' hs')⟩

/-- **Run lemma.**  If steps that meet `C` keep the invariant `I` and meet `Q`
under it, then `Q` holds along every run from `I` whose steps meet `C`. -/
theorem along_of_invariant {I : σ → Prop} {C Q : σ → ε → Prop}
    (hstep : ∀ s e, I s → C s e → Q s e ∧ ∀ s' ∈ step s e, I s')
    {s : σ} {es : List ε} (hI : I s) (hC : Along step C s es) : Along step Q s es := by
  induction es generalizing s with
  | nil => trivial
  | cons e es ih =>
    obtain ⟨hq, hI'⟩ := hstep s e hI hC.1
    exact ⟨hq, fun s' hs' => ih (hI' s' hs') (hC.2 s' hs')⟩

theorem run_invariant {I : σ → Prop} {C : σ → ε → Prop}
    (hstep : ∀ s e, I s → C s e → ∀ s' ∈ step s e, I s')
    {s s' : σ} {es : List ε} (hI : I s) (hC : Along step C s es) (hr : run step s es = some s') :
    I s' := by
  induction es generalizing s with
  | nil => cases hr; exact hI
  | cons e es ih =>
    obtain ⟨t, ht, hrun⟩ := Option.bind_eq_some_iff.mp hr
    exact ih (hstep s e hI hC.1 t ht) (hC.2 t ht) hrun

/-- **Systems side by side.**  Both step or both end, and stay related. -/
theorem along_iff_of_rel {τ : Type*} {step' : τ → ε → Option τ} {R : σ → τ → Prop}
    {P : σ → ε → Prop} {Q : τ → ε → Prop}
    (hstep : ∀ s t e, R s t → Option.Rel R (step s e) (step' t e))
    (hsame : ∀ s t e, R s t → (P s e ↔ Q t e)) {s : σ} {t : τ} (h : R s t) (es : List ε) :
    Along step P s es ↔ Along step' Q t es := by
  induction es generalizing s t with
  | nil => exact Iff.rfl
  | cons e es ih =>
    refine and_congr (hsame s t e h) ?_
    generalize hs : step s e = after
    generalize ht : step' t e = after'
    have hrel := hstep s t e h
    rw [hs, ht] at hrel
    cases hrel with
    | none => simp
    | some h' => simpa using ih h'

/-- **Exactness of a condition.**  From a good state, the run stays among the
good states exactly when each of its steps meets the condition. -/
theorem always_iff_along {I : σ → Prop} {C : σ → ε → Prop}
    (hstep : ∀ s e, I s → (C s e ↔ ∀ s' ∈ step s e, I s'))
    {s : σ} {es : List ε} (hI : I s) : Always step I s es ↔ Along step C s es := by
  induction es generalizing s with
  | nil => exact ⟨fun _ => trivial, fun _ => hI⟩
  | cons e es ih =>
    constructor
    · rintro ⟨-, hrest⟩
      have hgood : ∀ s' ∈ step s e, I s' := by
        intro s' hs'
        have := hrest s' hs'
        cases es with
        | nil => exact this
        | cons _ _ => exact this.1
      exact ⟨(hstep s e hI).mpr hgood, fun s' hs' => (ih (hgood s' hs')).mp (hrest s' hs')⟩
    · rintro ⟨hc, hrest⟩
      have hgood := (hstep s e hI).mp hc
      exact ⟨hI, fun s' hs' => (ih (hgood s' hs')).mpr (hrest s' hs')⟩

end Runs
