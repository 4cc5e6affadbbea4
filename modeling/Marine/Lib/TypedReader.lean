import Mathlib.Data.List.Basic

/-!
# Readers of typed values

A reader takes values off the front of a list and may fail.  `Reads sig read`
says that `read` is made for values of the types `sig`: it consumes exactly
these when it succeeds, and when they are there it reports no mismatch.  The
rules below follow the shape of a reader: `reads_next` for one value,
`Reads.bind` for two readers in a row, `Reads.effect` for a computation that
takes no values, `Reads.pure` for the end.

`exact_of_reads` is the use of a reader: on values of its types it consumes
all of them or fails for another reason than a mismatch.
-/

namespace TypedReader

variable {ι τ ε α β : Type} {typeOf : ι → τ} {Mismatch : ε → Prop}

structure Reads (typeOf : ι → τ) (Mismatch : ε → Prop) (sig : List τ)
    (read : List ι → Except ε (α × List ι)) : Prop where
  consumes : ∀ {vs a rest}, read vs = .ok (a, rest) →
    vs.map typeOf = sig ++ rest.map typeOf
  noMismatch : ∀ {vs tys}, vs.map typeOf = sig ++ tys → ∀ {e}, read vs = .error e → ¬ Mismatch e

/-- Take one value that `get` can read. -/
def next (empty : ε) (wrong : ι → ε) (get : ι → Option α) : List ι → Except ε (α × List ι)
  | [] => .error empty
  | v :: rest =>
    match get v with
    | some w => .ok (w, rest)
    | none => .error (wrong v)

theorem reads_next {ty : τ} {empty : ε} {wrong : ι → ε} {get : ι → Option α}
    (hget : ∀ v, (get v).isSome ↔ typeOf v = ty) :
    Reads typeOf Mismatch [ty] (next empty wrong get) := by
  constructor
  · intro vs a rest h
    cases vs with
    | nil => cases h
    | cons v vs =>
      simp only [next] at h
      split at h
      · next w hw =>
        cases h
        rw [List.map_cons, (hget v).mp (by simp [hw]), List.singleton_append]
      · cases h
  · intro vs tys hvs e h
    cases vs with
    | nil => cases hvs
    | cons v vs =>
      rw [List.map_cons, List.singleton_append, List.cons.injEq] at hvs
      obtain ⟨w, hw⟩ := Option.isSome_iff_exists.mp ((hget v).mpr hvs.1)
      simp [next, hw] at h

theorem Reads.pure (a : α) :
    Reads typeOf Mismatch [] fun vs => (.ok (a, vs) : Except ε (α × List ι)) := by
  constructor
  · rintro vs a rest ⟨⟩
    rfl
  · rintro vs tys - e ⟨⟩

/-- **Sequence rule.**  Two readers in a row take their types in a row. -/
theorem Reads.bind {sig sig' : List τ} {read : List ι → Except ε (α × List ι)}
    {read' : α → List ι → Except ε (β × List ι)} (h : Reads typeOf Mismatch sig read)
    (h' : ∀ a, Reads typeOf Mismatch sig' (read' a)) :
    Reads typeOf Mismatch (sig ++ sig') fun vs => read vs >>= fun p => read' p.1 p.2 := by
  constructor
  · intro vs b rest hok
    cases hread : read vs with
    | error e => simp only [hread] at hok; cases hok
    | ok p =>
      simp only [hread] at hok
      rw [h.consumes hread, (h' p.1).consumes hok, List.append_assoc]
  · intro vs tys hvs e herr
    rw [List.append_assoc] at hvs
    cases hread : read vs with
    | error e' =>
      simp only [hread] at herr
      cases herr
      exact h.noMismatch hvs hread
    | ok p =>
      simp only [hread] at herr
      have hrest := List.append_cancel_left ((h.consumes hread).symm.trans hvs)
      exact (h' p.1).noMismatch hrest herr

theorem Reads.effect {sig : List τ} {x : Except ε α} {read : α → List ι → Except ε (β × List ι)}
    (hx : ∀ e, x = .error e → ¬ Mismatch e) (h : ∀ a, Reads typeOf Mismatch sig (read a)) :
    Reads typeOf Mismatch sig fun vs => x >>= fun a => read a vs := by
  constructor
  · intro vs b rest hok
    cases x with
    | error e => cases hok
    | ok a => exact (h a).consumes hok
  · intro vs tys hvs e herr
    cases x with
    | error e' => cases herr; exact hx _ rfl
    | ok a => exact (h a).noMismatch hvs herr

theorem exact_of_reads {sig : List τ} {read : List ι → Except ε (α × List ι)}
    (h : Reads typeOf Mismatch sig read) {vs : List ι} (hvs : vs.map typeOf = sig) :
    (∀ a rest, read vs = .ok (a, rest) → rest = []) ∧
      ∀ e, read vs = .error e → ¬ Mismatch e := by
  refine ⟨fun a rest hok => ?_, fun e herr => ?_⟩
  · have hlen := congrArg List.length ((h.consumes hok).symm.trans hvs)
    simp only [List.length_append, List.length_map] at hlen
    exact List.eq_nil_of_length_eq_zero (by omega)
  · have hnil : vs.map typeOf = sig ++ [] := by simpa using hvs
    exact h.noMismatch hnil herr

/-! ## Readers that only fail on a mismatch -/

/-- Every failure of the reader is a mismatch. -/
structure OnlyMismatch (Mismatch : ε → Prop) (read : List ι → Except ε (α × List ι)) : Prop where
  mismatch : ∀ {vs e}, read vs = .error e → Mismatch e

theorem onlyMismatch_next {empty : ε} {wrong : ι → ε} {get : ι → Option α} (hempty : Mismatch empty)
    (hwrong : ∀ v, Mismatch (wrong v)) : OnlyMismatch Mismatch (next empty wrong get) := by
  constructor
  intro vs e h
  cases vs with
  | nil => cases h; exact hempty
  | cons v vs =>
    simp only [next] at h
    split at h
    · cases h
    · cases h; exact hwrong v

theorem onlyMismatch_pure (a : α) :
    OnlyMismatch Mismatch fun vs => (.ok (a, vs) : Except ε (α × List ι)) := by
  constructor
  rintro vs e ⟨⟩

theorem OnlyMismatch.bind {read : List ι → Except ε (α × List ι)}
    {read' : α → List ι → Except ε (β × List ι)} (h : OnlyMismatch Mismatch read)
    (h' : ∀ a, OnlyMismatch Mismatch (read' a)) :
    OnlyMismatch Mismatch fun vs => read vs >>= fun p => read' p.1 p.2 := by
  constructor
  intro vs e herr
  cases hread : read vs with
  | error e' => simp only [hread] at herr; cases herr; exact h.mismatch hread
  | ok p => simp only [hread] at herr; exact (h' p.1).mismatch herr

/-- Two tables of types that give one total list, the first never longer than
the second, agree on every element. -/
theorem flatMap_agree {κ : Type} {f g : κ → List τ} {l : List κ}
    (hle : ∀ k ∈ l, (f k).length ≤ (g k).length) (h : l.flatMap f = l.flatMap g) :
    ∀ k ∈ l, f k = g k := by
  have total : ∀ l : List κ, (∀ k ∈ l, (f k).length ≤ (g k).length) →
      (l.flatMap f).length ≤ (l.flatMap g).length := by
    intro l hl
    induction l with
    | nil => simp
    | cons k l ih =>
      have hk := hl k (List.mem_cons_self ..)
      have hrest := ih fun k' hk' => hl k' (List.mem_cons_of_mem _ hk')
      simp only [List.flatMap_cons, List.length_append]
      omega
  induction l with
  | nil => simp
  | cons k l ih =>
    have hk := hle k (List.mem_cons_self ..)
    have hl := fun k' hk' => hle k' (List.mem_cons_of_mem k hk')
    have hrest := total l hl
    simp only [List.flatMap_cons] at h
    have hlen := congrArg List.length h
    simp only [List.length_append] at hlen
    obtain ⟨hhead, htail⟩ := List.append_inj h (by omega)
    intro k' hk'
    rcases List.mem_cons.mp hk' with rfl | hmem
    · exact hhead
    · exact ih hl htail k' hmem

end TypedReader
