import Mathlib.Data.List.Forall2

/-!
# Loops that may fail

Inversion of `Except` programs over lists: what a loop has done when it
returns (`mapM_eq_ok_iff`), the loop rule for a fold (`foldlM_invariant`), when a fold
whose steps fail for the element alone returns (`foldlM_isOk_iff`), and when a
loop never comes to one kind of failure (`mapM_ne_error_iff`).
-/

namespace Fallible

variable {ε α β σ : Type}

theorem bind_eq_ok_iff {x : Except ε α} {f : α → Except ε β} {b : β} :
    (x >>= f) = .ok b ↔ ∃ a, x = .ok a ∧ f a = .ok b := by
  cases x with
  | error e => exact ⟨nofun, nofun⟩
  | ok a =>
    constructor
    · intro h
      exact ⟨a, rfl, h⟩
    · rintro ⟨_, ⟨⟩, h⟩
      exact h

theorem mapError_eq_ok_iff {ε' : Type} {x : Except ε α} {f : ε → ε'} {a : α} :
    x.mapError f = .ok a ↔ x = .ok a := by
  cases x with
  | error e => exact ⟨nofun, nofun⟩
  | ok b => simp [Except.mapError]

theorem map_eq_ok_iff {x : Except ε α} {f : α → β} {b : β} :
    x.map f = .ok b ↔ ∃ a, x = .ok a ∧ f a = b := by
  cases x with
  | error e => simp [Except.map]
  | ok a => simp [Except.map]

@[simp] theorem isOk_ok (a : α) : (Except.ok a : Except ε α).isOk = true := rfl

@[simp] theorem isOk_error (e : ε) : (Except.error e : Except ε α).isOk = false := rfl

theorem isOk_iff_exists {x : Except ε α} : x.isOk ↔ ∃ a, x = .ok a := by
  cases x <;> simp

theorem bind_ne_error_iff {x : Except ε α} {f : α → Except ε β} {e : ε} :
    (x >>= f) ≠ .error e ↔ x ≠ .error e ∧ ∀ a, x = .ok a → f a ≠ .error e := by
  cases x with
  | error e' =>
    show Except.error e' ≠ Except.error e ↔ _
    simp
  | ok a =>
    show f a ≠ .error e ↔ _
    simp

theorem isOk_bind_pure (x : Except ε α) (f : α → β) :
    (x >>= fun a => pure (f a)).isOk ↔ x.isOk := by
  cases x <;> exact Iff.rfl

theorem bind_pure_eq_error_iff {x : Except ε α} {f : α → β} {e : ε} :
    (x >>= fun a => pure (f a)) = .error e ↔ x = .error e := by
  cases x with
  | error e' =>
    show Except.error e' = Except.error e ↔ _
    simp
  | ok a => exact ⟨nofun, nofun⟩

theorem mapM_eq_ok_iff {f : α → Except ε β} {l : List α} {r : List β} :
    l.mapM f = .ok r ↔ List.Forall₂ (fun a b => f a = .ok b) l r := by
  induction l generalizing r with
  | nil =>
    rw [List.mapM_nil, List.forall₂_nil_left_iff]
    constructor
    · intro h
      cases h
      rfl
    · rintro rfl
      rfl
  | cons a l ih =>
    rw [List.mapM_cons, List.forall₂_cons_left_iff]
    constructor
    · intro h
      obtain ⟨b, hb, h⟩ := bind_eq_ok_iff.mp h
      obtain ⟨bs, hbs, h⟩ := bind_eq_ok_iff.mp h
      cases h
      exact ⟨b, bs, hb, ih.mp hbs, rfl⟩
    · rintro ⟨b, bs, hb, hbs, rfl⟩
      exact bind_eq_ok_iff.mpr ⟨b, hb, bind_eq_ok_iff.mpr ⟨bs, ih.mpr hbs, rfl⟩⟩

theorem exists_mapM_ok {f : α → Except ε β} {l : List α} (h : ∀ a ∈ l, ∃ b, f a = .ok b) :
    ∃ r, l.mapM f = .ok r := by
  induction l with
  | nil => exact ⟨[], rfl⟩
  | cons a l ih =>
    obtain ⟨b, hb⟩ := h a (List.mem_cons_self ..)
    obtain ⟨r, hr⟩ := ih fun a' ha' => h a' (List.mem_cons_of_mem _ ha')
    rw [List.mapM_cons]
    exact ⟨b :: r, bind_eq_ok_iff.mpr ⟨b, hb, bind_eq_ok_iff.mpr ⟨r, hr, rfl⟩⟩⟩

theorem exists_left_of_mem {R : α → β → Prop} {l : List α} {r : List β} (h : List.Forall₂ R l r)
    {b : β} (hb : b ∈ r) : ∃ a ∈ l, R a b := by
  induction h with
  | nil => cases hb
  | @cons a b' l r hab _ ih =>
    rcases List.mem_cons.mp hb with rfl | hr
    · exact ⟨a, List.mem_cons_self .., hab⟩
    · obtain ⟨a', ha', hR⟩ := ih hr
      exact ⟨a', List.mem_cons_of_mem _ ha', hR⟩

theorem exists_right_of_mem {R : α → β → Prop} {l : List α} {r : List β} (h : List.Forall₂ R l r)
    {a : α} (ha : a ∈ l) : ∃ b ∈ r, R a b :=
  exists_left_of_mem (R := fun b a => R a b) h.flip ha

theorem exists_of_mem_mapM {f : α → Except ε β} {l : List α} {r : List β} (h : l.mapM f = .ok r)
    {b : β} (hb : b ∈ r) : ∃ a ∈ l, f a = .ok b :=
  exists_left_of_mem (mapM_eq_ok_iff.mp h) hb

/-- The results of a loop. -/
theorem mem_mapM_iff {f : α → Except ε β} {l : List α} {r : List β} (h : l.mapM f = .ok r) {b : β} :
    b ∈ r ↔ ∃ a ∈ l, f a = .ok b := by
  constructor
  · exact exists_of_mem_mapM h
  · rintro ⟨a, ha, hb⟩
    obtain ⟨b', hb', hab⟩ := exists_right_of_mem (mapM_eq_ok_iff.mp h) ha
    cases hb.symm.trans hab
    exact hb'

/-- Results that are changed one by one. -/
theorem mapM_map {γ : Type} (f : α → Except ε β) (g : β → γ) (l : List α) :
    (l.mapM fun a => (f a).map g) = (l.mapM f).map (List.map g) := by
  induction l with
  | nil => rfl
  | cons a l ih =>
    rw [List.mapM_cons, List.mapM_cons, ih]
    cases f a with
    | error e => rfl
    | ok b =>
      cases l.mapM f with
      | error e => rfl
      | ok bs => rfl

/-- A failed loop fails as one of its elements does. -/
theorem exists_of_mapM_error {f : α → Except ε β} {l : List α} {e : ε}
    (h : l.mapM f = .error e) : ∃ a ∈ l, f a = .error e := by
  induction l with
  | nil => cases h
  | cons a l ih =>
    rw [List.mapM_cons] at h
    cases ha : f a with
    | error e' =>
      rw [ha] at h
      cases h
      exact ⟨a, List.mem_cons_self .., ha⟩
    | ok b =>
      rw [ha] at h
      have htail : l.mapM f = .error e := bind_pure_eq_error_iff.mp h
      obtain ⟨c, hc, hce⟩ := ih htail
      exact ⟨c, List.mem_cons_of_mem a hc, hce⟩

theorem getElem?_mapM {f : α → Except ε β} {l : List α} {r : List β} (h : l.mapM f = .ok r)
    {i : Nat} {a : α} (ha : l[i]? = some a) : ∃ b, r[i]? = some b ∧ f a = .ok b := by
  induction mapM_eq_ok_iff.mp h generalizing i with
  | nil => cases ha
  | @cons a' b' l r hab hrest ih =>
    cases i with
    | zero => cases ha; exact ⟨b', rfl, hab⟩
    | succ i => exact ih (mapM_eq_ok_iff.mpr hrest) ha

/-- A loop that numbers its results. -/
theorem mapM_zipIdx_eq_ok {κ : Type} (g : α → Except ε β) (key : Nat → κ) {l : List α} {n : Nat}
    {r : List (κ × β)}
    (h : ((l.zipIdx n).mapM fun p => do
      let b ← g p.1
      return (key p.2, b)) = .ok r) :
    ∃ bs, l.mapM g = .ok bs ∧ r = (bs.zipIdx n).map fun p => (key p.2, p.1) := by
  induction l generalizing n r with
  | nil => cases h; exact ⟨[], rfl, rfl⟩
  | cons a l ih =>
    rw [List.zipIdx_cons, List.mapM_cons] at h
    obtain ⟨p, hp, h⟩ := bind_eq_ok_iff.mp h
    obtain ⟨ps, hps, h⟩ := bind_eq_ok_iff.mp h
    obtain ⟨b, hb, hp⟩ := bind_eq_ok_iff.mp hp
    obtain ⟨bs, hbs, rfl⟩ := ih hps
    cases hp
    cases h
    refine ⟨b :: bs, ?_, rfl⟩
    rw [List.mapM_cons]
    exact bind_eq_ok_iff.mpr ⟨b, hb, bind_eq_ok_iff.mpr ⟨bs, hbs, rfl⟩⟩

theorem forM_eq_ok_iff {f : α → Except ε Unit} {l : List α} :
    l.forM f = .ok () ↔ ∀ a ∈ l, f a = .ok () := by
  induction l with
  | nil => exact ⟨fun _ => nofun, fun _ => rfl⟩
  | cons a l ih =>
    have hcons : (a :: l).forM f = (f a >>= fun _ => l.forM f) := rfl
    rw [hcons, List.forall_mem_cons, bind_eq_ok_iff, ← ih]
    exact ⟨fun ⟨⟨⟩, ha, hl⟩ => ⟨ha, hl⟩, fun ⟨ha, hl⟩ => ⟨(), ha, hl⟩⟩

/-- **Loop rule.**  An invariant on the elements done so far, kept by each
step, holds for the whole list at the end. -/
theorem foldlM_invariant {f : σ → α → Except ε σ} {I : List α → σ → Prop}
    (hstep : ∀ done a s s', I done s → f s a = .ok s' → I (done ++ [a]) s')
    {d l : List α} {s s' : σ} (hI : I d s) (h : l.foldlM f s = .ok s') :
    I (d ++ l) s' := by
  induction l generalizing d s with
  | nil => cases h; rwa [List.append_nil]
  | cons a l ih =>
    rw [List.foldlM_cons] at h
    obtain ⟨s₁, ha, hl⟩ := bind_eq_ok_iff.mp h
    have hrest := ih (hstep d a s s₁ hI ha) hl
    rwa [List.append_assoc] at hrest

/-- What a fold has done before its last step. -/
theorem foldlM_concat_eq_ok_iff {f : σ → α → Except ε σ} {l : List α} {a : α} {s s' : σ} :
    (l ++ [a]).foldlM f s = .ok s' ↔ ∃ t, l.foldlM f s = .ok t ∧ f t a = .ok s' := by
  rw [List.foldlM_append, bind_eq_ok_iff]
  refine exists_congr fun t => and_congr_right fun _ => ?_
  rw [List.foldlM_cons, bind_eq_ok_iff]
  constructor
  · rintro ⟨_, ha, ⟨⟩⟩
    exact ha
  · intro ha
    exact ⟨s', ha, rfl⟩

/-- A fold whose steps succeed or fail whatever the state returns when each of
its elements succeeds. -/
theorem foldlM_isOk_iff {f : σ → α → Except ε σ} {ok : α → Prop} {l : List α}
    (hok : ∀ a ∈ l, ∀ s, (f s a).isOk ↔ ok a) (s : σ) :
    (l.foldlM f s).isOk ↔ ∀ a ∈ l, ok a := by
  induction l generalizing s with
  | nil => exact ⟨fun _ => nofun, fun _ => rfl⟩
  | cons a l ih =>
    rw [List.foldlM_cons, List.forall_mem_cons]
    have ha := hok a (List.mem_cons_self ..)
    have hl := fun s => ih (fun b hb => hok b (List.mem_cons_of_mem _ hb)) s
    cases hf : f s a with
    | error e =>
      have hno := (not_congr (ha s)).mp (by rw [hf]; nofun)
      exact ⟨nofun, fun h => absurd h.1 hno⟩
    | ok s' =>
      have hyes := (ha s).mp (by rw [hf]; rfl)
      exact (hl s').trans ⟨fun h => ⟨hyes, h⟩, And.right⟩

/-! ## Equal results -/

/-- Two computations return the same or fail both. -/
def SameOk (x y : Except ε α) : Prop := ∀ a, x = .ok a ↔ y = .ok a

theorem SameOk.refl (x : Except ε α) : SameOk x x := fun _ => Iff.rfl

theorem SameOk.bind {x y : Except ε α} {f g : α → Except ε β} (hx : SameOk x y)
    (hf : ∀ a, SameOk (f a) (g a)) : SameOk (x >>= f) (y >>= g) := by
  intro b
  rw [bind_eq_ok_iff, bind_eq_ok_iff]
  exact exists_congr fun a => and_congr (hx a) (hf a b)

theorem SameOk.mapM {γ : Type} {f : α → Except ε β} {g : γ → Except ε β} {h : α → γ}
    {l : List α} (hsame : ∀ a ∈ l, SameOk (f a) (g (h a))) :
    SameOk (l.mapM f) ((l.map h).mapM g) := by
  induction l with
  | nil => exact SameOk.refl _
  | cons a l ih =>
    rw [List.map_cons, List.mapM_cons, List.mapM_cons]
    have hrest := ih fun b hb => hsame b (List.mem_cons_of_mem a hb)
    exact (hsame a List.mem_cons_self).bind fun b => hrest.bind fun bs => SameOk.refl _

/-! ## One kind of failure -/

/-- No element that stands behind `ok` ones only is `bad`. -/
def Avoids (ok bad : α → Prop) : List α → Prop
  | [] => True
  | a :: l => ¬ bad a ∧ (ok a → Avoids ok bad l)

theorem mapM_isOk_iff {f : α → Except ε β} {ok : α → Prop} {l : List α}
    (hok : ∀ a, (f a).isOk ↔ ok a) : (l.mapM f).isOk ↔ ∀ a ∈ l, ok a := by
  rw [isOk_iff_exists]
  constructor
  · rintro ⟨r, hr⟩ a ha
    obtain ⟨b, -, hb⟩ := exists_right_of_mem (mapM_eq_ok_iff.mp hr) ha
    exact (hok a).mp (isOk_iff_exists.mpr ⟨b, hb⟩)
  · intro h
    exact exists_mapM_ok fun a ha => isOk_iff_exists.mp ((hok a).mpr (h a ha))

/-- **A loop never comes to the failure `e`** when it meets no element that fails
so before one that fails otherwise. -/
theorem mapM_ne_error_iff {f : α → Except ε β} {e : ε} {ok bad : α → Prop} {l : List α}
    (hok : ∀ a, (f a).isOk ↔ ok a) (hbad : ∀ a, f a = .error e ↔ bad a) :
    l.mapM f ≠ .error e ↔ Avoids ok bad l := by
  induction l with
  | nil => exact ⟨fun _ => trivial, fun _ => nofun⟩
  | cons a l ih =>
    rw [List.mapM_cons, bind_ne_error_iff, Avoids, ← ih, ← hok, ← hbad, isOk_iff_exists]
    refine and_congr_right fun _ => ⟨?_, fun h b hb => ?_⟩
    · rintro h ⟨b, hb⟩ hl
      refine h b hb ?_
      rw [hl]
      rfl
    · rw [bind_ne_error_iff]
      exact ⟨h ⟨b, hb⟩, fun _ _ => nofun⟩

theorem avoids_of_forall {ok bad : α → Prop} {l : List α} (h : ∀ a ∈ l, ¬ bad a) :
    Avoids ok bad l := by
  induction l with
  | nil => trivial
  | cons a l ih =>
    exact ⟨h a List.mem_cons_self, fun _ => ih fun b hb => h b (List.mem_cons_of_mem a hb)⟩

theorem avoids_map {ok bad : β → Prop} {g : α → β} {l : List α} :
    Avoids ok bad (l.map g) ↔ Avoids (fun a => ok (g a)) (fun a => bad (g a)) l := by
  induction l with
  | nil => exact Iff.rfl
  | cons a l ih => rw [List.map_cons, Avoids, Avoids, ih]

section Numbered

variable {κ : Type} {g : α → Except ε β} {ok bad : α → Prop} {l : List α}

/-- A loop that numbers its results returns when the one without numbers does. -/
theorem mapM_zipIdx_isOk_iff (key : Nat → κ) (n : Nat) (hok : ∀ a, (g a).isOk ↔ ok a) :
    ((l.zipIdx n).mapM fun p : α × Nat => do
      let b ← g p.1
      return (key p.2, b)).isOk ↔ ∀ a ∈ l, ok a := by
  have hfst : l = (l.zipIdx n).map Prod.fst := (List.zipIdx_map_fst n l).symm
  conv_rhs => rw [hfst]
  rw [List.forall_mem_map]
  refine mapM_isOk_iff fun p => ?_
  rw [isOk_bind_pure, hok]

theorem mapM_zipIdx_ne_error_iff {e : ε} (key : Nat → κ) (n : Nat)
    (hok : ∀ a, (g a).isOk ↔ ok a) (hbad : ∀ a, g a = .error e ↔ bad a) :
    ((l.zipIdx n).mapM fun p : α × Nat => do
      let b ← g p.1
      return (key p.2, b)) ≠ .error e ↔ Avoids ok bad l := by
  have hfst : l = (l.zipIdx n).map Prod.fst := (List.zipIdx_map_fst n l).symm
  conv_rhs => rw [hfst]
  rw [avoids_map]
  refine mapM_ne_error_iff (fun p => ?_) fun p => ?_
  · rw [isOk_bind_pure, hok]
  · rw [bind_pure_eq_error_iff, hbad]

theorem exists_of_mapM_zipIdx_error {e : ε} (key : Nat → κ) (n : Nat)
    (h : ((l.zipIdx n).mapM fun p : α × Nat => do
      let b ← g p.1
      return (key p.2, b)) = .error e) : ∃ a ∈ l, g a = .error e := by
  obtain ⟨p, hp, hpe⟩ := exists_of_mapM_error h
  have hmem : p.1 ∈ (l.zipIdx n).map Prod.fst := List.mem_map_of_mem hp
  rw [List.zipIdx_map_fst] at hmem
  exact ⟨p.1, hmem, bind_pure_eq_error_iff.mp hpe⟩

end Numbered

/-- Every failure is of one kind. -/
def FailsWithin (P : ε → Prop) (x : Except ε α) : Prop := ∀ e, x = .error e → P e

theorem failsWithin_ok (P : ε → Prop) (a : α) : FailsWithin P (.ok a : Except ε α) := by
  intro e h
  cases h

theorem failsWithin_error {P : ε → Prop} {e : ε} (h : P e) :
    FailsWithin P (.error e : Except ε α) := by
  intro e' he
  cases he
  exact h

theorem FailsWithin.mono {P Q : ε → Prop} {x : Except ε α} (hx : FailsWithin P x)
    (h : ∀ e, P e → Q e) : FailsWithin Q x := by
  intro e he
  exact h e (hx e he)

theorem FailsWithin.bind {P : ε → Prop} {x : Except ε α} {f : α → Except ε β}
    (hx : FailsWithin P x) (hf : ∀ a, FailsWithin P (f a)) : FailsWithin P (x >>= f) := by
  cases x with
  | ok a => exact hf a
  | error e =>
    intro e' h
    cases h
    exact hx e rfl

theorem FailsWithin.bind_pure {P : ε → Prop} {x : Except ε α} (hx : FailsWithin P x)
    (f : α → β) : FailsWithin P (x >>= fun a => pure (f a)) := by
  apply hx.bind
  intro a
  exact failsWithin_ok P (f a)

theorem FailsWithin.mapM {P : ε → Prop} {f : α → Except ε β} (h : ∀ a, FailsWithin P (f a))
    (l : List α) : FailsWithin P (l.mapM f) := by
  induction l with
  | nil => exact failsWithin_ok P []
  | cons a l ih =>
    rw [List.mapM_cons]
    apply (h a).bind
    intro b
    exact ih.bind_pure (b :: ·)

theorem FailsWithin.mapError {ε' : Type} {P : ε' → Prop} {f : ε → ε'} (h : ∀ e, P (f e))
    (x : Except ε α) : FailsWithin P (x.mapError f) := by
  cases x with
  | ok a => exact failsWithin_ok P a
  | error e => exact failsWithin_error (h e)

/-- The only failure is `e`. -/
def FailsOnly (e : ε) (x : Except ε α) : Prop := ∀ e', x = .error e' → e' = e

theorem FailsOnly.eq_error_iff {e : ε} {x : Except ε α} (h : FailsOnly e x) :
    x = .error e ↔ ¬ x.isOk := by
  cases x with
  | ok a => simp
  | error e' => simp [h e' rfl]

theorem FailsOnly.bind {e : ε} {x : Except ε α} {f : α → Except ε β} (hx : FailsOnly e x)
    (hf : ∀ a, FailsOnly e (f a)) : FailsOnly e (x >>= f) :=
  FailsWithin.bind hx hf

theorem FailsOnly.mapM {e : ε} {f : α → Except ε β} (h : ∀ a, FailsOnly e (f a)) (l : List α) :
    FailsOnly e (l.mapM f) :=
  FailsWithin.mapM h l

theorem FailsOnly.forM {e : ε} {f : α → Except ε Unit} {l : List α}
    (h : ∀ a ∈ l, FailsOnly e (f a)) : FailsOnly e (l.forM f) := by
  induction l with
  | nil =>
    intro e' h
    cases h
  | cons a l ih =>
    have hrest := ih fun b hb => h b (List.mem_cons_of_mem a hb)
    exact (h a List.mem_cons_self).bind fun _ => hrest

theorem isOk_bind_iff {x : Except ε α} {f : α → Except ε β} :
    (x >>= f).isOk ↔ ∃ a, x = .ok a ∧ (f a).isOk := by
  cases x with
  | error e => exact ⟨nofun, nofun⟩
  | ok a =>
    refine ⟨fun h => ⟨a, rfl, h⟩, ?_⟩
    rintro ⟨_, ⟨⟩, h⟩
    exact h

/-- Two lists that go through one conversion. -/
theorem isOk_mapM_pair {γ : Type} {f : α → Except ε β} {p : α → Bool}
    (hok : ∀ a, (f a).isOk = p a) (xs ys : List α) (g : List β → List β → γ) :
    (do
      let bs ← xs.mapM f
      let cs ← ys.mapM f
      return g bs cs : Except ε γ).isOk ↔ (xs ++ ys).all p := by
  have hall : ∀ l : List α, (l.mapM f).isOk ↔ l.all p := fun l => by
    rw [mapM_isOk_iff fun a => by rw [hok a], List.all_eq_true]
  rw [List.all_append, Bool.and_eq_true, ← hall xs, ← hall ys, isOk_bind_iff,
    isOk_iff_exists (x := xs.mapM f)]
  simp only [isOk_bind_pure]
  exact exists_and_right

/-! ## Related results -/

/-- Both return, and what they return is related, or both fail with one error. -/
inductive SameOutcome {σ τ : Type} (R : σ → τ → Prop) : Except ε σ → Except ε τ → Prop
  | ok {s : σ} {t : τ} (related : R s t) : SameOutcome R (.ok s) (.ok t)
  | error (e : ε) : SameOutcome R (.error e) (.error e)

section SameOutcome

variable {σ τ σ' τ' : Type} {R : σ → τ → Prop} {S : σ' → τ' → Prop}

theorem SameOutcome.bind {x : Except ε σ} {y : Except ε τ} {f : σ → Except ε σ'}
    {g : τ → Except ε τ'} (h : SameOutcome R x y) (hfg : ∀ s t, R s t → SameOutcome S (f s) (g t)) :
    SameOutcome S (x >>= f) (y >>= g) := by
  cases h with
  | ok hrelated => exact hfg _ _ hrelated
  | error e => exact .error e

theorem SameOutcome.mapLeft {x : Except ε σ} {y : Except ε τ} {f : σ → σ'} {S : σ' → τ → Prop}
    (h : SameOutcome R x y) (hf : ∀ s t, R s t → S (f s) t) :
    SameOutcome S (x >>= fun s => pure (f s)) y := by
  cases h with
  | ok hrelated => exact .ok (hf _ _ hrelated)
  | error e => exact .error e

theorem SameOutcome.foldlM {f : σ → α → Except ε σ} {g : τ → α → Except ε τ}
    (hstep : ∀ a s t, R s t → SameOutcome R (f s a) (g t a)) (l : List α) {s : σ} {t : τ}
    (h : R s t) : SameOutcome R (l.foldlM f s) (l.foldlM g t) := by
  induction l generalizing s t with
  | nil => exact .ok h
  | cons a l ih =>
    rw [List.foldlM_cons, List.foldlM_cons]
    exact (hstep a s t h).bind fun _ _ => ih

end SameOutcome

end Fallible
