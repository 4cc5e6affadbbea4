import Marine.Loader.ItInterface

/-!
# The exported records

The recursion over the types of the exported functions collects the records it
comes by.  When it succeeds it has come by all that can be reached.

* `handleItype_collects`: what one type adds.
* `getInterface_closure`: the exported records are the reachable ones.
-/

namespace Marine.Loader

/-- Record `id` can be reached from a type through elements and fields. -/
def ReachesRecord (allRecordTypes : RecordTypes) (itype : IType) (id : Nat) : Prop :=
  ∃ n, Walks.Path (innerTypes allRecordTypes) itype n (.record id)

/-- From `s` to `s'` the records with `P` are taken over, and nothing else. -/
def Collects (allRecordTypes : RecordTypes) (P : Nat → Prop) (s s' : RecordTypes) : Prop :=
  ∀ id, (P id → s'.lookup id = allRecordTypes.lookup id) ∧ (¬ P id → s'.lookup id = s.lookup id)

section Collecting

variable {allRecordTypes : RecordTypes}

theorem Collects.refl (s : RecordTypes) : Collects allRecordTypes (fun _ => False) s s :=
  fun _ => ⟨False.elim, fun _ => rfl⟩

theorem Collects.trans {P Q : Nat → Prop} {s s' s'' : RecordTypes}
    (h : Collects allRecordTypes P s s') (h' : Collects allRecordTypes Q s' s'') :
    Collects allRecordTypes (fun id => P id ∨ Q id) s s'' := by
  intro id
  by_cases hq : Q id
  · exact ⟨fun _ => (h' id).1 hq, fun hno => absurd (.inr hq) hno⟩
  · rw [(h' id).2 hq]
    refine ⟨fun hpq => ?_, fun hno => (h id).2 fun hp => hno (.inl hp)⟩
    rcases hpq with hp | hq'
    · exact (h id).1 hp
    · exact absurd hq' hq

theorem Collects.congr {P Q : Nat → Prop} {s s' : RecordTypes}
    (h : Collects allRecordTypes P s s') (hpq : ∀ id, P id ↔ Q id) :
    Collects allRecordTypes Q s s' := by
  intro id
  rw [← hpq id]
  exact h id

theorem Collects.insert {id : Nat} {recordType : IRecordType}
    (h : allRecordTypes.lookup id = some recordType) (s : RecordTypes) :
    Collects allRecordTypes (fun id' => id' = id) s (s.insert id recordType) := by
  intro id'
  constructor
  · rintro rfl
    rw [AList.lookup_insert, h]
  · intro hne
    exact AList.lookup_insert_ne hne

/-- **Loop rule.** -/
theorem Collects.foldlM {α : Type} (ty : α → IType)
    {f : RecordTypes → α → Except ITInterfaceError RecordTypes} {l : List α}
    (hstep : ∀ a ∈ l, ∀ s s', f s a = .ok s' →
      Collects allRecordTypes (ReachesRecord allRecordTypes (ty a)) s s') {s s' : RecordTypes}
    (h : l.foldlM f s = .ok s') :
    Collects allRecordTypes (fun id => ∃ a ∈ l, ReachesRecord allRecordTypes (ty a) id) s s' := by
  induction l generalizing s with
  | nil =>
    cases h
    exact (Collects.refl _).congr fun id => by simp
  | cons a l ih =>
    rw [List.foldlM_cons] at h
    obtain ⟨s₁, ha, hl⟩ := Fallible.bind_eq_ok_iff.mp h
    have hhead := hstep a (List.mem_cons_self ..) s s₁ ha
    have hrest := ih (fun b hb => hstep b (List.mem_cons_of_mem _ hb)) hl
    exact (hhead.trans hrest).congr fun id => by simp

theorem reachesRecord_record_iff {id' : Nat} {recordType : IRecordType}
    (h : allRecordTypes.lookup id' = some recordType) (id : Nat) :
    ReachesRecord allRecordTypes (.record id') id ↔
      id = id' ∨ ∃ field ∈ recordType.fields, ReachesRecord allRecordTypes field.ty id := by
  have hinner : innerTypes allRecordTypes (.record id') =
      recordType.fields.map fun field => (field.ty, 2) := by
    rw [innerTypes, h, Option.elim_some]
  constructor
  · rintro ⟨n, hp⟩
    cases hp with
    | here => exact .inl rfl
    | step hb hp =>
      rw [hinner] at hb
      obtain ⟨field, hfield, heq⟩ := List.mem_map.mp hb
      cases heq
      exact .inr ⟨field, hfield, _, hp⟩
  · rintro (rfl | ⟨field, hfield, n, hp⟩)
    · exact ⟨0, .here _⟩
    · refine ⟨2 + n, .step ?_ hp⟩
      rw [hinner]
      exact List.mem_map.mpr ⟨field, hfield, rfl⟩

theorem reachesRecord_array_iff {elem : IType} {id : Nat} :
    ReachesRecord allRecordTypes (.array elem) id ↔ ReachesRecord allRecordTypes elem id := by
  constructor
  · rintro ⟨n, hp⟩
    cases hp with
    | step hb hp =>
      cases List.mem_singleton.mp hb
      exact ⟨_, hp⟩
  · rintro ⟨n, hp⟩
    exact ⟨1 + n, .step (List.mem_singleton.mpr rfl) hp⟩

/-- **Collected records.**  The induction is on the levels that are left. -/
theorem handleItype_collects {itype : IType} {s s' : RecordTypes} {level : Nat}
    (h : handleItype itype allRecordTypes s level = .ok s') :
    Collects allRecordTypes (ReachesRecord allRecordTypes itype) s s' := by
  induction hleft : typeResolveRecursionLimit + 1 - level using Nat.strongRecOn
    generalizing itype s s' level with
  | _ left ih =>
    rw [handleItype.eq_def] at h
    by_cases hlevel : typeResolveRecursionLimit < level
    · rw [if_pos hlevel] at h
      cases h
    · rw [if_neg hlevel] at h
      cases itype with
      | record id' =>
        dsimp only at h
        unfold handleRecordType at h
        cases hlookup : allRecordTypes.lookup id' with
        | none =>
          rw [hlookup] at h
          cases h
        | some recordType =>
          rw [hlookup] at h
          have hfields := Collects.foldlM IRecordFieldType.ty
            (fun field _ t t' ht => ih _ (by omega) ht rfl) h
          refine ((Collects.insert hlookup s).trans hfields).congr fun id => ?_
          rw [reachesRecord_record_iff hlookup]
      | array elem =>
        refine (ih _ (by omega) h rfl).congr fun id => ?_
        rw [reachesRecord_array_iff]
      | _ =>
        cases h
        refine (Collects.refl s).congr fun id => ⟨False.elim, ?_⟩
        rintro ⟨n, hp⟩
        cases hp with
        | step hb _ => cases hb

end Collecting

/-- The records of the section are those in its list of types. -/
theorem getAllRecords_eq_some_iff (mit : MITInterfaces) (id : Nat) (recordType : IRecordType) :
    (getAllRecords mit).lookup id = some recordType ↔
      mit.types[id]? = some (.record recordType) := by
  have hlookup : (getAllRecords mit).lookup id = mit.types[id]?.bind asRecord :=
    Maps.lookup_collect_zipIdx asRecord mit.types id
  rw [hlookup, Option.bind_eq_some_iff]
  constructor
  · rintro ⟨ty, hty, hrecord⟩
    cases ty with
    | function _ _ => cases hrecord
    | record _ =>
      cases hrecord
      exact hty
  · intro hty
    exact ⟨_, hty, rfl⟩

/-- Record `id` can be reached from an argument or an output of an exported function. -/
def ReachedByInterface (mit : MITInterfaces) (iface : IModuleInterface) (id : Nat) : Prop :=
  ∃ s ∈ iface.functionSignatures, ∃ t ∈ s.itypes, ReachesRecord (getAllRecords mit) t id

section Interfaces

variable {mit : MITInterfaces} {iface : IModuleInterface}

/-- What a read interface consists of. -/
theorem getInterface_parts (h : getInterface mit = .ok iface) :
    iface.recordTypes = getAllRecords mit ∧
      (iface.functionSignatures.flatMap IFunctionSignature.itypes).foldlM
        (fun s itype => handleItype itype (getAllRecords mit) s 0) ∅ =
          .ok iface.exportRecordTypes := by
  obtain ⟨signatures, -, h⟩ := Fallible.bind_eq_ok_iff.mp h
  obtain ⟨full, hfull, h⟩ := Fallible.bind_eq_ok_iff.mp h
  cases h
  obtain ⟨exported, hexported, hfull⟩ := Fallible.bind_eq_ok_iff.mp hfull
  cases hfull
  exact ⟨rfl, hexported⟩

/-- Every type of a read interface passed the level check. -/
theorem handleItype_of_getInterface (h : getInterface mit = .ok iface) {s : IFunctionSignature}
    (hs : s ∈ iface.functionSignatures) {t : IType} (ht : t ∈ s.itypes) :
    ∀ n inner, Walks.Path (innerTypes (getAllRecords mit)) t n inner →
      n ≤ typeResolveRecursionLimit ∧ IsKnown (getAllRecords mit) inner := by
  obtain ⟨-, hfold⟩ := getInterface_parts h
  have hall := (Fallible.foldlM_isOk_iff (l := iface.functionSignatures.flatMap
      IFunctionSignature.itypes) (f := fun s itype => handleItype itype (getAllRecords mit) s 0)
    (fun itype _ s => handleItype_isOk_iff (getAllRecords mit) s itype 0) ∅).mp (by
      rw [hfold]
      rfl)
  intro n inner hp
  obtain ⟨hlevel, hknown⟩ := hall t (List.mem_flatMap.mpr ⟨s, hs, ht⟩) n inner hp
  exact ⟨by omega, hknown⟩

/-- The exported records, as a map. -/
theorem exportRecordTypes_collects (h : getInterface mit = .ok iface) :
    Collects (getAllRecords mit) (ReachedByInterface mit iface) ∅ iface.exportRecordTypes := by
  obtain ⟨-, hfold⟩ := getInterface_parts h
  refine (Collects.foldlM id (fun _ _ _ _ => handleItype_collects) hfold).congr fun id => ?_
  constructor
  · rintro ⟨t, ht, hreach⟩
    obtain ⟨s, hs, hts⟩ := List.mem_flatMap.mp ht
    exact ⟨s, hs, t, hts, hreach⟩
  · rintro ⟨s, hs, t, hts, hreach⟩
    exact ⟨t, List.mem_flatMap.mpr ⟨s, hs, hts⟩, hreach⟩

/-- **Closure.**  The exported records are exactly the reachable ones, each the
record of the types list. -/
theorem getInterface_closure (h : getInterface mit = .ok iface) (id : Nat) :
    ((iface.exportRecordTypes.lookup id).isSome ↔ ReachedByInterface mit iface id) ∧
      ∀ recordType, iface.exportRecordTypes.lookup id = some recordType →
        mit.types[id]? = some (.record recordType) := by
  have hcollects := exportRecordTypes_collects h id
  by_cases hreached : ReachedByInterface mit iface id
  · rw [hcollects.1 hreached]
    refine ⟨⟨fun _ => hreached, fun _ => ?_⟩, fun recordType hlookup =>
      (getAllRecords_eq_some_iff mit id recordType).mp hlookup⟩
    obtain ⟨s, hs, t, ht, n, hp⟩ := hreached
    exact (handleItype_of_getInterface h hs ht n _ hp).2
  · rw [hcollects.2 hreached]
    refine ⟨⟨fun hsome => ?_, fun hreached' => absurd hreached' hreached⟩,
      fun recordType hlookup => ?_⟩
    · cases hsome
    · cases hlookup

end Interfaces

end Marine.Loader
