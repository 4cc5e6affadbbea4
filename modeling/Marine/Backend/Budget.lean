import Marine.Backend.Store
import Mathlib.Algebra.Order.Group.Nat

/-!
# The memory budget of a store

The store refines a ledger (`request_refines`): the free part is the limiter's
`remaining_memory`, the part in use is the total size of all memories and
tables.  Proved here, for every limit set once and every run of creation and
growth requests:

* `total_use_le_limit`: the total use never exceeds the limit;
* `budget_kept_iff`: a request that does not take effect leaves
  `remaining_memory` alone, and a request that fits into the limit is not
  refused, exactly in the runs where no granted request fails afterwards.

The limiter charges a growth before the engine has compared it with the
object's own maximum, and takes no notice of the failure reported after that,
so the condition of `budget_kept_iff` is not met by every run
(`growth_over_maximum_is_charged`).
-/

namespace Marine.Backend.Store

/-- The ledger behind a store. -/
def account (s : Store) : Ledger.Account Nat := ⟨s.limits.remainingMemory.toNat, s.totalUse⟩

/-- **Refinement.**  Every request is one entry of the ledger, for the bytes
it asks the limiter for. -/
theorem request_refines {s : Store} {r : GrowRequest} (h : s.AsksToGrow r) :
    ∃ c, s.charge r = some c ∧ Ledger.Step c.amount.toNat s.account (s.request r).account := by
  obtain ⟨c, hc, huse⟩ := request_totalUse h
  refine ⟨c, hc, ?_⟩
  have hlimits := request_limits s r
  rw [hc] at hlimits
  by_cases hle : c.amount ≤ s.limits.remainingMemory
  · have hnat := UInt64.le_iff_toNat_le.mp hle
    have hfree : (s.request r).limits.remainingMemory.toNat =
        s.limits.remainingMemory.toNat - c.amount.toNat := by
      rw [hlimits]
      simp only [Option.map_some, Option.getD_some, MemoryLimiter.tryAlloc_of_le _ hle]
      exact UInt64.toNat_sub_of_le _ _ hle
    by_cases heffect : s.takesEffect r = true
    · rw [if_pos heffect] at huse
      rw [show (s.request r).account = ⟨s.account.free - c.amount.toNat,
        s.account.used + c.amount.toNat⟩ by rw [account, hfree, huse]; rfl]
      exact .commit hnat
    · rw [if_neg heffect, Nat.add_zero] at huse
      rw [show (s.request r).account = ⟨s.account.free - c.amount.toNat, s.account.used⟩ by
        rw [account, hfree, huse]; rfl]
      exact .waste hnat
  · have hnat := fun hn => hle (UInt64.le_iff_toNat_le.mpr hn)
    have heffect : s.takesEffect r = false := by simp [takesEffect, hc, hle]
    rw [heffect] at huse
    rw [show (s.request r).account = s.account by
      rw [account, huse, hlimits]
      simp [MemoryLimiter.tryAlloc_of_not_le _ hle, MemoryLimiter.countAllocationReject, account]]
    exact .refuse hnat

@[simp] theorem account_setTotalMemoryLimit (limit : UInt64) :
    (new.setTotalMemoryLimit limit).account = ⟨limit.toNat, 0⟩ := rfl

/-- **The limit holds.**  In every run of requests the total use stays within
the limit that was set at the start. -/
theorem total_use_le_limit (limit : UInt64) {requests : List GrowRequest} {s : Store}
    (h : Runs.Along step AsksToGrow (new.setTotalMemoryLimit limit) requests)
    (hrun : Runs.run step (new.setTotalMemoryLimit limit) requests = some s) :
    s.totalUse ≤ limit.toNat := by
  have hstep : ∀ s r, Ledger.Within limit.toNat (account s) → AsksToGrow s r →
      ∀ s' ∈ step s r, Ledger.Within limit.toNat (account s') := by
    rintro s r hw hask s' ⟨⟩
    obtain ⟨c, -, hentry⟩ := request_refines hask
    exact hentry.within hw
  have hstart : Ledger.Within limit.toNat (new.setTotalMemoryLimit limit).account :=
    Ledger.Balanced.within (by simp [Ledger.Balanced])
  exact (Runs.run_invariant hstep hstart h hrun).used_le

/-! ## Failed growth -/

/-- A request that does not take effect leaves the remaining memory alone. -/
def FailureIsFree (s : Store) (r : GrowRequest) : Prop :=
  s.takesEffect r = false → (s.request r).limits.remainingMemory = s.limits.remainingMemory

/-- A request that fits into the limit less the total use is not refused. -/
def NotRefusedWithin (limit : UInt64) (s : Store) (r : GrowRequest) : Prop :=
  ∀ c, s.charge r = some c → c.amount.toNat ≤ limit.toNat - s.totalUse → s.refuses r = false

/-- A non-empty request that fits into the remaining memory is admitted by the
object's own maximum and by the host. -/
def GrantedGrowthSucceeds (s : Store) (r : GrowRequest) : Prop :=
  ∀ c, s.charge r = some c → c.amount ≤ s.limits.remainingMemory → c.amount ≠ 0 →
    c.admitted = true

theorem failureIsFree_iff (s : Store) (r : GrowRequest) :
    FailureIsFree s r ↔ GrantedGrowthSucceeds s r := by
  unfold FailureIsFree GrantedGrowthSucceeds takesEffect
  rw [request_limits]
  cases s.charge r with
  | none => simp
  | some c =>
    simp only [Option.any_some, Option.map_some, Option.getD_some, Option.some.injEq,
      forall_eq']
    by_cases hle : c.amount ≤ s.limits.remainingMemory
    · rw [MemoryLimiter.tryAlloc_of_le _ hle]
      simp only [hle, decide_true, Bool.true_and, true_implies]
      constructor
      · intro hfree hne
        by_contra hadm
        have hsame := congrArg UInt64.toNat (hfree (by simpa using hadm))
        rw [UInt64.toNat_sub_of_le _ _ hle] at hsame
        have hnat := UInt64.le_iff_toNat_le.mp hle
        exact hne (UInt64.toNat_inj.mp (by simp; omega))
      · intro hgranted hadm
        by_cases hz : c.amount = 0
        · simp [hz]
        · rw [hgranted hz] at hadm
          cases hadm
    · simp [hle, MemoryLimiter.tryAlloc_of_not_le, MemoryLimiter.countAllocationReject]

theorem account_free_of_used {s : Store} {r : GrowRequest} (hask : s.AsksToGrow r)
    (hfree : FailureIsFree s r) (hused : (s.request r).account.used = s.account.used) :
    (s.request r).account.free = s.account.free := by
  obtain ⟨c, hc, huse⟩ := request_totalUse hask
  by_cases heffect : s.takesEffect r = true
  · -- a request that takes effect without moving the total use asks for nothing
    have hz : c.amount.toNat = 0 := by
      rw [if_pos heffect] at huse
      have : (s.request r).totalUse = s.totalUse := hused
      omega
    have hzero : c.amount = 0 := UInt64.toNat_inj.mp (by simpa using hz)
    simp [account, request_limits, hc, hzero, MemoryLimiter.tryAlloc, checkedSub]
  · exact congrArg UInt64.toNat (hfree (by simpa using heffect))

/-- **Exact condition for an honest budget.**  In a run of requests the failed
ones cost nothing and the fitting ones are granted exactly when every granted
non-empty request takes effect. -/
theorem budget_kept_iff (limit : UInt64) {requests : List GrowRequest}
    (h : Runs.Along step AsksToGrow (new.setTotalMemoryLimit limit) requests) :
    Runs.Along step (fun s r => FailureIsFree s r ∧ NotRefusedWithin limit s r)
        (new.setTotalMemoryLimit limit) requests ↔
      Runs.Along step GrantedGrowthSucceeds (new.setTotalMemoryLimit limit) requests := by
  constructor
  · exact Runs.Along.mono fun s r hk => (failureIsFree_iff s r).mp hk.1
  · intro hgranted
    have hstep : ∀ s r, Ledger.Balanced limit.toNat (account s) →
        AsksToGrow s r ∧ GrantedGrowthSucceeds s r →
        (FailureIsFree s r ∧ NotRefusedWithin limit s r) ∧
          ∀ s' ∈ step s r, Ledger.Balanced limit.toNat (account s') := by
      rintro s r hb ⟨hask, hg⟩
      have hfree := (failureIsFree_iff s r).mpr hg
      obtain ⟨c, hc, hentry⟩ := request_refines hask
      refine ⟨⟨hfree, ?_⟩, ?_⟩
      · intro c' hc' hfits
        have hle : c'.amount ≤ s.limits.remainingMemory :=
          UInt64.le_iff_toNat_le.mpr (hb.le_free_iff.mpr hfits)
        simp [refuses, hc', hle]
      · rintro s' ⟨⟩
        exact hentry.balanced (account_free_of_used hask hfree) hb
    have hstart : Ledger.Balanced limit.toNat (new.setTotalMemoryLimit limit).account := by
      simp [Ledger.Balanced]
    exact Runs.along_of_invariant hstep hstart (h.and hgranted)

/-- A memory, a table, a growth of the memory, a growth that is refused, and a smaller one. -/
def mixedRequests : List GrowRequest :=
  [.memory (.fresh none) 65536 true, .table (.fresh none) 16 true,
    .memory (.existing 0) 131072 true, .memory (.existing 0) 327680 true,
    .table (.existing 0) 32 true]

theorem budget_kept_mixed :
    Runs.Along step (fun s r => FailureIsFree s r ∧ NotRefusedWithin 196608 s r)
      (new.setTotalMemoryLimit 196608) mixedRequests ∧
    ∃ s, Runs.run step (new.setTotalMemoryLimit 196608) mixedRequests = some s ∧
      s.memories.map Growable.size = [131072] ∧ s.tables.map Growable.size = [32] ∧
      s.limits.remainingMemory = 65280 := by
  have hasks : Runs.Along step AsksToGrow (new.setTotalMemoryLimit 196608) mixedRequests := by
    refine ⟨⟨_, rfl, by decide⟩, ?_⟩
    rintro _ ⟨⟩
    refine ⟨⟨_, rfl, by decide⟩, ?_⟩
    rintro _ ⟨⟩
    refine ⟨⟨_, rfl, by decide⟩, ?_⟩
    rintro _ ⟨⟩
    refine ⟨⟨_, rfl, by decide⟩, ?_⟩
    rintro _ ⟨⟩
    exact ⟨⟨_, rfl, by decide⟩, fun _ _ => trivial⟩
  refine ⟨(budget_kept_iff 196608 hasks).mpr ?_, _, rfl, by decide, by decide, by decide⟩
  refine ⟨by rintro c ⟨⟩ - -; rfl, ?_⟩
  rintro _ ⟨⟩
  refine ⟨by rintro c ⟨⟩ - -; rfl, ?_⟩
  rintro _ ⟨⟩
  refine ⟨by rintro c ⟨⟩ - -; rfl, ?_⟩
  rintro _ ⟨⟩
  -- this one does not fit
  refine ⟨by rintro c ⟨⟩ hfits -; exact absurd hfits (by decide), ?_⟩
  rintro _ ⟨⟩
  exact ⟨by rintro c ⟨⟩ - -; rfl, fun _ _ => trivial⟩

/-- A memory with a maximum of one page is asked to grow to two: nothing grows,
and the page that was left of the limit is gone. -/
theorem growth_over_maximum_is_charged :
    let start := new.setTotalMemoryLimit 131072
    let created := start.request (.memory (.fresh (some 65536)) 65536 true)
    let grow := GrowRequest.memory (.existing 0) 131072 true
    created.limits.remainingMemory = 65536 ∧ created.takesEffect grow = false ∧
      (created.request grow).limits.remainingMemory = 0 ∧
      ¬ Runs.Along step (fun s r => FailureIsFree s r ∧ NotRefusedWithin 131072 s r) start
        [.memory (.fresh (some 65536)) 65536 true, grow] := by
  refine ⟨by decide, by decide, by decide, fun hkept => ?_⟩
  have hfree := (hkept.2 _ rfl).1.1 (by decide)
  exact absurd hfree (by decide)

end Marine.Backend.Store
