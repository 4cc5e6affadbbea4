import Marine.Lib.Ledger
import Marine.Lib.Runs
import Mathlib.Algebra.Ring.Nat

/-!
# The wasmtime store and its memory limiter

`MemoryLimiter` is the resource limiter of `crates/wasmtime-backend`: one
counter of remaining bytes for all memories and tables of a store, and the
statistics of rejected allocations.  `Store.request` is the protocol with the
engine: it asks `memory_growing` or `table_growing` before each creation or
growth, and the growth takes effect when the answer is yes, the object's own
maximum admits the new size and the host provides the memory.  Arithmetic is
that of the release profile, which has overflow checks off.

`charge` says once what a request asks of the limiter; `request_limits` and
`request_totalUse` are what every result about the store uses of `request`.
-/

namespace Marine.Backend

structure MemoryAllocationStats where
  allocationRejects : UInt32
  deriving DecidableEq, Repr

structure MemoryLimiter where
  remainingMemory : UInt64
  allocationStats : MemoryAllocationStats
  deriving DecidableEq, Repr

/-- `size_of::<usize>()`; wasmtime runs on 64-bit hosts only. -/
def sizeOfUsize : UInt64 := 8

def checkedSub (a b : UInt64) : Option UInt64 := if b ≤ a then some (a - b) else none

namespace MemoryLimiter

def new (maxTotalMemory : UInt64) : MemoryLimiter := ⟨maxTotalMemory, ⟨0⟩⟩

def countAllocationReject (l : MemoryLimiter) : MemoryLimiter :=
  { l with allocationStats := ⟨l.allocationStats.allocationRejects + 1⟩ }

def tryAlloc (l : MemoryLimiter) (amount : UInt64) : MemoryLimiter × Bool :=
  match checkedSub l.remainingMemory amount with
  | some remainingMemory => ({ l with remainingMemory := remainingMemory }, true)
  | none => (l.countAllocationReject, false)

def memoryGrowing (l : MemoryLimiter) (current desired : UInt64) (_maximum : Option UInt64) :
    MemoryLimiter × Bool :=
  l.tryAlloc (desired - current)

def tableGrowing (l : MemoryLimiter) (current desired : UInt32) (_maximum : Option UInt32) :
    MemoryLimiter × Bool :=
  l.tryAlloc ((desired - current).toUInt64 * sizeOfUsize)

theorem tryAlloc_of_le (l : MemoryLimiter) {amount : UInt64} (h : amount ≤ l.remainingMemory) :
    l.tryAlloc amount = ({ l with remainingMemory := l.remainingMemory - amount }, true) := by
  simp [tryAlloc, checkedSub, h]

theorem tryAlloc_of_not_le (l : MemoryLimiter) {amount : UInt64}
    (h : ¬ amount ≤ l.remainingMemory) :
    l.tryAlloc amount = (l.countAllocationReject, false) := by
  simp [tryAlloc, checkedSub, h]

@[simp] theorem tryAlloc_granted (l : MemoryLimiter) (amount : UInt64) :
    (l.tryAlloc amount).2 = decide (amount ≤ l.remainingMemory) := by
  by_cases h : amount ≤ l.remainingMemory
  · simp [tryAlloc_of_le l h, h]
  · simp [tryAlloc_of_not_le l h, h]

end MemoryLimiter

/-! ## Memories, tables and the requests of the engine -/

/-- A memory (sizes in bytes) or a table (sizes in elements) of the store. -/
structure Growable (α : Type) where
  size : α
  maximum : Option α
  deriving DecidableEq, Repr

/-- The engine's own check, made after the limiter has agreed. -/
def Growable.admits {α : Type} [LE α] [DecidableLE α] (o : Growable α) (desired : α) : Bool :=
  match o.maximum with
  | some maximum => decide (desired ≤ maximum)
  | none => true

/-- The object a request is about: one of the store, or one being created. -/
inductive Place (α : Type)
  | existing (index : Nat)
  | fresh (maximum : Option α)
  deriving DecidableEq, Repr

def Place.find {α : Type} [OfNat α 0] (objects : List (Growable α)) :
    Place α → Option (Growable α)
  | .existing index => objects[index]?
  | .fresh maximum => some ⟨0, maximum⟩

def Place.put {α : Type} (objects : List (Growable α)) (o : Growable α) :
    Place α → List (Growable α)
  | .existing index => objects.set index o
  | .fresh _ => objects ++ [o]

/-- A creation or growth request.  `hostGrows` is false when the host cannot
provide memory that the limiter and the object's maximum would allow. -/
inductive GrowRequest
  | memory (place : Place UInt64) (desired : UInt64) (hostGrows : Bool)
  | table (place : Place UInt32) (desired : UInt32) (hostGrows : Bool)
  deriving DecidableEq, Repr

structure Store where
  limits : MemoryLimiter
  memories : List (Growable UInt64)
  tables : List (Growable UInt32)
  deriving DecidableEq, Repr

namespace Store

/-- A store before its limit is set; `MemoryLimiter` derives `Default`. -/
def new : Store := ⟨⟨0, ⟨0⟩⟩, [], []⟩

def setTotalMemoryLimit (s : Store) (totalMemoryLimit : UInt64) : Store :=
  { s with limits := MemoryLimiter.new totalMemoryLimit }

def reportMemoryAllocationStats (s : Store) : Option MemoryAllocationStats :=
  some s.limits.allocationStats

def clearAllocationStats (s : Store) : Store :=
  { s with limits := { s.limits with allocationStats := ⟨0⟩ } }

def request (s : Store) : GrowRequest → Store
  | .memory place desired hostGrows =>
    match place.find s.memories with
    | none => s
    | some o =>
      let (limits, granted) := s.limits.memoryGrowing o.size desired o.maximum
      -- a refusal after the limiter's yes is reported to `memory_grow_failed`, a no-op here
      if granted && o.admits desired && hostGrows then
        { s with limits := limits, memories := place.put s.memories { o with size := desired } }
      else { s with limits := limits }
  | .table place desired hostGrows =>
    match place.find s.tables with
    | none => s
    | some o =>
      let (limits, granted) := s.limits.tableGrowing o.size desired o.maximum
      if granted && o.admits desired && hostGrows then
        { s with limits := limits, tables := place.put s.tables { o with size := desired } }
      else { s with limits := limits }

/-- The store never ends a run by itself. -/
def step (s : Store) (r : GrowRequest) : Option Store := some (s.request r)

/-- Bytes in use: memories count their size, tables one `usize` an element. -/
def totalUse (s : Store) : Nat :=
  (s.memories.map fun m => m.size.toNat).sum +
    sizeOfUsize.toNat * (s.tables.map fun t => t.size.toNat).sum

/-- The engine asks about an object it has, and never to shrink it. -/
def AsksToGrow (s : Store) : GrowRequest → Prop
  | .memory place desired _ => ∃ o, place.find s.memories = some o ∧ o.size ≤ desired
  | .table place desired _ => ∃ o, place.find s.tables = some o ∧ o.size ≤ desired

/-! ## What a request asks of the limiter -/

/-- The bytes the limiter is asked for, and whether the growth goes through
once the limiter has agreed. -/
structure Charge where
  amount : UInt64
  admitted : Bool
  deriving DecidableEq, Repr

def charge (s : Store) : GrowRequest → Option Charge
  | .memory place desired hostGrows =>
    (place.find s.memories).map fun o => ⟨desired - o.size, o.admits desired && hostGrows⟩
  | .table place desired hostGrows =>
    (place.find s.tables).map fun o =>
      ⟨(desired - o.size).toUInt64 * sizeOfUsize, o.admits desired && hostGrows⟩

/-- The limiter refuses the request. -/
def refuses (s : Store) (r : GrowRequest) : Bool :=
  (s.charge r).any fun c => decide (¬ c.amount ≤ s.limits.remainingMemory)

/-- The request changes the size of its object. -/
def takesEffect (s : Store) (r : GrowRequest) : Bool :=
  (s.charge r).any fun c => decide (c.amount ≤ s.limits.remainingMemory) && c.admitted

theorem request_limits (s : Store) (r : GrowRequest) :
    (s.request r).limits =
      ((s.charge r).map fun c => (s.limits.tryAlloc c.amount).1).getD s.limits := by
  cases r with
  | memory place desired hostGrows =>
    simp only [request, charge]
    cases place.find s.memories with
    | none => rfl
    | some o =>
      rw [apply_ite Store.limits]
      exact ite_self _
  | table place desired hostGrows =>
    simp only [request, charge]
    cases place.find s.tables with
    | none => rfl
    | some o =>
      rw [apply_ite Store.limits]
      exact ite_self _

/-- The bytes one table request asks for do not overflow. -/
theorem table_amount_toNat (n : UInt32) : (n.toUInt64 * sizeOfUsize).toNat = n.toNat * 8 := by
  have hn := n.toNat_lt
  rw [UInt64.toNat_mul, UInt32.toNat_toUInt64]
  exact Nat.mod_eq_of_lt (by simp [sizeOfUsize]; omega)

theorem sum_put {α : Type} [OfNat α 0] (toNat : α → Nat) (hzero : toNat 0 = 0)
    {objects : List (Growable α)} {place : Place α} {o : Growable α}
    (h : place.find objects = some o) (desired : α) :
    ((place.put objects { o with size := desired }).map fun g => toNat g.size).sum +
        toNat o.size =
      (objects.map fun g => toNat g.size).sum + toNat desired := by
  cases place with
  | existing index => exact Ledger.sum_map_set (fun g : Growable α => toNat g.size) h _
  | fresh maximum =>
    cases h
    simp only [Place.put, Ledger.sum_map_concat, hzero, Nat.add_zero]

/-- **Use of a request.**  The total use grows by the bytes asked for exactly
when the request takes effect. -/
theorem request_totalUse {s : Store} {r : GrowRequest} (h : s.AsksToGrow r) :
    ∃ c, s.charge r = some c ∧ (s.request r).totalUse =
      s.totalUse + if s.takesEffect r then c.amount.toNat else 0 := by
  cases r with
  | memory place desired hostGrows =>
    obtain ⟨o, ho, hle⟩ := h
    refine ⟨⟨desired - o.size, o.admits desired && hostGrows⟩, by simp [charge, ho], ?_⟩
    have hsum := sum_put UInt64.toNat UInt64.toNat_zero ho desired
    have hsub := UInt64.toNat_sub_of_le _ _ hle
    have hnat := UInt64.le_iff_toNat_le.mp hle
    simp only [request, takesEffect, charge, ho, MemoryLimiter.memoryGrowing,
      MemoryLimiter.tryAlloc_granted, Option.map_some, Option.any_some, Bool.and_assoc]
    split
    · simp only [totalUse]; omega
    · simp only [totalUse]; omega
  | table place desired hostGrows =>
    obtain ⟨o, ho, hle⟩ := h
    refine ⟨⟨(desired - o.size).toUInt64 * sizeOfUsize, o.admits desired && hostGrows⟩,
      by simp [charge, ho], ?_⟩
    have hsum := sum_put UInt32.toNat UInt32.toNat_zero ho desired
    have hsub := UInt32.toNat_sub_of_le _ _ hle
    have hnat := UInt32.le_iff_toNat_le.mp hle
    have hamount := table_amount_toNat (desired - o.size)
    have hunit : sizeOfUsize.toNat = 8 := rfl
    simp only [request, takesEffect, charge, ho, MemoryLimiter.tableGrowing,
      MemoryLimiter.tryAlloc_granted, Option.map_some, Option.any_some, Bool.and_assoc]
    split
    · simp only [totalUse, hunit]; omega
    · simp only [totalUse]; omega

end Store

end Marine.Backend
