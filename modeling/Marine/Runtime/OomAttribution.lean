import Marine.Lib.Runs
import Marine.Runtime.Instance

/-!
# Attribution of out-of-memory errors

An operation whose core error can come from a lack of memory is reported as
`HighProbabilityOOM` when the store's count of rejected allocations is not
zero.  The count is cleared after a successful call only, and wraps at
`2 ^ 32`, so it is about more than the operation that failed
(`stale_reject_reported`).  `step_rejects` says what it counts over a run, and
`oom_attributed_iff` in which runs every report is about its own operation.
-/

namespace Marine.Runtime

open Marine.Backend

/-! ## Rejected allocations -/

/-- The requests of a list that the limiter refuses. -/
def refusals (store : Store) : List GrowRequest → Nat
  | [] => 0
  | r :: rs => (if store.refuses r then 1 else 0) + refusals (store.request r) rs

/-- The counter of rejected allocations. -/
def rejectsOf (store : Store) : Nat := store.limits.allocationStats.allocationRejects.toNat

theorem rejectsOf_request (store : Store) (r : GrowRequest) :
    rejectsOf (store.request r) =
      (rejectsOf store + if store.refuses r then 1 else 0) % 2 ^ 32 := by
  unfold rejectsOf Store.refuses
  rw [Store.request_limits]
  have hlt := store.limits.allocationStats.allocationRejects.toNat_lt
  have hsmall := Nat.mod_eq_of_lt hlt
  cases store.charge r with
  | none => exact hsmall.symm
  | some c =>
    simp only [Option.map_some, Option.getD_some, Option.any_some, decide_eq_true_eq]
    by_cases hle : c.amount ≤ store.limits.remainingMemory
    · rw [MemoryLimiter.tryAlloc_of_le _ hle, if_neg (not_not_intro hle)]
      exact hsmall.symm
    · rw [MemoryLimiter.tryAlloc_of_not_le _ hle, if_pos hle]
      exact UInt32.toNat_add _ _

/-- **Counter lemma.**  A run of the engine adds its refusals to the counter. -/
theorem rejectsOf_serve (store : Store) (requests : List GrowRequest) :
    rejectsOf (serve store requests) = (rejectsOf store + refusals store requests) % 2 ^ 32 := by
  induction requests generalizing store with
  | nil =>
    have hlt := store.limits.allocationStats.allocationRejects.toNat_lt
    exact (Nat.mod_eq_of_lt hlt).symm
  | cons r rs ih =>
    have hcons : serve store (r :: rs) = serve (store.request r) rs := rfl
    rw [hcons, ih, rejectsOf_request, refusals, Nat.mod_add_mod, Nat.add_assoc]

/-! ## The core operation of an operation -/

/-- What an operation asks of the core. -/
inductive CoreOp
  | call (moduleName funcName : String) (args : List IValue)
      (run : List IValue → EngineRun (List IValue))
  | load (name : String) (run : EngineRun MModule)

namespace CoreOp

def outcome (core : MarineCore) : CoreOp → Except MError Unit × MarineCore
  | .call m f args run =>
    let (result, core) := core.callAsync m f args run
    (result.map fun _ => (), core)
  | .load name run => core.loadModule name run

/-- The growth requests the engine makes in it. -/
def requests (core : MarineCore) : CoreOp → List GrowRequest
  | .call m f args run =>
    match core.modules.lookup m with
    | none => []
    | some module => if (module.exportFuncs.lookup f).isSome then (run args).requests else []
  | .load _ run => run.requests

/-- A call that succeeds clears the counter; loading a module never does. -/
def clears (core : MarineCore) : CoreOp → Bool
  | .call m f args run => (core.callAsync m f args run).1.isOk
  | .load _ _ => false

/-- The store when the operation is over. -/
def storeAfter (core : MarineCore) (cop : CoreOp) : Store :=
  if cop.clears core then (cop.outcome core).2.store.clearAllocationStats
  else (cop.outcome core).2.store

theorem outcome_store (core : MarineCore) (cop : CoreOp) :
    (cop.outcome core).2.store = serve core.store (cop.requests core) := by
  cases cop with
  | call m f args run =>
    simp only [outcome, requests, MarineCore.callAsync]
    cases core.modules.lookup m with
    | none => rfl
    | some module =>
      dsimp only
      cases module.exportFuncs.lookup f with
      | none => rfl
      | some func => rfl
  | load name run =>
    simp only [outcome, requests, MarineCore.loadModule]
    cases run.result with
    | error e => rfl
    | ok module =>
      cases core.modules.lookup name with
      | none => rfl
      | some loaded => rfl

theorem outcome_modules {core : MarineCore} {cop : CoreOp} {e : MError}
    (h : (cop.outcome core).1 = .error e) : (cop.outcome core).2.modules = core.modules := by
  cases cop with
  | call m f args run =>
    simp only [outcome, MarineCore.callAsync]
    cases core.modules.lookup m with
    | none => rfl
    | some module =>
      dsimp only
      cases module.exportFuncs.lookup f with
      | none => rfl
      | some func => rfl
  | load name run =>
    simp only [outcome, MarineCore.loadModule] at h ⊢
    cases hr : run.result with
    | error e => rfl
    | ok module =>
      cases hl : core.modules.lookup name with
      | some loaded => rfl
      | none => simp only [hr, hl] at h; cases h

end CoreOp

/-- What an operation asks of the core, if it gets that far. -/
def coreOp {JValue : Type} (serde : ItJsonSerde JValue) (marine : MarineInstance) :
    Op JValue → Option CoreOp
  | .callWithIvalues m f args run => some (.call m f args run)
  | .callWithJson m f jsonArgs run =>
    match (marine.lookupModuleInterface m f).1 with
    | .error _ => none
    | .ok (funcSignature, _, recordTypes) =>
      match serde.jsonToIvalues jsonArgs funcSignature recordTypes with
      | .error _ => none
      | .ok iargs => some (.call m f iargs run)
  | .loadModule name (.ok ()) run => some (.load name run)
  | _ => none

/-! ## Conversion of a core error -/

/-- The core errors that may be due to a lack of memory. -/
def CanBeOom : MError → Prop
  | .itInstructionError _ | .hostImportError _ | .wasmBackendError _ => True
  | _ => False

/-- No loaded module makes `module_memory_stats` panic. -/
def AllHaveMemory (core : MarineCore) : Prop := ∀ e ∈ core.modules.entries, e.2.memory ≠ none

@[simp] theorem mapM_option_isSome {α β : Type} (f : α → Option β) (l : List α) :
    (l.mapM f).isSome ↔ ∀ a ∈ l, f a ≠ none := by
  induction l with
  | nil => simp
  | cons a l ih =>
    rw [List.mapM_cons, List.forall_mem_cons, ← ih]
    cases f a with
    | none => simp
    | some b => cases l.mapM f <;> simp

@[simp] theorem moduleMemoryStats_isSome (core : MarineCore) :
    core.moduleMemoryStats.isSome ↔ AllHaveMemory core := by
  have hrecords : core.moduleMemoryStats.isSome ↔
      ∀ e ∈ core.modules.entries, e.2.memorySize core.store ≠ none := by
    simp [MarineCore.moduleMemoryStats]
  rw [hrecords]
  simp [AllHaveMemory, MModule.memorySize]

theorem allocationStats_of_stats {core : MarineCore} {stats : MemoryStats}
    (h : core.moduleMemoryStats = some stats) :
    stats.allocationStats = some core.store.limits.allocationStats := by
  obtain ⟨records, -, hstats⟩ := Option.map_eq_some_iff.mp h
  cases hstats
  rfl

/-- A core error is converted into a high-probability OOM. -/
def ReportsOom (reported : Option MarineError) : Prop :=
  ∃ e rejects, reported = some (.highProbabilityOOM e rejects)

/-- **Conversion lemma.**  An attributable error is reported as an OOM exactly
when the statistics can be read and the counter is not zero. -/
theorem reportsOom_convert_iff (core : MarineCore) {e : MError} (he : CanBeOom e) :
    ReportsOom (checkForOomAndConvertError core e) ↔
      AllHaveMemory core ∧ rejectsOf core.store ≠ 0 := by
  rw [← moduleMemoryStats_isSome]
  unfold checkForOomAndConvertError ReportsOom
  cases hs : core.moduleMemoryStats with
  | none => simp
  | some stats =>
    have hstats := allocationStats_of_stats hs
    have hzero : core.store.limits.allocationStats.allocationRejects = 0 ↔
        rejectsOf core.store = 0 := by
      rw [rejectsOf, ← UInt32.toNat_inj]
      rfl
    simp only [Option.bind_eq_bind, Option.bind_some, hstats, Option.isSome_some, true_and, hzero]
    by_cases hr : rejectsOf core.store = 0
    · simp [hr]
    · cases e <;> first | exact he.elim | simp [hr]

/-! ## Reports of operations -/

variable {JValue : Type} (serde : ItJsonSerde JValue)

theorem callCore_error {marine : MarineInstance} {m f : String} {args : List IValue}
    {run : List IValue → EngineRun (List IValue)} {e : MError}
    (h : (marine.core.callAsync m f args run).1 = .error e) :
    (marine.callCore m f args run).map Prod.fst =
      (checkForOomAndConvertError (marine.core.callAsync m f args run).2 e).map .error := by
  unfold MarineInstance.callCore
  generalize marine.core.callAsync m f args run = called at h
  obtain ⟨result, core⟩ := called
  cases h
  rw [Option.map_map]
  rfl

theorem callWithJson_error {marine after : MarineInstance} {m f : String} {jsonArgs : JValue}
    {run : List IValue → EngineRun (List IValue)} {arguments : List FunctionArg}
    {outputs : List IType} {recordTypes : RecordTypes} {iargs : List IValue} {e : MError}
    (hfound : marine.lookupModuleInterface m f = (.ok (arguments, outputs, recordTypes), after))
    (hargs : serde.jsonToIvalues jsonArgs arguments recordTypes = .ok iargs)
    (herr : (marine.core.callAsync m f iargs run).1 = .error e) :
    (MarineInstance.callWithJsonAsync serde marine m f jsonArgs run).map Prod.fst =
      (checkForOomAndConvertError (marine.core.callAsync m f iargs run).2 e).map .error := by
  have hcore : after.core = marine.core := by
    have hkept := marine.lookupModuleInterface_core m f
    rwa [hfound] at hkept
  rw [← hcore] at herr ⊢
  have hreport := callCore_error herr
  unfold MarineInstance.callWithJsonAsync
  simp only [hfound, hargs, jsonToMarineErr]
  cases hconv : checkForOomAndConvertError (after.core.callAsync m f iargs run).2 e with
  | none =>
    rw [hconv, Option.map_none, Option.map_eq_none_iff] at hreport
    simp only [hreport, Option.map_none]
  | some converted =>
    rw [hconv, Option.map_some, Option.map_eq_some_iff] at hreport
    obtain ⟨⟨_, marine'⟩, hcalled, rfl⟩ := hreport
    simp only [hcalled, Option.map_some]

theorem loadModule_error {marine : MarineInstance} {name : String} {run : EngineRun MModule}
    {e : MError} (h : (marine.core.loadModule name run).1 = .error e) :
    (marine.loadModule name (.ok ()) run).map Prod.fst =
      (checkForOomAndConvertError (marine.core.loadModule name run).2 e).map .error := by
  unfold MarineInstance.loadModule
  generalize marine.core.loadModule name run = loaded at h
  obtain ⟨result, core⟩ := loaded
  cases h
  rw [Option.map_map]
  rfl

theorem map_fst_result {α : Type} (o : Option (Except MarineError α × MarineInstance)) :
    (o.map fun r => (r.1.map fun _ => (), r.2)).map Prod.fst =
      (o.map Prod.fst).map (Except.map fun _ => ()) := by
  rw [Option.map_map, Option.map_map]
  rfl

theorem outcome_call_error {core : MarineCore} {m f : String} {args : List IValue}
    {run : List IValue → EngineRun (List IValue)} {e : MError}
    (h : ((CoreOp.call m f args run).outcome core).1 = .error e) :
    (core.callAsync m f args run).1 = .error e := by
  unfold CoreOp.outcome at h
  cases hr : (core.callAsync m f args run).1 with
  | error e' => simp only [hr] at h; cases h; rfl
  | ok vs => simp only [hr] at h; cases h

/-- **Report lemma.**  An operation whose core operation fails reports the
converted core error. -/
theorem perform_coreError {marine : MarineInstance} {op : Op JValue} {cop : CoreOp} {e : MError}
    (hop : coreOp serde marine op = some cop) (herr : (cop.outcome marine.core).1 = .error e) :
    (marine.perform serde op).map Prod.fst =
      (checkForOomAndConvertError (cop.outcome marine.core).2 e).map .error := by
  unfold MarineInstance.perform
  cases op with
  | callWithIvalues m f args run =>
    cases hop
    rw [map_fst_result, MarineInstance.callWithIvaluesAsync,
      callCore_error (outcome_call_error herr), Option.map_map]
    rfl
  | callWithJson m f jsonArgs run =>
    dsimp only [coreOp] at hop
    cases hfound : marine.lookupModuleInterface m f with
    | mk found after =>
      rw [hfound] at hop
      cases found with
      | error e' => cases hop
      | ok found =>
        dsimp only at hop
        cases hargs : serde.jsonToIvalues jsonArgs found.1 found.2.2 with
        | error e' => rw [hargs] at hop; cases hop
        | ok iargs =>
          rw [hargs] at hop
          cases hop
          rw [map_fst_result, callWithJson_error serde hfound hargs (outcome_call_error herr),
            Option.map_map]
          rfl
  | loadModule name config run =>
    cases config with
    | error e' => cases hop
    | ok u =>
      cases hop
      exact loadModule_error herr
  | unloadModule name => cases hop

/-! ## Attribution -/

/-- An operation that ends with an attributable core error is reported as an
OOM exactly when an allocation was refused in it. -/
def OomAttributed (marine : MarineInstance) (op : Op JValue) : Prop :=
  ∀ cop e, coreOp serde marine op = some cop → (cop.outcome marine.core).1 = .error e →
    CanBeOom e →
      ((∃ e' rejects marine', marine.perform serde op =
          some (.error (.highProbabilityOOM e' rejects), marine')) ↔
        0 < refusals marine.core.store (cop.requests marine.core))

/-- Whenever the operation ends with an attributable core error, the counter starts at
zero when nothing is refused in the operation, and does not wrap to zero when something
is. -/
def CounterTells (marine : MarineInstance) (op : Op JValue) : Prop :=
  ∀ cop e, coreOp serde marine op = some cop → (cop.outcome marine.core).1 = .error e →
    CanBeOom e →
      if refusals marine.core.store (cop.requests marine.core) = 0 then
        AllHaveMemory marine.core → rejectsOf marine.core.store = 0
      else AllHaveMemory marine.core ∧
        (rejectsOf marine.core.store +
          refusals marine.core.store (cop.requests marine.core)) % 2 ^ 32 ≠ 0

theorem oomAttributed_step_iff (marine : MarineInstance) (op : Op JValue) :
    OomAttributed serde marine op ↔ CounterTells serde marine op := by
  unfold OomAttributed CounterTells
  refine forall₂_congr fun cop e => forall₃_congr fun hop herr hcan => ?_
  have hreport := perform_coreError serde hop herr
  have hreported : (∃ e' rejects marine', marine.perform serde op =
      some (.error (.highProbabilityOOM e' rejects), marine')) ↔
      ReportsOom (checkForOomAndConvertError (cop.outcome marine.core).2 e) := by
    constructor
    · rintro ⟨e', rejects, marine', hp⟩
      rw [hp, Option.map_some] at hreport
      obtain ⟨converted, hconv, he⟩ := Option.map_eq_some_iff.mp hreport.symm
      cases he
      exact ⟨e', rejects, hconv⟩
    · rintro ⟨e', rejects, hconv⟩
      rw [hconv, Option.map_some, Option.map_eq_some_iff] at hreport
      obtain ⟨⟨_, marine'⟩, hp, rfl⟩ := hreport
      exact ⟨e', rejects, marine', hp⟩
  have hmemory : AllHaveMemory (cop.outcome marine.core).2 ↔ AllHaveMemory marine.core := by
    unfold AllHaveMemory
    rw [CoreOp.outcome_modules herr]
  rw [hreported, reportsOom_convert_iff _ hcan, hmemory, CoreOp.outcome_store, rejectsOf_serve]
  have hlt := marine.core.store.limits.allocationStats.allocationRejects.toNat_lt
  by_cases hk : refusals marine.core.store (cop.requests marine.core) = 0
  · have hsmall : rejectsOf marine.core.store % 2 ^ 32 = rejectsOf marine.core.store :=
      Nat.mod_eq_of_lt hlt
    rw [hk, Nat.add_zero, hsmall]
    simp
  · simp [hk, Nat.pos_of_ne_zero hk]

/-! ## What is counted -/

theorem storeAfter_ok {core core' : MarineCore} {m f : String} {args values : List IValue}
    {run : List IValue → EngineRun (List IValue)}
    (h : core.callAsync m f args run = (.ok values, core')) :
    (CoreOp.call m f args run).storeAfter core = core'.store.clearAllocationStats := by
  rw [CoreOp.storeAfter, CoreOp.clears, CoreOp.outcome, h]
  rfl

theorem storeAfter_error {core core' : MarineCore} {m f : String} {args : List IValue}
    {run : List IValue → EngineRun (List IValue)} {e : MError}
    (h : core.callAsync m f args run = (.error e, core')) :
    (CoreOp.call m f args run).storeAfter core = core'.store := by
  rw [CoreOp.storeAfter, CoreOp.clears, CoreOp.outcome, h]
  rfl

theorem callCore_store {marine marine' : MarineInstance} {m f : String} {args : List IValue}
    {run : List IValue → EngineRun (List IValue)} {result : Except MarineError (List IValue)}
    (h : marine.callCore m f args run = some (result, marine')) :
    marine'.core.store = (CoreOp.call m f args run).storeAfter marine.core := by
  unfold MarineInstance.callCore at h
  cases hcalled : marine.core.callAsync m f args run with
  | mk called core =>
    rw [hcalled] at h
    cases called with
    | ok values =>
      cases h
      exact (storeAfter_ok hcalled).symm
    | error e =>
      obtain ⟨_, -, heq⟩ := Option.map_eq_some_iff.mp h
      cases heq
      exact (storeAfter_error hcalled).symm

theorem callWithJson_store {marine marine' : MarineInstance} {m f : String} {jsonArgs : JValue}
    {run : List IValue → EngineRun (List IValue)} {result : Except MarineError JValue}
    (h : MarineInstance.callWithJsonAsync serde marine m f jsonArgs run = some (result, marine')) :
    marine'.core.store = ((coreOp serde marine (.callWithJson m f jsonArgs run)).map
      (CoreOp.storeAfter marine.core)).getD marine.core.store := by
  unfold MarineInstance.callWithJsonAsync at h
  have hcore := marine.lookupModuleInterface_core m f
  cases hfound : marine.lookupModuleInterface m f with
  | mk found after =>
    rw [hfound] at h hcore
    dsimp only at h hcore
    cases found with
    | error e =>
      have hop : coreOp serde marine (.callWithJson m f jsonArgs run) = none := by
        simp only [coreOp, hfound]
      cases h
      rw [hop, ← hcore]
      rfl
    | ok found =>
      obtain ⟨arguments, outputs, recordTypes⟩ := found
      cases hargs : serde.jsonToIvalues jsonArgs arguments recordTypes with
      | error e =>
        have hop : coreOp serde marine (.callWithJson m f jsonArgs run) = none := by
          simp only [coreOp, hfound, hargs]
        rw [hop]
        simp only [hargs] at h
        cases e <;> (cases h; rw [← hcore]; rfl)
      | ok iargs =>
        have hop : coreOp serde marine (.callWithJson m f jsonArgs run) =
            some (.call m f iargs run) := by
          simp only [coreOp, hfound, hargs]
        rw [hop]
        simp only [hargs, jsonToMarineErr] at h
        show _ = (CoreOp.call m f iargs run).storeAfter marine.core
        rw [← hcore]
        cases hcalled : after.callCore m f iargs run with
        | none =>
          rw [hcalled] at h
          cases h
        | some called =>
          obtain ⟨values, marine''⟩ := called
          rw [hcalled] at h
          rw [← callCore_store hcalled]
          cases values <;> (cases h; rfl)

/-- **Store lemma.**  An operation leaves the store as its core operation does. -/
theorem step_store {marine marine' : MarineInstance} {op : Op JValue}
    (h : marine.step serde op = some marine') :
    marine'.core.store =
      ((coreOp serde marine op).map (CoreOp.storeAfter marine.core)).getD marine.core.store := by
  obtain ⟨⟨result, _⟩, hperform, rfl⟩ := Option.map_eq_some_iff.mp h
  cases op with
  | callWithIvalues m f args run =>
    obtain ⟨⟨values, _⟩, hcalled, heq⟩ := Option.map_eq_some_iff.mp hperform
    cases heq
    exact callCore_store hcalled
  | callWithJson m f jsonArgs run =>
    obtain ⟨⟨values, _⟩, hcalled, heq⟩ := Option.map_eq_some_iff.mp hperform
    cases heq
    exact callWithJson_store serde hcalled
  | loadModule name config run =>
    have hperform : marine.loadModule name config run = some (result, _) := hperform
    unfold MarineInstance.loadModule at hperform
    cases config with
    | error e =>
      cases hperform
      rfl
    | ok u =>
      show _ = (CoreOp.load name run).storeAfter marine.core
      rw [CoreOp.storeAfter, CoreOp.clears, CoreOp.outcome]
      cases hloaded : marine.core.loadModule name run with
      | mk loaded core =>
        rw [hloaded] at hperform
        cases loaded with
        | ok u =>
          cases hperform
          rfl
        | error e =>
          obtain ⟨_, -, heq⟩ := Option.map_eq_some_iff.mp hperform
          cases heq
          rfl
  | unloadModule name =>
    have hperform : some (marine.unloadModule name) = some (result, _) := hperform
    unfold MarineInstance.unloadModule MarineCore.unloadModule at hperform
    show _ = marine.core.store
    cases hlookup : marine.core.modules.lookup name with
    | none =>
      simp only [hlookup] at hperform
      cases hperform
      rfl
    | some module =>
      simp only [hlookup] at hperform
      cases hperform
      rfl

/-- How many requests were refused since the last successful call, when `refused` are
before the operation. -/
def refusedAfter (marine : MarineInstance) (refused : Nat) (op : Op JValue) : Nat :=
  match coreOp serde marine op with
  | none => refused
  | some cop =>
    if cop.clears marine.core then 0
    else refused + refusals marine.core.store (cop.requests marine.core)

/-- **The counter over a step.** -/
theorem step_rejects {marine marine' : MarineInstance} {op : Op JValue} {refused : Nat}
    (h : marine.step serde op = some marine')
    (hrefused : rejectsOf marine.core.store = refused % 2 ^ 32) :
    rejectsOf marine'.core.store = refusedAfter serde marine refused op % 2 ^ 32 := by
  rw [step_store serde h, refusedAfter]
  cases coreOp serde marine op with
  | none => exact hrefused
  | some cop =>
    show rejectsOf (cop.storeAfter marine.core) = _
    unfold CoreOp.storeAfter
    by_cases hclears : cop.clears marine.core
    · simp only [hclears, if_true]
      rfl
    · simp only [hclears]
      rw [if_neg (by simp), if_neg (by simp), CoreOp.outcome_store, rejectsOf_serve, hrefused,
        Nat.mod_add_mod]

/-- An instance with the number of requests that were refused since its last successful
call. -/
structure Watched where
  marine : MarineInstance
  refused : Nat

def Watched.step (w : Watched) (op : Op JValue) : Option Watched :=
  (w.marine.step serde op).map fun marine' => ⟨marine', refusedAfter serde w.marine w.refused op⟩

/-- Whenever the operation ends with an attributable core error: if nothing is refused in
it, nothing was since the last successful call; if something is, the loaded modules have
memories and the refusals since then are no multiple of `2 ^ 32`. -/
def RefusalsTell (w : Watched) (op : Op JValue) : Prop :=
  ∀ cop e, coreOp serde w.marine op = some cop → (cop.outcome w.marine.core).1 = .error e →
    CanBeOom e →
      if refusals w.marine.core.store (cop.requests w.marine.core) = 0 then
        AllHaveMemory w.marine.core → w.refused % 2 ^ 32 = 0
      else AllHaveMemory w.marine.core ∧
        (w.refused + refusals w.marine.core.store (cop.requests w.marine.core)) % 2 ^ 32 ≠ 0

/-- **Exact attribution.**  In a run of operations every attributable error is
reported as an OOM exactly when its own operation was refused memory, if and
only if the refusals since the last successful call tell about every failing operation. -/
theorem oom_attributed_iff (marine : MarineInstance) (ops : List (Op JValue)) :
    Runs.Along (MarineInstance.step serde) (OomAttributed serde) marine ops ↔
      Runs.Along (Watched.step serde) (RefusalsTell serde)
        ⟨marine, rejectsOf marine.core.store⟩ ops := by
  apply Runs.along_iff_of_rel (R := fun marine w =>
    w.marine = marine ∧ rejectsOf marine.core.store = w.refused % 2 ^ 32)
  · rintro _ w op ⟨rfl, hrefused⟩
    unfold Watched.step
    cases hstep : w.marine.step serde op with
    | none => exact .none
    | some marine' => exact .some ⟨rfl, step_rejects serde hstep hrefused⟩
  · rintro _ w op ⟨rfl, hrefused⟩
    rw [oomAttributed_step_iff]
    unfold CounterTells RefusalsTell
    simp only [hrefused, Nat.mod_add_mod]
  · have hlt := marine.core.store.limits.allocationStats.allocationRejects.toNat_lt
    exact ⟨rfl, (Nat.mod_eq_of_lt hlt).symm⟩

/-! ## A stale count -/

def worker : MModule where
  memory := some 0
  exportFuncs := AList.singleton "work" ⟨[], []⟩
  exportRecordTypes := ∅

/-- An instance with the module `worker` and two pages of memory, one of them in use. -/
def workerInstance : MarineInstance :=
  .new ((MarineCore.new (.new (some 131072))).loadModule "worker"
    ⟨[.memory (.fresh none) 65536 true], .ok worker⟩).2

/-- A call of `work` that traps after the growth requests `requests`. -/
def trappingWork (requests : List GrowRequest) : Op Unit :=
  .callWithIvalues "worker" "work" [] fun _ => ⟨requests, .error (.itInstructionError "trap")⟩

/-- A call that is refused memory and traps, and then one that traps without
having asked for any: the second is reported as an OOM. -/
theorem stale_reject_reported :
    ∃ marine marine', workerInstance.step noArgsSerde
        (trappingWork [.memory (.existing 0) 196608 true]) = some marine ∧
      marine.perform noArgsSerde (trappingWork []) =
        some (.error (.highProbabilityOOM (.itInstructionError "trap") 1), marine') ∧
      ¬ Runs.Along (MarineInstance.step noArgsSerde) (OomAttributed noArgsSerde) workerInstance
        [trappingWork [.memory (.existing 0) 196608 true], trappingWork []] := by
  refine ⟨_, _, rfl, rfl, fun hall => ?_⟩
  have hsecond := (hall.2 _ rfl).1 _ _ rfl rfl trivial
  exact absurd (hsecond.mp ⟨_, _, _, rfl⟩) (by decide)

end Marine.Runtime
