import Marine.Lib.Runs

/-!
# The call stack of the JS backend

A host import of the JS backend learns which instance has called it from
`wasm_call_stack` alone (`crates/js-backend`).  The backend is a machine here
whose events come from the host and from guest code in any order; beside the
store it keeps what really runs, as a list of activations.

* `step_spec`: the stack of the store follows the activations, and what ends leaves
  the stack of before.
* `callerOnTop_iff`: when a host import finds its caller.
* `restores_along`, `disciplined_iff`: every run.
-/

namespace Marine.JsBackend

/-! ## The store -/

/-- A `WebAssembly.Instance` of the engine, counted in the order of creation. -/
abbrev JsInstanceId := Nat

abbrev InstanceHandle := Nat

abbrev FunctionHandle := Nat

/-- A function of the engine: the instance whose code it is. -/
structure StoredFunction where
  code : JsInstanceId
  deriving DecidableEq, Repr

structure WasmExportFunction where
  storeHandle : FunctionHandle
  boundInstance : InstanceHandle
  deriving DecidableEq, Repr

structure StoredInstance where
  inner : JsInstanceId
  exports : List (String × WasmExportFunction)
  deriving DecidableEq, Repr

structure JsStoreInner where
  instances : List StoredInstance
  functions : List StoredFunction
  wasmCallStack : List InstanceHandle
  deriving DecidableEq, Repr

namespace JsStoreInner

/-- `WasmExportFunction::new_stored`. -/
def newStored (s : JsStoreInner) (handle : InstanceHandle) (code : JsInstanceId) :
    WasmExportFunction × JsStoreInner :=
  (⟨s.functions.length, handle⟩, { s with functions := s.functions ++ [⟨code⟩] })

def buildExportMap (handle : InstanceHandle) (code : JsInstanceId) :
    List String → JsStoreInner → List (String × WasmExportFunction) × JsStoreInner
  | [], s => ([], s)
  | name :: names, s =>
    let (function, s) := s.newStored handle code
    let (exports, s) := buildExportMap handle code names s
    ((name, function) :: exports, s)

/-- `JsInstance::new`: the instance is stored, then its exports are bound to it. -/
def newInstance (s : JsStoreInner) (code : JsInstanceId) (moduleExports : List String) :
    JsStoreInner :=
  let handle := s.instances.length
  let stored := { s with instances := s.instances ++ [⟨code, []⟩] }
  let (exports, stored) := buildExportMap handle code moduleExports stored
  { stored with instances := stored.instances.set handle ⟨code, exports⟩ }

/-- `JsInstance::get_function`. -/
def getFunction (s : JsStoreInner) (handle : InstanceHandle) (name : String) :
    Option WasmExportFunction := do
  let stored ← s.instances[handle]?
  stored.exports.lookup name

def pushCall (s : JsStoreInner) (handle : InstanceHandle) : JsStoreInner :=
  { s with wasmCallStack := s.wasmCallStack ++ [handle] }

def popCall (s : JsStoreInner) : JsStoreInner :=
  { s with wasmCallStack := s.wasmCallStack.dropLast }

/-- `caller_instance` of `wrap_raw_host_fn` and `wrap_raw_host_fn_async`; `none` is the
panic of its `expect`. -/
def callerInstance (s : JsStoreInner) : Option InstanceHandle :=
  s.wasmCallStack.getLast?

end JsStoreInner

/-! ## The machine -/

/-- What runs.  Guest code remembers the stack of the store from before it was
entered; a callback of the host was told its caller. -/
inductive Activation
  | exportCall (code : JsInstanceId) (entry : List InstanceHandle)
  | startSection (code : JsInstanceId) (moduleExports : List String)
      (entry : List InstanceHandle)
  | callback (caller : InstanceHandle)
  deriving DecidableEq, Repr

/-- The stack of the store from before guest code was entered. -/
def Activation.entry? : Activation → Option (List InstanceHandle)
  | .exportCall _ entry | .startSection _ _ entry => some entry
  | .callback _ => none

/-- The activations, the running one first; without any the embedder runs. -/
structure Machine where
  store : JsStoreInner
  nextJsInstance : JsInstanceId
  control : List Activation
  deriving DecidableEq, Repr

inductive Outcome
  | ok
  | err
  deriving DecidableEq, Repr

/-- The host calls an export or instantiates a module; guest code calls a host
import; a callback returns; guest code returns or traps. -/
inductive Event
  | callExport (handle : InstanceHandle) (name : String)
  | instantiate (moduleExports : List String)
  | callImport
  | returnImport (outcome : Outcome)
  | returnGuest (outcome : Outcome)
  deriving DecidableEq, Repr

namespace Machine

def init : Machine := ⟨⟨[], [], []⟩, 0, []⟩

def hostRuns (m : Machine) : Bool :=
  match m.control with
  | [] | .callback _ :: _ => true
  | _ => false

/-- The code that runs, when it is guest code. -/
def runningCode (m : Machine) : Option JsInstanceId :=
  match m.control with
  | .exportCall code _ :: _ | .startSection code _ _ :: _ => some code
  | _ => none

/-- `call_async` up to the function of the engine. -/
def callAsync (m : Machine) (function : WasmExportFunction) : Option Machine := do
  let stored ← m.store.functions[function.storeHandle]?
  return { m with
    store := m.store.pushCall function.boundInstance
    control := .exportCall stored.code m.store.wasmCallStack :: m.control }

/-- `JsModule::instantiate` up to the start section, inside of
`WebAssembly.Instance`. -/
def instantiate (m : Machine) (moduleExports : List String) : Machine :=
  { m with
    nextJsInstance := m.nextJsInstance + 1
    control := .startSection m.nextJsInstance moduleExports m.store.wasmCallStack :: m.control }

/-- Guest code ends: the rest of `call_async`, with either result, or the rest of
`JsModule::instantiate`. -/
def leaveGuest (m : Machine) (outcome : Outcome) : Option Machine :=
  match m.control, outcome with
  | .exportCall _ _ :: rest, _ => some { m with store := m.store.popCall, control := rest }
  | .startSection code moduleExports _ :: rest, .ok =>
    some { m with store := m.store.newInstance code moduleExports, control := rest }
  | .startSection _ _ _ :: rest, .err => some { m with control := rest }
  | _, _ => none

/-- The closure of `wrap_raw_host_fn`.  A panic in it is a trap of the guest code. -/
def callImport (m : Machine) : Option Machine :=
  match m.store.callerInstance with
  | some caller => some { m with control := .callback caller :: m.control }
  | none => m.leaveGuest .err

/-- An error of the callback is thrown into the guest code. -/
def returnImport (m : Machine) (outcome : Outcome) : Option Machine :=
  match m.control, outcome with
  | .callback _ :: rest, .ok => some { m with control := rest }
  | .callback _ :: rest, .err => { m with control := rest }.leaveGuest .err
  | _, _ => none

def step (m : Machine) : Event → Option Machine
  | .callExport handle name =>
    if m.hostRuns then (m.store.getFunction handle name).bind m.callAsync else none
  | .instantiate moduleExports =>
    if m.hostRuns then some (m.instantiate moduleExports) else none
  | .callImport => if m.hostRuns then none else m.callImport
  | .returnImport outcome => m.returnImport outcome
  | .returnGuest outcome => m.leaveGuest outcome

end Machine

/-! ## Exports are bound to their instance -/

/-- The instance behind a handle has this code. -/
def Owns (instances : List StoredInstance) (handle : InstanceHandle) (code : JsInstanceId) : Prop :=
  ∃ stored, instances[handle]? = some stored ∧ stored.inner = code

/-- The exports of a handle are bound to it, and their code is the instance's. -/
def Bound (functions : List StoredFunction) (handle : InstanceHandle) (code : JsInstanceId)
    (exports : List (String × WasmExportFunction)) : Prop :=
  ∀ e ∈ exports, e.2.boundInstance = handle ∧ functions[e.2.storeHandle]? = some ⟨code⟩

theorem Owns.append {instances : List StoredInstance} {handle : InstanceHandle}
    {code : JsInstanceId} (h : Owns instances handle code) (stored : StoredInstance) :
    Owns (instances ++ [stored]) handle code := by
  obtain ⟨old, hold, hcode⟩ := h
  refine ⟨old, ?_, hcode⟩
  rw [List.getElem?_append_left (List.getElem?_eq_some_iff.mp hold).1, hold]

theorem Bound.append {functions : List StoredFunction} {handle : InstanceHandle}
    {code : JsInstanceId} {exports : List (String × WasmExportFunction)}
    (h : Bound functions handle code exports) (added : List StoredFunction) :
    Bound (functions ++ added) handle code exports := by
  intro e he
  obtain ⟨hbound, hfunction⟩ := h e he
  refine ⟨hbound, ?_⟩
  rw [List.getElem?_append_left (List.getElem?_eq_some_iff.mp hfunction).1, hfunction]

/-- **Spec of `build_export_map`.** -/
theorem buildExportMap_spec (handle : InstanceHandle) (code : JsInstanceId) (names : List String)
    (s : JsStoreInner) :
    ∃ exports added, s.buildExportMap handle code names =
        (exports, { s with functions := s.functions ++ added }) ∧
      Bound (s.functions ++ added) handle code exports := by
  induction names generalizing s with
  | nil =>
    refine ⟨[], [], ?_, ?_⟩
    · simp [JsStoreInner.buildExportMap]
    · intro e he
      cases he
  | cons name names ih =>
    obtain ⟨exports, added, heq, hbound⟩ :=
      ih { s with functions := s.functions ++ [⟨code⟩] }
    refine ⟨(name, ⟨s.functions.length, handle⟩) :: exports, ⟨code⟩ :: added, ?_, ?_⟩
    · simp [JsStoreInner.buildExportMap, JsStoreInner.newStored, heq]
    · intro e he
      rw [List.append_cons]
      rcases List.mem_cons.mp he with rfl | he
      · refine ⟨rfl, ?_⟩
        rw [List.getElem?_append_left (by simp)]
        simp
      · exact hbound e he

/-- **Spec of `JsInstance::new`.** -/
theorem newInstance_spec (s : JsStoreInner) (code : JsInstanceId) (names : List String) :
    ∃ exports added, s.newInstance code names =
        { s with
          instances := s.instances ++ [⟨code, exports⟩]
          functions := s.functions ++ added } ∧
      Bound (s.functions ++ added) s.instances.length code exports := by
  obtain ⟨exports, added, heq, hbound⟩ := buildExportMap_spec s.instances.length code names
    { s with instances := s.instances ++ [⟨code, []⟩] }
  refine ⟨exports, added, ?_, hbound⟩
  simp [JsStoreInner.newInstance, heq]

/-! ## The invariant -/

/-- The stack of the store is the one that the activations leave: every running
export has pushed the handle of its code, and the code of a start section has no
handle. -/
def Tracks (instances : List StoredInstance) : List InstanceHandle → List Activation → Prop
  | stack, [] => stack = []
  | stack, .exportCall code entry :: rest =>
    (∃ handle, stack = entry ++ [handle] ∧ Owns instances handle code) ∧
      Tracks instances entry rest
  | stack, .startSection code _ entry :: rest =>
    (stack = entry ∧ ∀ stored ∈ instances, stored.inner ≠ code) ∧ Tracks instances entry rest
  | stack, .callback _ :: rest => Tracks instances stack rest

def Activation.starting? : Activation → Option JsInstanceId
  | .startSection code _ _ => some code
  | _ => none

/-- The instances of the engine whose start section runs. -/
def starting (control : List Activation) : List JsInstanceId :=
  control.filterMap Activation.starting?

structure Invariant (m : Machine) : Prop where
  bound : ∀ handle stored, m.store.instances[handle]? = some stored →
    Bound m.store.functions handle stored.inner stored.exports
  tracks : Tracks m.store.instances m.store.wasmCallStack m.control
  nodup : (starting m.control).Nodup
  starting_lt : ∀ code ∈ starting m.control, code < m.nextJsInstance
  stored_lt : ∀ stored ∈ m.store.instances, stored.inner < m.nextJsInstance

theorem invariant_init : Invariant Machine.init where
  bound := by
    intro handle stored h
    simp [Machine.init] at h
  tracks := rfl
  nodup := List.nodup_nil
  starting_lt := by
    intro code h
    cases h
  stored_lt := by
    intro stored h
    cases h

/-- A new instance disturbs no activation when its start section is not one of
those that still run. -/
theorem Tracks.append {instances : List StoredInstance} {stack : List InstanceHandle}
    {control : List Activation} {stored : StoredInstance} (h : Tracks instances stack control)
    (hfresh : stored.inner ∉ starting control) :
    Tracks (instances ++ [stored]) stack control := by
  induction control generalizing stack with
  | nil => exact h
  | cons activation rest ih =>
    cases activation with
    | exportCall code entry =>
      obtain ⟨⟨handle, hstack, howns⟩, hrest⟩ := h
      exact ⟨⟨handle, hstack, howns.append stored⟩, ih hrest hfresh⟩
    | startSection code moduleExports entry =>
      obtain ⟨⟨hstack, hother⟩, hrest⟩ := h
      have hmem : stored.inner ∉ code :: starting rest := hfresh
      rw [List.mem_cons, not_or] at hmem
      refine ⟨⟨hstack, ?_⟩, ih hrest hmem.2⟩
      intro stored' hstored'
      rcases List.mem_append.mp hstored' with hold | hnew
      · exact hother stored' hold
      · rw [List.mem_singleton.mp hnew]
        exact hmem.1
    | callback caller => exact ih h hfresh

/-! ## One step -/

theorem invariant_callAsync {m m' : Machine} {handle : InstanceHandle} {name : String}
    {function : WasmExportFunction} (hinv : Invariant m)
    (hget : m.store.getFunction handle name = some function)
    (hcall : m.callAsync function = some m') : Invariant m' := by
  obtain ⟨stored, hstored, hlookup⟩ := Option.bind_eq_some_iff.mp hget
  obtain ⟨before, after, hexports, -⟩ := List.lookup_eq_some_iff.mp hlookup
  have hmem : (name, function) ∈ stored.exports := by simp [hexports]
  obtain ⟨hbound, hfunction⟩ := hinv.bound handle stored hstored (name, function) hmem
  obtain ⟨found, hfound, hcall⟩ := Option.bind_eq_some_iff.mp hcall
  have hsame : found = ⟨stored.inner⟩ := by
    rw [hfunction, Option.some.injEq] at hfound
    exact hfound.symm
  cases hcall
  refine ⟨hinv.bound, ?_, hinv.nodup, hinv.starting_lt, hinv.stored_lt⟩
  refine ⟨⟨function.boundInstance, rfl, ?_⟩, hinv.tracks⟩
  rw [hsame]
  refine ⟨stored, ?_, rfl⟩
  rw [hbound]
  exact hstored

theorem invariant_instantiate {m : Machine} (hinv : Invariant m) (moduleExports : List String) :
    Invariant (m.instantiate moduleExports) := by
  refine ⟨hinv.bound, ?_, ?_, ?_, ?_⟩
  · refine ⟨⟨rfl, ?_⟩, hinv.tracks⟩
    intro stored hstored
    exact Nat.ne_of_lt (hinv.stored_lt stored hstored)
  · refine List.nodup_cons.mpr ⟨?_, hinv.nodup⟩
    intro hmem
    exact Nat.lt_irrefl _ (hinv.starting_lt _ hmem)
  · intro code hcode
    rcases List.mem_cons.mp hcode with rfl | hold
    · exact Nat.lt_succ_self _
    · exact Nat.lt_succ_of_lt (hinv.starting_lt code hold)
  · intro stored hstored
    exact Nat.lt_succ_of_lt (hinv.stored_lt stored hstored)

/-- The invariant below the running activation, for the stack that is found there. -/
theorem Invariant.below {m : Machine} {activation : Activation} {rest : List Activation}
    (hinv : Invariant m) (hcontrol : m.control = activation :: rest)
    {stack : List InstanceHandle} (htracks : Tracks m.store.instances stack rest) :
    Invariant { m with store := { m.store with wasmCallStack := stack }, control := rest } := by
  have hsub : (starting rest).Sublist (starting m.control) := by
    rw [hcontrol]
    exact (List.sublist_cons_self activation rest).filterMap _
  refine ⟨hinv.bound, htracks, hsub.nodup hinv.nodup, ?_, hinv.stored_lt⟩
  intro code hcode
  exact hinv.starting_lt code (hsub.subset hcode)

/-- A finished start section adds its instance, with exports that are bound to it. -/
theorem invariant_newInstance {m : Machine} {code : JsInstanceId} {moduleExports : List String}
    {entry : List InstanceHandle} {rest : List Activation} (hinv : Invariant m)
    (hcontrol : m.control = .startSection code moduleExports entry :: rest) :
    Invariant { m with store := m.store.newInstance code moduleExports, control := rest } := by
  obtain ⟨hbound, htracks, hnodup, hstarting, hstored⟩ := hinv
  rw [hcontrol] at htracks hnodup hstarting
  obtain ⟨⟨hstack, _⟩, hrest⟩ := htracks
  have hnodup' : (code :: starting rest).Nodup := hnodup
  obtain ⟨exports, added, heq, hnew⟩ := newInstance_spec m.store code moduleExports
  rw [heq]
  refine ⟨?_, ?_, (List.nodup_cons.mp hnodup').2, ?_, ?_⟩
  · intro handle stored hget
    rw [List.getElem?_append] at hget
    split at hget
    · exact (hbound handle stored hget).append added
    · rename_i hge
      rw [List.getElem?_singleton] at hget
      split at hget
      · rename_i hzero
        cases hget
        have hlast : handle = m.store.instances.length :=
          Nat.le_antisymm (Nat.sub_eq_zero_iff_le.mp hzero) (Nat.le_of_not_lt hge)
        rw [hlast]
        exact hnew
      · cases hget
  · show Tracks _ m.store.wasmCallStack rest
    rw [hstack]
    exact hrest.append (List.nodup_cons.mp hnodup').1
  · intro code' hcode'
    exact hstarting code' (List.mem_cons_of_mem code hcode')
  · intro stored hmem
    rcases List.mem_append.mp hmem with hold | hlast
    · exact hstored stored hold
    · rw [List.mem_singleton.mp hlast]
      exact hstarting code List.mem_cons_self

/-- Guest code that ends: the invariant holds of what is below it, and the stack is
the one from before it was entered. -/
theorem leaveGuest_spec {m m' : Machine} {outcome : Outcome} (hinv : Invariant m)
    (hleave : m.leaveGuest outcome = some m') :
    Invariant m' ∧ ∃ activation, m.control = activation :: m'.control ∧
      activation.entry? = some m'.store.wasmCallStack := by
  have htracks := hinv.tracks
  unfold Machine.leaveGuest at hleave
  split at hleave
  · rename_i code entry rest hcontrol
    cases hleave
    rw [hcontrol] at htracks
    obtain ⟨⟨handle, hstack, _⟩, hrest⟩ := htracks
    have hpop : m.store.wasmCallStack.dropLast = entry := by simp [hstack]
    refine ⟨?_, _, hcontrol, congrArg some hpop.symm⟩
    apply hinv.below hcontrol
    rw [hpop]
    exact hrest
  · rename_i code moduleExports entry rest hcontrol
    cases hleave
    rw [hcontrol] at htracks
    obtain ⟨exports, added, heq, _⟩ := newInstance_spec m.store code moduleExports
    refine ⟨invariant_newInstance hinv hcontrol, _, hcontrol, ?_⟩
    rw [heq, htracks.1.1]
    rfl
  · rename_i code moduleExports entry rest hcontrol
    cases hleave
    rw [hcontrol] at htracks
    obtain ⟨⟨hstack, _⟩, hrest⟩ := htracks
    refine ⟨?_, _, hcontrol, congrArg some hstack.symm⟩
    apply hinv.below hcontrol
    rw [hstack]
    exact hrest
  · cases hleave

theorem invariant_dropCallback {m : Machine} {caller : InstanceHandle} {rest : List Activation}
    (hinv : Invariant m) (hcontrol : m.control = .callback caller :: rest) :
    Invariant { m with control := rest } := by
  have htracks := hinv.tracks
  rw [hcontrol] at htracks
  exact hinv.below hcontrol htracks

/-- What has ended between two states had found, when it was entered, the stack
that is there now. -/
def Restores (m m' : Machine) : Prop :=
  ∀ ended, m.control = ended ++ m'.control →
    ∀ entry ∈ ended.filterMap Activation.entry?, m'.store.wasmCallStack = entry

theorem restores_of_append {m m' : Machine} (gone : List Activation)
    (hcontrol : m.control = gone ++ m'.control)
    (hgone : ∀ entry ∈ gone.filterMap Activation.entry?, m'.store.wasmCallStack = entry) :
    Restores m m' := by
  intro ended hended
  have hsame : ended = gone := by
    rw [hcontrol] at hended
    exact (List.append_cancel_right hended).symm
  rw [hsame]
  exact hgone

/-- An activation that begins ends nothing. -/
theorem restores_of_cons {m m' : Machine} {activation : Activation}
    (hcontrol : m'.control = activation :: m.control) : Restores m m' := by
  intro ended hended
  have hlen := congrArg List.length hended
  rw [hcontrol, List.length_append, List.length_cons] at hlen
  omega

theorem restores_leaveGuest {m m' : Machine} {outcome : Outcome} (hinv : Invariant m)
    (hleave : m.leaveGuest outcome = some m') : Restores m m' := by
  obtain ⟨_, activation, hcontrol, hentry⟩ := leaveGuest_spec hinv hleave
  apply restores_of_append [activation] hcontrol
  intro entry hmem
  rw [List.filterMap_cons, hentry] at hmem
  exact (List.mem_singleton.mp hmem).symm

theorem returnImport_spec {m m' : Machine} {outcome : Outcome} (hinv : Invariant m)
    (hreturn : m.returnImport outcome = some m') : Invariant m' ∧ Restores m m' := by
  unfold Machine.returnImport at hreturn
  split at hreturn
  · rename_i caller rest hcontrol
    cases hreturn
    refine ⟨invariant_dropCallback hinv hcontrol, ?_⟩
    apply restores_of_append [.callback caller] hcontrol
    intro entry hmem
    cases hmem
  · rename_i caller rest hcontrol
    have hrest := invariant_dropCallback hinv hcontrol
    obtain ⟨hinv', activation, hguest, hentry⟩ := leaveGuest_spec hrest hreturn
    refine ⟨hinv', ?_⟩
    have hguest' : rest = activation :: m'.control := hguest
    apply restores_of_append [.callback caller, activation]
    · rw [hcontrol, hguest']
      rfl
    · intro entry hmem
      have hmem' : entry ∈ [activation].filterMap Activation.entry? := hmem
      rw [List.filterMap_cons, hentry] at hmem'
      exact (List.mem_singleton.mp hmem').symm
  · cases hreturn

theorem callImport_spec {m m' : Machine} (hinv : Invariant m)
    (hcall : m.callImport = some m') : Invariant m' ∧ Restores m m' := by
  unfold Machine.callImport at hcall
  split at hcall
  · rename_i caller _
    cases hcall
    refine ⟨⟨hinv.bound, hinv.tracks, hinv.nodup, hinv.starting_lt, hinv.stored_lt⟩, ?_⟩
    exact restores_of_cons rfl
  · exact ⟨(leaveGuest_spec hinv hcall).1, restores_leaveGuest hinv hcall⟩

/-- **Step lemma.**  Every event keeps the invariant, and what it ends leaves the
stack of before. -/
theorem step_spec {m m' : Machine} {e : Event} (hinv : Invariant m)
    (hstep : m.step e = some m') : Invariant m' ∧ Restores m m' := by
  cases e with
  | callExport handle name =>
    rw [Machine.step] at hstep
    split at hstep
    · obtain ⟨function, hget, hcall⟩ := Option.bind_eq_some_iff.mp hstep
      refine ⟨invariant_callAsync hinv hget hcall, ?_⟩
      obtain ⟨stored, _, hcall⟩ := Option.bind_eq_some_iff.mp hcall
      cases hcall
      exact restores_of_cons rfl
    · cases hstep
  | instantiate moduleExports =>
    rw [Machine.step] at hstep
    split at hstep
    · cases hstep
      exact ⟨invariant_instantiate hinv moduleExports, restores_of_cons rfl⟩
    · cases hstep
  | callImport =>
    rw [Machine.step] at hstep
    split at hstep
    · cases hstep
    · exact callImport_spec hinv hstep
  | returnImport outcome => exact returnImport_spec hinv hstep
  | returnGuest outcome =>
    exact ⟨(leaveGuest_spec hinv hstep).1, restores_leaveGuest hinv hstep⟩

/-! ## Who calls a host import -/

/-- The stack of the store is not empty, and on top of it is the instance whose code
runs. -/
def CallerOnTop (m : Machine) : Prop :=
  ∀ code, m.runningCode = some code →
    ∃ caller, m.store.callerInstance = some caller ∧ Owns m.store.instances caller code

def Machine.inStartSection (m : Machine) : Bool :=
  match m.control with
  | .startSection _ _ _ :: _ => true
  | _ => false

/-- **The caller of a host import** is found, except from a start section: its
instance has no handle yet. -/
theorem callerOnTop_iff {m : Machine} (hinv : Invariant m) :
    CallerOnTop m ↔ m.inStartSection = false := by
  have htracks := hinv.tracks
  unfold CallerOnTop Machine.runningCode Machine.inStartSection
  cases hcontrol : m.control with
  | nil => simp
  | cons activation rest =>
    rw [hcontrol] at htracks
    cases activation with
    | callback caller => simp
    | exportCall code entry =>
      obtain ⟨⟨handle, hstack, howns⟩, _⟩ := htracks
      refine iff_of_true ?_ rfl
      intro code' hcode
      cases hcode
      refine ⟨handle, ?_, howns⟩
      simp [JsStoreInner.callerInstance, hstack]
    | startSection code moduleExports entry =>
      obtain ⟨⟨_, hother⟩, _⟩ := htracks
      refine iff_of_false ?_ (by simp)
      intro h
      obtain ⟨caller, _, stored, hstored, hcode⟩ := h code rfl
      exact hother stored (List.mem_of_getElem? hstored) hcode

/-- The discipline at one event: a host import that is called finds its caller on
top of the stack, and what ends leaves the stack of before. -/
def Disciplined (m : Machine) (e : Event) : Prop :=
  (e = .callImport → CallerOnTop m) ∧ ∀ m' ∈ m.step e, Restores m m'

/-- A host import is not called from a start section. -/
def OutsideStartSection (m : Machine) (e : Event) : Prop :=
  e = .callImport → m.inStartSection = false

theorem disciplined_step_iff {m : Machine} (hinv : Invariant m) (e : Event) :
    Disciplined m e ↔ OutsideStartSection m e := by
  constructor
  · intro h he
    exact (callerOnTop_iff hinv).mp (h.1 he)
  · intro h
    refine ⟨?_, ?_⟩
    · intro he
      exact (callerOnTop_iff hinv).mpr (h he)
    · intro m' hm'
      exact (step_spec hinv hm').2

/-- In every run, whatever ends leaves the stack of before. -/
theorem restores_along (events : List Event) :
    Runs.Along Machine.step (fun m e => ∀ m' ∈ m.step e, Restores m m') Machine.init events := by
  refine Runs.along_of_invariant ?_ invariant_init (Runs.along_true Machine.init events)
  intro m e hinv _
  refine ⟨?_, ?_⟩
  · intro m' hm'
    exact (step_spec hinv hm').2
  · intro m' hm'
    exact (step_spec hinv hm').1

/-- **Every run** keeps the discipline exactly when no start section calls a host
import. -/
theorem disciplined_iff (events : List Event) :
    Runs.Along Machine.step Disciplined Machine.init events ↔
      Runs.Along Machine.step OutsideStartSection Machine.init events := by
  constructor
  · intro h
    refine Runs.along_of_invariant ?_ invariant_init h
    intro m e hinv hd
    exact ⟨(disciplined_step_iff hinv e).mp hd, fun m' hm' => (step_spec hinv hm').1⟩
  · intro h
    refine Runs.along_of_invariant ?_ invariant_init h
    intro m e hinv ho
    exact ⟨(disciplined_step_iff hinv e).mpr ho, fun m' hm' => (step_spec hinv hm').1⟩

/-- The first module that is instantiated calls a host import from its start
section: the stack is empty, the import panics, and the instantiation fails. -/
theorem startSection_callImport :
    ∃ m m', Runs.run Machine.step Machine.init [.instantiate ["invoke"]] = some m ∧
      m.store.callerInstance = none ∧ m.step .callImport = some m' ∧
      m'.control = [] ∧ m'.store.instances = [] ∧
      ¬ Runs.Along Machine.step Disciplined Machine.init
        [.instantiate ["invoke"], .callImport] := by
  refine ⟨_, _, rfl, rfl, rfl, rfl, rfl, ?_⟩
  intro h
  obtain ⟨caller, hcaller, _⟩ := (h.2 _ rfl).1.1 rfl 0 rfl
  cases hcaller

end Marine.JsBackend
