import Marine.Lib.Runs
import Marine.Loader.ModuleLoading
import Mathlib.Algebra.Order.Ring.Nat

/-!
# Calls between loaded modules

A module gets the functions that it imports from the modules registered while it is
loaded, and keeps them: `unload_module` and a later module under the same name
change the registry only (`core/src/marine_core.rs`, `wit_instance.rs`).  Instances
are known here by the order in which they were created.

* `newModule_eq_ok_iff`: `MModule::new` is `linkModule` and then the code that runs
  while a module is loaded.
* `imports_boundAtLoad`: the links of an instance go to the modules registered while
  it was loaded, whatever happens later.
* `calls_enterLoaded`: calls from outside enter what `MarineCore` has loaded.
* `calls_neverReenter`: calls go from later instances to earlier ones, and no
  instance is entered again through another one.
-/

namespace Marine.Loader

open Marine.Runtime

/-! ## Links -/

/-- Where an import leads: to a function of the instance that was created as number
`target`. -/
structure Link where
  target : Nat
  function : String
  deriving DecidableEq, Repr

/-- A module in the registry, and the number of its instance. -/
structure RegisteredModule where
  id : Nat
  module : MModule

abbrev Registry := AList fun _ : String => RegisteredModule

/-- What `ITInstance::new` sees of the registry. -/
def Registry.modules (registry : Registry) : AList fun _ : String => MModule :=
  Maps.mapValues RegisteredModule.module registry

theorem Registry.lookup_modules {registry : Registry} {name : String} {module : MModule} :
    registry.modules.lookup name = some module ↔
      ∃ r, registry.lookup name = some r ∧ r.module = module := by
  rw [Registry.modules, Maps.lookup_mapValues, Option.map_eq_some_iff]

/-- Exports of the instance itself have no link. -/
def Registry.link (registry : Registry) : CallTarget → Option Link
  | .export _ => none
  | .import i => (registry.lookup i.nameSpace).map fun r => ⟨r.id, i.name⟩

structure LinkedInstance where
  name : String
  module : MModule
  wit : MITInterfaces
  funcs : AList fun _ : Nat => WITFunction
  /-- By the numbers of `call-core`. -/
  links : List (Option Link)

/-- `MModule::new` up to the code of the module that it runs. -/
def linkModule (run : ModuleRun) (name : String) (registry : Registry) :
    Except LoadFailure LinkedInstance := do
  orError run.wasmModule
  orError run.checkSdkVersion
  let it ← orError run.extractIt
  orError run.checkItVersion
  let mit := MITInterfaces.new it
  let _ ← addWitImports run mit
  orError run.addWasiImports
  orError run.addHostImports
  let wasmInstance ← orError run.instantiate
  let itInstance ← ITInstance.new wasmInstance name mit registry.modules
  let (exportFuncs, exportRecordTypes) ← orError (instantiateExports run.parses mit)
  return {
    name := name
    module := ⟨wasmInstance.exportMemories.head?, exportFuncs, exportRecordTypes⟩
    wit := mit
    funcs := itInstance.funcs
    links := (numbering mit).map registry.link }

/-- The code that runs once the module is linked. -/
def runInitializers (run : ModuleRun) : Except MError Unit := do
  let wasmInstance ← run.instantiate
  callIfExported run wasmInstance "_initialize"
  callIfExported run wasmInstance "_start"

theorem newModule_eq_ok_iff {run : ModuleRun} {name : String} {registry : Registry}
    {module : MModule} :
    newModule false run name registry.modules = .ok module ↔
      (∃ inst, linkModule run name registry = .ok inst ∧ inst.module = module) ∧
        runInitializers run = .ok () := by
  simp only [newModule, newModuleFrom, processTables, newInstanceIn_release, linkModule,
    runInitializers, Fallible.bind_eq_ok_iff, orError_eq_ok_iff]
  constructor
  · rintro ⟨⟨⟩, hwasm, ⟨⟩, hsdk, it, hit, ⟨⟩, hversion, ⟨wasmInstance, funcs, records⟩,
      ⟨imports, himports, ⟨⟩, hwasi, ⟨⟩, hhost, _, hinst, itInstance, hnew, _, hexports, h⟩,
      ⟨⟩, hinit, ⟨⟩, hstart, h'⟩
    cases h
    cases h'
    exact ⟨⟨_, ⟨(), hwasm, (), hsdk, it, hit, (), hversion, imports, himports, (), hwasi, (), hhost,
      _, hinst, itInstance, hnew, _, hexports, rfl⟩, rfl⟩, _, hinst, (), hinit, hstart⟩
  · rintro ⟨⟨inst, ⟨⟨⟩, hwasm, ⟨⟩, hsdk, it, hit, ⟨⟩, hversion, imports, himports, ⟨⟩, hwasi, ⟨⟩,
      hhost, wasmInstance, hinst, itInstance, hnew, ⟨funcs, records⟩, hexports, h⟩, rfl⟩,
      wasmInstance', hinst', ⟨⟩, hinit, hstart⟩
    cases h
    cases hinst.symm.trans hinst'
    exact ⟨(), hwasm, (), hsdk, it, hit, (), hversion, _, ⟨imports, himports, (), hwasi, (), hhost,
      _, hinst, itInstance, hnew, _, hexports, rfl⟩, (), hinit, (), hstart, rfl⟩

/-- The registry has the function that the link leads to. -/
def Registry.Serves (registry : Registry) (i : Import) (link : Link) (callable : Callable) : Prop :=
  ∃ r, registry.lookup i.nameSpace = some r ∧ link = ⟨r.id, i.name⟩ ∧
    r.module.exportFuncs.lookup i.name = some callable

theorem extractImport_ok {name : String} {modules : AList fun _ : String => MModule}
    {wit : MITInterfaces} {i : Import} {func : WITFunction}
    (h : ITInstance.extractImport name modules wit i = .ok func) :
    ∃ module callable, modules.lookup i.nameSpace = some module ∧
      module.exportFuncs.lookup i.name = some callable ∧ func.inner = .import callable := by
  cases hmodule : modules.lookup i.nameSpace with
  | none =>
    rw [ITInstance.extractImport, hmodule] at h
    cases h
  | some module =>
    rw [ITInstance.extractImport, hmodule] at h
    obtain ⟨signature, -, h⟩ := Fallible.bind_eq_ok_iff.mp h
    cases hcallable : module.exportFuncs.lookup i.name with
    | none =>
      simp only [WITFunction.fromImport, MModule.getCallable, hcallable] at h
      cases h
    | some callable =>
      simp only [WITFunction.fromImport, MModule.getCallable, hcallable] at h
      cases h
      exact ⟨module, callable, rfl, hcallable, rfl⟩

/-- **What a loaded module imports** is there while it is loaded. -/
theorem newModule_imports {run : ModuleRun} {name : String}
    {modules : AList fun _ : String => MModule} {module : MModule}
    (h : newModule false run name modules = .ok module) {it : Interfaces}
    (hit : run.extractIt = .ok it) {i : Import} (hi : i ∈ adapterImports (MITInterfaces.new it)) :
    ∃ target callable, modules.lookup i.nameSpace = some target ∧
      target.exportFuncs.lookup i.name = some callable := by
  simp only [newModule, newModuleFrom, processTables, newInstanceIn_release,
    Fallible.bind_eq_ok_iff, orError_eq_ok_iff] at h
  obtain ⟨-, -, -, -, it', hit', -, -, -, ⟨-, -, -, -, -, -, wasmInstance, -, itInstance, hnew, -⟩,
    -⟩ := h
  cases hit.symm.trans hit'
  obtain ⟨funcs, hall, -⟩ := funcs_eq hnew
  have hmem : .import i ∈ numbering (MITInterfaces.new it) :=
    List.mem_append_right _ (List.mem_map_of_mem hi)
  obtain ⟨n, hn⟩ := List.mem_iff_getElem?.mp hmem
  obtain ⟨func, -, htarget⟩ := Fallible.getElem?_mapM hall hn
  obtain ⟨target, callable, htarget, hcallable, -⟩ := extractImport_ok htarget
  exact ⟨target, callable, htarget, hcallable⟩

theorem extractImport_serves {name : String} {registry : Registry} {wit : MITInterfaces}
    {i : Import} {func : WITFunction}
    (h : ITInstance.extractImport name registry.modules wit i = .ok func) :
    ∃ link callable, registry.link (.import i) = some link ∧ func.inner = .import callable ∧
      registry.Serves i link callable := by
  obtain ⟨module, callable, hmodule, hcallable, hinner⟩ := extractImport_ok h
  obtain ⟨r, hr, rfl⟩ := Registry.lookup_modules.mp hmodule
  refine ⟨⟨r.id, i.name⟩, callable, ?_, hinner, r, hr, rfl, hcallable⟩
  rw [Registry.link, hr]
  rfl

theorem linkModule_ok {run : ModuleRun} {name : String} {registry : Registry}
    {inst : LinkedInstance} (h : linkModule run name registry = .ok inst) :
    inst.name = name ∧ inst.links = (numbering inst.wit).map registry.link ∧
      ∃ wasmInstance it, ITInstance.new wasmInstance name inst.wit registry.modules = .ok it ∧
        inst.funcs = it.funcs := by
  simp only [linkModule, Fallible.bind_eq_ok_iff, orError_eq_ok_iff] at h
  obtain ⟨-, -, -, -, it, -, -, -, -, -, -, -, -, -, wasmInstance, -, itInstance, hnew, _, -, h⟩ :=
    h
  cases h
  exact ⟨rfl, rfl, wasmInstance, itInstance, hnew, rfl⟩

/-- **What a linked instance holds** under the number of an import: the function
behind the link. -/
theorem linkModule_import {run : ModuleRun} {name : String} {registry : Registry}
    {inst : LinkedInstance} (h : linkModule run name registry = .ok inst) {n : Nat} {i : Import}
    (hn : (numbering inst.wit)[n]? = some (.import i)) :
    ∃ func link callable, inst.funcs.lookup n = some func ∧ func.inner = .import callable ∧
      inst.links[n]? = some (some link) ∧ registry.Serves i link callable := by
  obtain ⟨-, hlinks, wasmInstance, it, hnew, hfuncs⟩ := linkModule_ok h
  obtain ⟨funcs, hall, hlookup⟩ := funcs_eq hnew
  obtain ⟨func, hfunc, htarget⟩ := Fallible.getElem?_mapM hall hn
  obtain ⟨link, callable, hlink, hinner, hserves⟩ := extractImport_serves htarget
  refine ⟨func, link, callable, ?_, hinner, ?_, hserves⟩
  · rw [hfuncs, hlookup, hfunc]
  · rw [hlinks, List.getElem?_map, hn, ← hlink]
    rfl

/-- Only imports have links. -/
theorem linkModule_link {run : ModuleRun} {name : String} {registry : Registry}
    {inst : LinkedInstance} (h : linkModule run name registry = .ok inst) {link : Link}
    (hlink : some link ∈ inst.links) : ∃ i callable, registry.Serves i link callable := by
  obtain ⟨-, hlinks, -⟩ := linkModule_ok h
  have hmem := hlink
  rw [hlinks] at hmem
  obtain ⟨target, htarget, heq⟩ := List.mem_map.mp hmem
  obtain ⟨n, hn⟩ := List.mem_iff_getElem?.mp htarget
  cases target with
  | «export» exported => cases heq
  | «import» i =>
    obtain ⟨-, link', callable, -, -, hlink', hserves⟩ := linkModule_import h hn
    rw [hlinks, List.getElem?_map, hn, Option.map_some, heq, Option.some.injEq,
      Option.some.injEq] at hlink'
    rw [hlink']
    exact ⟨i, callable, hserves⟩

/-! ## Events -/

/-- The instances in the order of their creation.  The last of `stack` is entered from
outside, the first of it runs. -/
structure LinkedRuntime where
  instances : List LinkedInstance
  registry : Registry
  loading : Option Nat
  stack : List Nat

inductive LinkEvent
  /-- `load_module`, up to the code of the module. -/
  | load (name : String) (run : ModuleRun)
  /-- The code of the module that is loaded is entered. -/
  | enterLoaded
  /-- The end of `load_module`; `false` when that code has failed. -/
  | finishLoad (succeeded : Bool)
  | unload (name : String)
  /-- `call_async` of the core. -/
  | call (moduleName functionName : String)
  /-- `call-core` in an adapter of the instance that runs. -/
  | callCore (number : Nat)
  /-- A return, with or without a result. -/
  | leave

namespace LinkedRuntime

def init : LinkedRuntime := ⟨[], ∅, none, []⟩

/-- Nothing is called or loaded: the core is borrowed by one call at a time. -/
def Idle (s : LinkedRuntime) : Prop := s.loading = none ∧ s.stack = []

instance (s : LinkedRuntime) : Decidable s.Idle := inferInstanceAs (Decidable (_ ∧ _))

/-- `NonUniqueModuleName` leaves the registry as it is. -/
def register (s : LinkedRuntime) (id : Nat) : Registry :=
  match s.instances[id]? with
  | some inst =>
    match s.registry.lookup inst.name with
    | none => s.registry.insert inst.name ⟨id, inst.module⟩
    | some _ => s.registry
  | none => s.registry

/-- `none` where the event cannot happen, or the process panics. -/
def step (s : LinkedRuntime) : LinkEvent → Option LinkedRuntime
  | .load name run =>
    if s.Idle then
      match linkModule run name s.registry with
      | .ok inst => some { s with
          instances := s.instances ++ [inst], loading := some s.instances.length }
      | .error (.error _) => some s
      | .error .panicked => none
    else none
  | .enterLoaded => if s.stack = [] then s.loading.map fun id => { s with stack := [id] } else none
  | .finishLoad succeeded =>
    if s.stack = [] then
      s.loading.map fun id => { s with
        registry := if succeeded then s.register id else s.registry, loading := none }
    else none
  | .unload name => if s.Idle then some { s with registry := s.registry.erase name } else none
  | .call moduleName functionName =>
    if s.Idle then
      match s.registry.lookup moduleName with
      | none => some s
      | some r =>
        match r.module.exportFuncs.lookup functionName with
        | none => some s
        | some _ => some { s with stack := [r.id] }
    else none
  | .callCore number =>
    match s.stack with
    | [] => none
    | id :: callers =>
      match s.instances[id]? with
      | none => none
      | some inst =>
        match inst.links[number]? with
        | none => some s
        | some none => some { s with stack := id :: id :: callers }
        | some (some link) => some { s with stack := link.target :: id :: callers }
  | .leave => some { s with stack := s.stack.tail }

/-- The registry is that of `MarineCore`. -/
def Refines (s : LinkedRuntime) (core : MarineCore) : Prop :=
  ∀ name, core.modules.lookup name = (s.registry.lookup name).map RegisteredModule.module

theorem register_refines {s : LinkedRuntime} {core : MarineCore} (href : s.Refines core) {id : Nat}
    {inst : LinkedInstance} (hinst : s.instances[id]? = some inst) :
    Refines { s with registry := s.register id, loading := none }
      (core.loadModule inst.name ⟨[], .ok inst.module⟩).2 := by
  intro name
  have hcore := href inst.name
  simp only [register, hinst]
  cases hname : s.registry.lookup inst.name with
  | none =>
    rw [hname] at hcore
    simp only [MarineCore.loadModule, hcore, Option.map_none]
    by_cases heq : name = inst.name
    · subst heq
      rw [AList.lookup_insert, AList.lookup_insert]
      rfl
    · rw [AList.lookup_insert_ne heq, AList.lookup_insert_ne heq]
      exact href name
  | some r =>
    rw [hname] at hcore
    simp only [MarineCore.loadModule, hcore, Option.map_some]
    exact href name

theorem erase_refines {s : LinkedRuntime} {core : MarineCore} (href : s.Refines core)
    (name : String) :
    Refines { s with registry := s.registry.erase name } (core.unloadModule name).2 := by
  intro other
  have hcore := href name
  have herase : (core.unloadModule name).2.modules.lookup other =
      (core.modules.erase name).lookup other := by
    cases hname : core.modules.lookup name with
    | some module =>
      simp only [MarineCore.unloadModule, hname]
    | none =>
      simp only [MarineCore.unloadModule, hname]
      by_cases heq : other = name
      · subst heq
        rw [hname, AList.lookup_erase]
      · rw [AList.lookup_erase_ne heq]
  rw [herase]
  by_cases heq : other = name
  · subst heq
    rw [AList.lookup_erase, AList.lookup_erase]
    rfl
  · rw [AList.lookup_erase_ne heq, AList.lookup_erase_ne heq]
    exact href other

/-- What the core does in an event. -/
def coreStep (s : LinkedRuntime) (core : MarineCore) : LinkEvent → MarineCore
  | .finishLoad true =>
    match s.loading.bind (s.instances[·]?) with
    | some inst => (core.loadModule inst.name ⟨[], .ok inst.module⟩).2
    | none => core
  | .unload name => (core.unloadModule name).2
  | _ => core

/-- Both levels side by side. -/
def stepWithCore (p : LinkedRuntime × MarineCore) (e : LinkEvent) :
    Option (LinkedRuntime × MarineCore) :=
  (p.1.step e).map fun s' => (s', p.1.coreStep p.2 e)

/-- What an event can do. -/
inductive Change (s : LinkedRuntime) : LinkEvent → LinkedRuntime → Prop
  | same {e : LinkEvent} (quiet : ∀ core, s.coreStep core e = core) : Change s e s
  | created {run : ModuleRun} {name : String} {inst : LinkedInstance}
      (linked : linkModule run name s.registry = .ok inst) (idle : s.Idle) :
      Change s (.load name run) { s with
        instances := s.instances ++ [inst], loading := some s.instances.length }
  | registered {id : Nat} {succeeded : Bool} (loading : s.loading = some id) :
      Change s (.finishLoad succeeded) { s with
        registry := if succeeded then s.register id else s.registry, loading := none }
  | unregistered (name : String) :
      Change s (.unload name) { s with registry := s.registry.erase name }
  | entered {e : LinkEvent} {id : Nat} (quiet : ∀ core, s.coreStep core e = core)
      (known : s.loading = some id ∨ ∃ name r, s.registry.lookup name = some r ∧ r.id = id) :
      Change s e { s with stack := [id] }
  | called {number id target : Nat} {callers : List Nat} (running : s.stack = id :: callers)
      (reached : target = id ∨ ∃ inst link, s.instances[id]? = some inst ∧
        some link ∈ inst.links ∧ target = link.target) :
      Change s (.callCore number) { s with stack := target :: id :: callers }
  | left : Change s .leave { s with stack := s.stack.tail }

theorem step_change {s s' : LinkedRuntime} {e : LinkEvent} (h : s.step e = some s') :
    Change s e s' := by
  cases e with
  | load name run =>
    simp only [step] at h
    split at h
    · rename_i hidle
      split at h
      · rename_i inst hlink
        cases h
        exact .created hlink hidle
      · cases h
        exact .same fun _ => rfl
      · cases h
    · cases h
  | enterLoaded =>
    simp only [step] at h
    split at h
    · obtain ⟨id, hid, rfl⟩ := Option.map_eq_some_iff.mp h
      exact .entered (fun _ => rfl) (.inl hid)
    · cases h
  | finishLoad succeeded =>
    simp only [step] at h
    split at h
    · obtain ⟨id, hid, rfl⟩ := Option.map_eq_some_iff.mp h
      exact .registered hid
    · cases h
  | unload name =>
    simp only [step] at h
    split at h
    · cases h
      exact .unregistered name
    · cases h
  | call moduleName functionName =>
    simp only [step] at h
    split at h
    · split at h
      · cases h
        exact .same fun _ => rfl
      · rename_i r hr
        split at h
        · cases h
          exact .same fun _ => rfl
        · cases h
          exact .entered (fun _ => rfl) (.inr ⟨moduleName, r, hr, rfl⟩)
    · cases h
  | callCore number =>
    simp only [step] at h
    split at h
    · cases h
    · rename_i id callers hstack
      split at h
      · cases h
      · rename_i inst hinst
        split at h
        · cases h
          exact .same fun _ => rfl
        · cases h
          exact .called hstack (.inl rfl)
        · rename_i link hlink
          cases h
          exact .called hstack (.inr ⟨inst, link, hinst, List.mem_of_getElem? hlink, rfl⟩)
  | leave =>
    cases h
    exact .left

/-- **Refinement step.** -/
theorem change_refines {s s' : LinkedRuntime} {core : MarineCore} {e : LinkEvent}
    (href : s.Refines core) (h : Change s e s') : s'.Refines (s.coreStep core e) := by
  cases h with
  | same hquiet =>
    rw [hquiet]
    exact href
  | created => exact href
  | @registered id succeeded hloading =>
    cases succeeded with
    | false => exact href
    | true =>
      cases hinst : s.instances[id]? with
      | none =>
        simp only [coreStep, hloading, Option.bind_some, hinst, if_true, register]
        exact href
      | some inst =>
        simp only [coreStep, hloading, Option.bind_some, hinst, if_true]
        exact register_refines href hinst
  | unregistered name => exact erase_refines href name
  | entered hquiet =>
    rw [hquiet]
    exact href
  | called => exact href
  | left => exact href

/-! ## What holds in every run -/

/-- The registry names instances, links go to earlier instances, and so do calls. -/
structure Linked (s : LinkedRuntime) : Prop where
  registered : ∀ name r, s.registry.lookup name = some r →
    ∃ inst, s.instances[r.id]? = some inst ∧ inst.name = name ∧ inst.module = r.module
  earlier : ∀ (id : Nat) (inst : LinkedInstance) (link : Link), s.instances[id]? = some inst →
    some link ∈ inst.links → link.target < id
  loading : ∀ id, s.loading = some id → id < s.instances.length
  running : ∀ id ∈ s.stack, id < s.instances.length
  sorted : s.stack.Pairwise (· ≤ ·)

theorem linked_init : Linked init where
  registered name r h := by cases h
  earlier id inst link h := by cases h
  loading id h := by cases h
  running id h := by cases h
  sorted := .nil

theorem linked_created {s : LinkedRuntime} (hs : Linked s) (hidle : s.Idle) {run : ModuleRun}
    {name : String} {inst : LinkedInstance} (hlink : linkModule run name s.registry = .ok inst) :
    Linked { s with
      instances := s.instances ++ [inst], loading := some s.instances.length } where
  registered name r hr := by
    obtain ⟨target, htarget, hname⟩ := hs.registered name r hr
    have hlt : r.id < s.instances.length := (List.getElem?_eq_some_iff.mp htarget).1
    exact ⟨target, (List.getElem?_append_left hlt).trans htarget, hname⟩
  earlier id inst' link hid hmem := by
    rcases Nat.lt_or_ge id s.instances.length with hlt | hge
    · rw [List.getElem?_append_left hlt] at hid
      exact hs.earlier id inst' link hid hmem
    · have hlen : id < (s.instances ++ [inst]).length := (List.getElem?_eq_some_iff.mp hid).1
      have heq : id = s.instances.length := by
        rw [List.length_append, List.length_singleton] at hlen
        omega
      subst heq
      rw [List.getElem?_concat_length, Option.some.injEq] at hid
      subst hid
      obtain ⟨i, callable, r, hr, rfl, -⟩ := linkModule_link hlink hmem
      obtain ⟨target, htarget, -⟩ := hs.registered i.nameSpace r hr
      exact (List.getElem?_eq_some_iff.mp htarget).1
  loading id hid := by
    cases hid
    simp
  running id hid := by
    rw [hidle.2] at hid
    cases hid
  sorted := hs.sorted

theorem register_registered {s : LinkedRuntime} (hs : Linked s) (id : Nat) (name : String)
    (r : RegisteredModule) (hr : (s.register id).lookup name = some r) :
    ∃ inst, s.instances[r.id]? = some inst ∧ inst.name = name ∧ inst.module = r.module := by
  unfold register at hr
  split at hr
  · rename_i inst hinst
    split at hr
    · by_cases hname : name = inst.name
      · subst hname
        rw [AList.lookup_insert] at hr
        cases hr
        exact ⟨inst, hinst, rfl, rfl⟩
      · rw [AList.lookup_insert_ne hname] at hr
        exact hs.registered name r hr
    · exact hs.registered name r hr
  · exact hs.registered name r hr

theorem linked_called {s : LinkedRuntime} (hs : Linked s) {id target : Nat} {callers : List Nat}
    (hrunning : s.stack = id :: callers) (hreached : target = id ∨
      ∃ inst link, s.instances[id]? = some inst ∧ some link ∈ inst.links ∧ target = link.target) :
    Linked { s with stack := target :: id :: callers } := by
  have hid : id < s.instances.length := hs.running id (by simp [hrunning])
  have hle : target ≤ id := by
    rcases hreached with rfl | ⟨inst, link, hinst, hmem, rfl⟩
    · exact le_refl _
    · exact (hs.earlier id inst link hinst hmem).le
  have hsorted : (id :: callers).Pairwise (· ≤ ·) := hrunning ▸ hs.sorted
  refine { hs with running := fun other hother => ?_, sorted := ?_ }
  · rcases List.mem_cons.mp hother with rfl | hother
    · exact Nat.lt_of_le_of_lt hle hid
    · exact hs.running other (hrunning ▸ hother)
  · refine List.pairwise_cons.mpr ⟨fun other hother => ?_, hsorted⟩
    rcases List.mem_cons.mp hother with rfl | hother
    · exact hle
    · exact hle.trans ((List.pairwise_cons.mp hsorted).1 other hother)

/-- **Step lemma.** -/
theorem change_linked {s s' : LinkedRuntime} {e : LinkEvent} (hs : Linked s) (h : Change s e s') :
    Linked s' := by
  cases h with
  | same => exact hs
  | created hlink hidle => exact linked_created hs hidle hlink
  | @registered id succeeded hloading =>
    refine { hs with registered := fun name r hr => ?_, loading := nofun }
    cases succeeded with
    | true => exact register_registered hs id name r hr
    | false => exact hs.registered name r hr
  | unregistered name =>
    refine { hs with registered := fun other r hr => ?_ }
    by_cases hname : other = name
    · subst hname
      rw [AList.lookup_erase] at hr
      cases hr
    · rw [AList.lookup_erase_ne hname] at hr
      exact hs.registered other r hr
  | @entered e id quiet hknown =>
    have hlt : id < s.instances.length := by
      rcases hknown with hloading | ⟨name, r, hr, rfl⟩
      · exact hs.loading id hloading
      · obtain ⟨inst, hinst, -⟩ := hs.registered name r hr
        exact (List.getElem?_eq_some_iff.mp hinst).1
    refine { hs with running := fun other hother => ?_, sorted := List.pairwise_singleton _ _ }
    rwa [List.mem_singleton.mp hother]
  | called hrunning hreached => exact linked_called hs hrunning hreached
  | left =>
    exact { hs with
      running := fun id hid => hs.running id (List.mem_of_mem_tail hid)
      sorted := hs.sorted.sublist (List.tail_sublist _) }

theorem change_instances {s s' : LinkedRuntime} {e : LinkEvent} (h : Change s e s') :
    s.instances <+: s'.instances := by
  cases h with
  | created => exact List.prefix_append _ _
  | _ => exact List.prefix_refl _

/-- **Run lemma.** -/
theorem linked_of_run {es : List LinkEvent} {s s' : LinkedRuntime} (hs : Linked s)
    (h : Runs.run step s es = some s') : Linked s' :=
  Runs.run_invariant (fun _ _ hs _ _ hstep => change_linked hs (step_change hstep)) hs
    (Runs.along_true s es) h

/-- Instances stay as they were created. -/
theorem instance_of_run {es : List LinkEvent} {s s' : LinkedRuntime}
    (h : Runs.run step s es = some s') {id : Nat} {inst : LinkedInstance}
    (hid : s.instances[id]? = some inst) : s'.instances[id]? = some inst := by
  have hkept : s.instances <+: s'.instances :=
    Runs.run_invariant (I := fun t => s.instances <+: t.instances)
      (fun _ _ hprefix _ _ hstep => hprefix.trans (change_instances (step_change hstep)))
      (List.prefix_refl _) (Runs.along_true s es) h
  obtain ⟨later, hlater⟩ := hkept
  rw [← hlater, List.getElem?_append_left (List.getElem?_eq_some_iff.mp hid).1, hid]

/-- **Refinement of runs.** -/
theorem refines_of_run {config : MarineCoreConfig} {es : List LinkEvent} {s : LinkedRuntime}
    {core : MarineCore} (h : Runs.run stepWithCore (init, .new config) es = some (s, core)) :
    Linked s ∧ s.Refines core := by
  refine Runs.run_invariant (I := fun p => Linked p.1 ∧ Refines p.1 p.2) ?_
    ⟨linked_init, fun name => rfl⟩ (Runs.along_true _ es) h
  rintro p e ⟨hlinked, href⟩ - p' hstep
  obtain ⟨s', hs', rfl⟩ := Option.map_eq_some_iff.mp hstep
  exact ⟨change_linked hlinked (step_change hs'), change_refines href (step_change hs')⟩

end LinkedRuntime

open LinkedRuntime

/-- A module `greeting` with one function. -/
def greetingSection : Interfaces where
  types := [.function [] [], .function [] []]
  imports := []
  adapters := [⟨0, []⟩]
  exports := [⟨"greet", 1⟩]
  implementations := [⟨1, 0⟩]

/-- A module that imports it. -/
def frontSection : Interfaces where
  types := [.function [] [], .function [] [], .function [] []]
  imports := [⟨"greeting", "greet", 2⟩]
  adapters := [⟨1, []⟩]
  exports := []
  implementations := [⟨2, 1⟩]

/-- Nothing fails while the section is loaded. -/
def smoothRun (it : Interfaces) : ModuleRun where
  wasmModule := .ok ()
  checkSdkVersion := .ok ()
  extractIt := .ok it
  checkItVersion := .ok ()
  parses _ := true
  register := .ok ()
  addWasiImports := .ok ()
  addHostImports := .ok ()
  instantiate := .ok ⟨fun _ => .ok ⟨[], []⟩, [0], fun _ => none⟩
  callFunction _ := .ok ()

/-- **Calls do not come back.**  Between two frames of an instance all frames are its
own: no instance is entered again through another one, and calls go from later
instances to earlier ones. -/
theorem calls_neverReenter {es : List LinkEvent} {s : LinkedRuntime}
    (h : Runs.run step init es = some s) :
    s.stack.Pairwise (· ≤ ·) ∧ (∀ id ∈ s.stack, id < s.instances.length) ∧
      ∀ callees between callers id,
        s.stack = callees ++ id :: (between ++ id :: callers) → ∀ other ∈ between, other = id := by
  have hs := linked_of_run linked_init h
  refine ⟨hs.sorted, hs.running, fun callees between callers id hstack other hother => ?_⟩
  have hsorted := hs.sorted
  rw [hstack] at hsorted
  have htail := (List.pairwise_append.mp hsorted).2.1
  obtain ⟨hfirst, hrest⟩ := List.pairwise_cons.mp htail
  have hge : id ≤ other := hfirst other (List.mem_append_left _ hother)
  have hle : other ≤ id := (List.pairwise_append.mp hrest).2.2 other hother id (.head _)
  exact le_antisymm hle hge

def loadGreeting : List LinkEvent :=
  [.load "greeting" (smoothRun greetingSection), .finishLoad true]

/-- `front` calls `greet` while it is loaded, and the adapter of `greet` its function. -/
theorem calls_neverReenter_greet : ∃ s, Runs.run step init (loadGreeting ++
      [.load "front" (smoothRun frontSection), .enterLoaded, .callCore 0, .callCore 0]) = some s ∧
    s.stack = [0, 0, 1] ∧ s.stack.Pairwise (· ≤ ·) := by
  have h : Runs.run step init (loadGreeting ++
    [.load "front" (smoothRun frontSection), .enterLoaded, .callCore 0, .callCore 0]) = some _ :=
    rfl
  exact ⟨_, h, rfl, (calls_neverReenter h).1⟩

/-- **Calls from outside find what the core has loaded.**  In every run the registry is
that of the core after the same loads and unloads; a call enters an instance exactly
if the core finds the function, and then the instance of the module that it has under
this name. -/
theorem calls_enterLoaded {config : MarineCoreConfig} {es : List LinkEvent} {s s' : LinkedRuntime}
    {core : MarineCore} (h : Runs.run stepWithCore (init, .new config) es = some (s, core))
    {moduleName functionName : String} (hcall : s.step (.call moduleName functionName) = some s') :
    s.Refines core ∧
      (s'.stack ≠ [] ↔ ∃ module, core.modules.lookup moduleName = some module ∧
        functionName ∈ module.exportFuncs) ∧
      ∀ id ∈ s'.stack, s'.stack = [id] ∧ ∃ inst, s'.instances[id]? = some inst ∧
        inst.name = moduleName ∧ core.modules.lookup moduleName = some inst.module := by
  obtain ⟨hlinked, href⟩ := refines_of_run h
  refine ⟨href, ?_⟩
  have hcore := href moduleName
  simp only [step] at hcall
  split at hcall
  · rename_i hidle
    split at hcall
    · rename_i hlookup
      cases hcall
      rw [hlookup] at hcore
      simp [hcore, hidle.2]
    · rename_i r hlookup
      rw [hlookup, Option.map_some] at hcore
      split at hcall
      · rename_i hfunction
        cases hcall
        have hmissing : functionName ∉ r.module.exportFuncs := AList.lookup_eq_none.mp hfunction
        simp [hcore, hidle.2, hmissing]
      · rename_i callable hfunction
        cases hcall
        have hfound : functionName ∈ r.module.exportFuncs :=
          AList.lookup_isSome.mp (hfunction ▸ rfl)
        obtain ⟨inst, hinst, hname, hmodule⟩ := hlinked.registered moduleName r hlookup
        refine ⟨⟨fun _ => ⟨r.module, hcore, hfound⟩, fun _ => List.cons_ne_nil _ _⟩, ?_⟩
        intro id hid
        cases List.mem_singleton.mp hid
        exact ⟨rfl, inst, hinst, hname, hmodule ▸ hcore⟩
  · cases hcall

/-- A second `greeting` is refused, after it was linked: calls go to the first. -/
theorem calls_enterLoaded_greet : ∃ s s' core,
    Runs.run stepWithCore (init, .new (.new none)) (loadGreeting ++ loadGreeting) =
      some (s, core) ∧
    s.instances.length = 2 ∧ s.step (.call "greeting" "greet") = some s' ∧
    s'.stack = [0] ∧ s'.stack ≠ [] := by
  have hrun : ∃ s core, Runs.run stepWithCore (init, .new (.new none))
      (loadGreeting ++ loadGreeting) = some (s, core) ∧ s.instances.length = 2 ∧
      ∃ s', s.step (.call "greeting" "greet") = some s' ∧ s'.stack = [0] ∧
        ∃ module, core.modules.lookup "greeting" = some module ∧
          "greet" ∈ module.exportFuncs := ⟨_, _, rfl, rfl, _, rfl, rfl, _, rfl, by decide⟩
  obtain ⟨s, core, h, hlength, s', hcall, hstack, hfound⟩ := hrun
  exact ⟨s, s', core, h, hlength, hcall, hstack, (calls_enterLoaded h hcall).2.1.mpr hfound⟩

/-- **Imports are bound once.**  Whatever is loaded, unloaded or called later, the
imports of an instance lead to the modules that had their names while it was loaded. -/
theorem imports_boundAtLoad {es es' : List LinkEvent} {s t s' : LinkedRuntime} {name : String}
    {run : ModuleRun} (h : Runs.run step init es = some s)
    (hload : s.step (.load name run) = some t) (hlinked : t.loading = some s.instances.length)
    (h' : Runs.run step t es' = some s') :
    ∃ inst, s'.instances[s.instances.length]? = some inst ∧ inst.name = name ∧
      ∀ n i, (numbering inst.wit)[n]? = some (.import i) →
        ∃ r target func callable,
          s.registry.lookup i.nameSpace = some r ∧ r.id < s.instances.length ∧
          inst.links[n]? = some (some ⟨r.id, i.name⟩) ∧
          s'.instances[r.id]? = some target ∧ target.name = i.nameSpace ∧
          inst.funcs.lookup n = some func ∧ func.inner = .import callable ∧
          target.module.exportFuncs.lookup i.name = some callable := by
  have hs := linked_of_run linked_init h
  simp only [step] at hload
  split at hload
  · rename_i hidle
    split at hload
    · rename_i inst hlink
      cases hload
      have hlast : (s.instances ++ [inst])[s.instances.length]? = some inst :=
        List.getElem?_concat_length
      refine ⟨inst, instance_of_run h' hlast, (linkModule_ok hlink).1, fun n i hn => ?_⟩
      obtain ⟨func, link, callable, hfunc, hinner, hn', r, hr, rfl, hcallable⟩ :=
        linkModule_import hlink hn
      obtain ⟨target, htarget, hname, hmodule⟩ := hs.registered i.nameSpace r hr
      have hlt : r.id < s.instances.length := (List.getElem?_eq_some_iff.mp htarget).1
      refine ⟨r, target, func, callable, hr, hlt, hn', ?_, hname, hfunc, hinner, ?_⟩
      · exact instance_of_run h' ((List.getElem?_append_left hlt).trans htarget)
      · rwa [hmodule]
    · cases hload
      rw [hidle.1] at hlinked
      cases hlinked
    · cases hload
  · cases hload

def stateAfter (es : List LinkEvent) : LinkedRuntime := (Runs.run step init es).getD init

/-- `greeting` is unloaded and loaded again: `front` goes on to call the first one. -/
theorem imports_boundAtLoad_greet :
    let reload : List LinkEvent := .finishLoad true :: .unload "greeting" :: loadGreeting
    let s := stateAfter (loadGreeting ++ .load "front" (smoothRun frontSection) :: reload)
    (s.registry.lookup "greeting").map RegisteredModule.id = some 2 ∧
    ∃ inst : LinkedInstance, s.instances[1]? = some inst ∧ inst.links = [some ⟨0, "greet"⟩] ∧
      ∃ target, s.instances[0]? = some target ∧ target.name = "greeting" := by
  intro reload s
  have h : Runs.run step init loadGreeting = some (stateAfter loadGreeting) := rfl
  have hload : (stateAfter loadGreeting).step (.load "front" (smoothRun frontSection)) =
      some (stateAfter (loadGreeting ++ [.load "front" (smoothRun frontSection)])) := rfl
  have h' : Runs.run step (stateAfter (loadGreeting ++
      [.load "front" (smoothRun frontSection)])) reload = some s := rfl
  obtain ⟨inst, hinst, -, himports⟩ := imports_boundAtLoad h hload rfl h'
  refine ⟨rfl, inst, hinst, ?_⟩
  cases hinst
  obtain ⟨r, target, -, -, hr, -, -, htarget, hname, -⟩ := himports 0 ⟨"greeting", "greet", 2⟩ rfl
  cases hr
  exact ⟨rfl, target, htarget, hname⟩

end Marine.Loader
