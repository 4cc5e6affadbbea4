import Marine.HostImports.CallParameters
import Marine.Json.Soundness
import Marine.Runtime.InterfaceCache

/-!
# What a called function sees

`marine/src/marine.rs` with the parameters of calls and the converters of JSON: a call
sets the parameters last of all before the function is entered, so a call that fails
earlier leaves those of the call before it.  `none` is a panic, also one of a converter.

* `step_refines`: a step is one of `MarineInstance`.
* `calls_enteredTyped`: over whole runs, a function is entered with values of its own
  types and with the parameters of its call, in every version.
-/

namespace Marine.Runtime

open Marine.HostImports Marine.Json

structure CallingInstance where
  marine : MarineInstance
  parameters : CallParameterSlots

/-- What a function does with the parameters that the host has, and its arguments. -/
abbrev Entry := CallParameterSlots → List IValue → EngineRun (List IValue)

/-- An operation; code that runs while a module is loaded sees parameters, too. -/
inductive CallOp
  | callWithIvalues (moduleName funcName : String) (args : List IValue)
      (callParameters : CallParameters) (run : Entry)
  | callWithJson (moduleName funcName : String) (jsonArgs : JValue)
      (callParameters : CallParameters) (run : Entry)
  | loadModule (name : String) (config : Except MarineError Unit)
      (run : CallParameterSlots → EngineRun MModule)
  | unloadModule (name : String)

/-- `json_to_marine_err!` on a converter. -/
def jsonOutcome {α : Type} (jsonExpr : JsonResult α) (moduleName functionName : String) :
    Option (Except MarineError α) :=
  match jsonExpr with
  | .ok a => some (.ok a)
  | .error (.error e) => some (jsonToMarineErr (.error e) moduleName functionName)
  | .error .panicked => none

namespace CallingInstance

def new (core : MarineCore) : CallingInstance := ⟨.new core, .default⟩

def updateCallParameters (s : CallingInstance) (callParameters : CallParameters) :
    CallingInstance :=
  { s with parameters := views callParameters }

def callWithIvaluesAsync (s : CallingInstance) (moduleName funcName : String) (args : List IValue)
    (callParameters : CallParameters) (run : Entry) :
    Option (Except MarineError (List IValue) × CallingInstance) :=
  let s := s.updateCallParameters callParameters
  (s.marine.callWithIvaluesAsync moduleName funcName args (run s.parameters)).map fun r =>
    (r.1, { s with marine := r.2 })

/-- The end of `call_with_json_async`, from the parameters on. -/
def callConverted (serde : SerdeJson) (s : CallingInstance) (moduleName funcName : String)
    (outputTypes : List IType) (recordTypes : RecordTypes) (iargs : List IValue)
    (callParameters : CallParameters) (run : Entry) :
    Option (Except MarineError JValue × CallingInstance) :=
  let s := s.updateCallParameters callParameters
  match s.marine.callCore moduleName funcName iargs (run s.parameters) with
  | none => none
  | some (.error e, marine) => some (.error e, { s with marine := marine })
  | some (.ok result, marine) =>
    (jsonOutcome (ivaluesToJson serde result outputTypes recordTypes) moduleName funcName).map
      fun r => (r, { s with marine := marine })

def callWithJsonAsync (serde : SerdeJson) (s : CallingInstance) (moduleName funcName : String)
    (jsonArgs : JValue) (callParameters : CallParameters) (run : Entry) :
    Option (Except MarineError JValue × CallingInstance) :=
  match s.marine.lookupModuleInterface moduleName funcName with
  | (.error e, marine) => some (.error e, { s with marine := marine })
  | (.ok (funcSignature, outputTypes, recordTypes), marine) =>
    let s := { s with marine := marine }
    match jsonOutcome (jsonToIvalues serde jsonArgs funcSignature recordTypes) moduleName
        funcName with
    | none => none
    | some (.error e) => some (.error e, s)
    | some (.ok iargs) =>
      s.callConverted serde moduleName funcName outputTypes recordTypes iargs callParameters run

def step (serde : SerdeJson) (s : CallingInstance) : CallOp → Option CallingInstance
  | .callWithIvalues m f args callParameters run =>
    (s.callWithIvaluesAsync m f args callParameters run).map Prod.snd
  | .callWithJson m f jsonArgs callParameters run =>
    (s.callWithJsonAsync serde m f jsonArgs callParameters run).map Prod.snd
  | .loadModule name config run =>
    (s.marine.loadModule name config (run s.parameters)).map fun r => { s with marine := r.2 }
  | .unloadModule name => some { s with marine := (s.marine.unloadModule name).2 }

end CallingInstance

/-! ## Refinement -/

/-- A converter that gives an error where it panics. -/
def ofJsonResult {α : Type} : JsonResult α → Except ITJsonSeDeError α
  | .ok a => .ok a
  | .error (.error e) => .error e
  | .error .panicked => .error (.de "")

def itJsonSerde (serde : SerdeJson) : ItJsonSerde JValue where
  jsonToIvalues j argTypes recordTypes := ofJsonResult (jsonToIvalues serde j argTypes recordTypes)
  ivaluesToJson values outputs recordTypes :=
    ofJsonResult (ivaluesToJson serde values outputs recordTypes)

theorem jsonOutcome_eq_some {α : Type} {x : JsonResult α} {m f : String} {r : Except MarineError α}
    (h : jsonOutcome x m f = some r) : jsonToMarineErr (ofJsonResult x) m f = r := by
  cases x with
  | ok a =>
    cases h
    rfl
  | error failure =>
    cases failure with
    | error e => exact Option.some.inj h
    | panicked => cases h

theorem jsonOutcome_ok {α : Type} {x : JsonResult α} {m f : String} {a : α}
    (h : jsonOutcome x m f = some (.ok a)) : x = .ok a := by
  cases x with
  | ok b =>
    cases h
    rfl
  | error failure =>
    cases failure with
    | error e => cases e <;> cases h
    | panicked => cases h

/-- The operation, with what the engine does under the parameters it is run with. -/
def CallOp.op (s : CallingInstance) : CallOp → Op JValue
  | .callWithIvalues m f args callParameters run =>
    .callWithIvalues m f args (run (views callParameters))
  | .callWithJson m f jsonArgs callParameters run =>
    .callWithJson m f jsonArgs (run (views callParameters))
  | .loadModule name config run => .loadModule name config (run s.parameters)
  | .unloadModule name => .unloadModule name

namespace CallingInstance

variable {serde : SerdeJson} {s s' : CallingInstance}

theorem callWithJsonAsync_refines {m f : String} {jsonArgs : JValue}
    {callParameters : CallParameters} {run : Entry} {r : Except MarineError JValue}
    (h : s.callWithJsonAsync serde m f jsonArgs callParameters run = some (r, s')) :
    s.marine.callWithJsonAsync (itJsonSerde serde) m f jsonArgs (run (views callParameters)) =
      some (r, s'.marine) := by
  unfold callWithJsonAsync at h
  unfold MarineInstance.callWithJsonAsync
  generalize s.marine.lookupModuleInterface m f = looked at h ⊢
  obtain ⟨found, after⟩ := looked
  cases found with
  | error e =>
    cases h
    rfl
  | ok found =>
    obtain ⟨funcSignature, outputTypes, recordTypes⟩ := found
    dsimp only at h ⊢
    cases hargs : jsonOutcome (jsonToIvalues serde jsonArgs funcSignature recordTypes) m f with
    | none =>
      rw [hargs] at h
      cases h
    | some converted =>
      rw [hargs] at h
      have hconverted := jsonOutcome_eq_some hargs
      simp only [itJsonSerde]
      rw [hconverted]
      cases converted with
      | error e =>
        cases h
        rfl
      | ok iargs =>
        simp only [callConverted, updateCallParameters] at h ⊢
        cases hcall : after.callCore m f iargs (run (views callParameters)) with
        | none =>
          rw [hcall] at h
          cases h
        | some called =>
          rw [hcall] at h
          obtain ⟨result, marine⟩ := called
          cases result with
          | error e =>
            cases h
            rfl
          | ok values =>
            obtain ⟨json, hjson, heq⟩ := Option.map_eq_some_iff.mp h
            cases heq
            simp only [jsonOutcome_eq_some hjson]

/-- **Refinement.**  A step that does not panic is one of `MarineInstance`. -/
theorem step_refines {op : CallOp} (h : s.step serde op = some s') :
    s.marine.step (itJsonSerde serde) (op.op s) = some s'.marine := by
  cases op with
  | callWithIvalues m f args callParameters run =>
    obtain ⟨⟨r, after⟩, hcall, rfl⟩ := Option.map_eq_some_iff.mp h
    obtain ⟨⟨result, marine⟩, hmarine, heq⟩ := Option.map_eq_some_iff.mp hcall
    cases heq
    have hmarine' : s.marine.callWithIvaluesAsync m f args (run (views callParameters)) =
        some (result, marine) := hmarine
    simp only [MarineInstance.step, MarineInstance.perform, CallOp.op, hmarine', Option.map_some]
  | callWithJson m f jsonArgs callParameters run =>
    obtain ⟨⟨r, after⟩, hcall, rfl⟩ := Option.map_eq_some_iff.mp h
    have hmarine := callWithJsonAsync_refines hcall
    simp only [MarineInstance.step, MarineInstance.perform, CallOp.op, hmarine, Option.map_some]
  | loadModule name config run =>
    obtain ⟨⟨r, marine⟩, hload, rfl⟩ := Option.map_eq_some_iff.mp h
    simp only [MarineInstance.step, MarineInstance.perform, CallOp.op, hload, Option.map_some]
  | unloadModule name =>
    cases h
    rfl

/-! ## What holds in every run -/

/-- The slots hold the forms of the same parameters. -/
def SameParameters (s : CallingInstance) : Prop :=
  ∃ callParameters, s.parameters = views callParameters

theorem callWithJsonAsync_parameters {m f : String} {jsonArgs : JValue}
    {callParameters : CallParameters} {run : Entry} {r : Except MarineError JValue}
    (h : s.callWithJsonAsync serde m f jsonArgs callParameters run = some (r, s')) :
    s'.parameters = s.parameters ∨ s'.parameters = views callParameters := by
  unfold callWithJsonAsync at h
  split at h
  · cases h
    exact .inl rfl
  · split at h
    · cases h
    · cases h
      exact .inl rfl
    · unfold callConverted at h
      dsimp only at h
      split at h
      · cases h
      · cases h
        exact .inr rfl
      · obtain ⟨json, -, heq⟩ := Option.map_eq_some_iff.mp h
        cases heq
        exact .inr rfl

theorem step_sameParameters {op : CallOp} (hs : s.SameParameters) (h : s.step serde op = some s') :
    s'.SameParameters := by
  cases op with
  | callWithIvalues m f args callParameters run =>
    obtain ⟨⟨r, after⟩, hcall, rfl⟩ := Option.map_eq_some_iff.mp h
    obtain ⟨called, -, heq⟩ := Option.map_eq_some_iff.mp hcall
    cases heq
    exact ⟨callParameters, rfl⟩
  | callWithJson m f jsonArgs callParameters run =>
    obtain ⟨⟨r, after⟩, hcall, rfl⟩ := Option.map_eq_some_iff.mp h
    rcases callWithJsonAsync_parameters hcall with hsame | hnew
    · rw [SameParameters, hsame]
      exact hs
    · exact ⟨callParameters, hnew⟩
  | loadModule name config run =>
    obtain ⟨loaded, -, rfl⟩ := Option.map_eq_some_iff.mp h
    exact hs
  | unloadModule name =>
    cases h
    exact hs

/-- The operation keeps the cache of interfaces coherent. -/
def KeepsCache (s : CallingInstance) (op : CallOp) : Prop := s.marine.KeepsCache (op.op s)

/-- **Run lemma.** -/
theorem coherent_of_run {core : MarineCore} {ops : List CallOp}
    (hkeeps : Runs.Along (step serde) KeepsCache (new core) ops)
    (hrun : Runs.run (step serde) (new core) ops = some s) :
    s.marine.Coherent ∧ s.SameParameters := by
  refine Runs.run_invariant (I := fun t => t.marine.Coherent ∧ t.SameParameters)
    (fun t op ht hop t' hstep => ⟨?_, step_sameParameters ht.2 hstep⟩)
    ⟨MarineInstance.coherent_new core, .default, views_default.symm⟩ hkeeps hrun
  exact (MarineInstance.coherent_step_iff (itJsonSerde serde) ht.1 (step_refines hstep)).mpr hop

end CallingInstance

/-- What a coherent instance knows of a function is what the module exports. -/
theorem lookupModuleInterface_ok {marine marine' : MarineInstance} (hcoherent : marine.Coherent)
    {m f : String} {funcSignature : List FunctionArg} {outputTypes : List IType}
    {recordTypes : RecordTypes}
    (h : marine.lookupModuleInterface m f =
      (.ok (funcSignature, outputTypes, recordTypes), marine')) :
    ∃ module callable, marine.core.modules.lookup m = some module ∧
      module.exportFuncs.lookup f = some callable ∧ funcSignature = callable.arguments ∧
      outputTypes = callable.outputTypes ∧
      ∀ id, recordTypes.lookup id = module.exportRecordTypes.lookup id := by
  have hreported := hcoherent m f
  rw [MarineInstance.answer, h, reported_eq] at hreported
  cases hmodule : marine.core.modules.lookup m with
  | none =>
    rw [hmodule] at hreported
    cases hreported
  | some module =>
    rw [hmodule] at hreported
    cases hcallable : module.exportFuncs.lookup f with
    | none =>
      simp only [MModule.functionInterface, hcallable] at hreported
      cases hreported
    | some callable =>
      simp only [MModule.functionInterface, hcallable, Except.map, Option.map_some, Except.ok.injEq,
        FunctionInterface.mk.injEq] at hreported
      obtain ⟨harguments, houtputs, hrecords⟩ := hreported
      exact ⟨module, callable, rfl, hcallable, harguments, houtputs, fun id => congrFun hrecords id⟩

/-- A value that is no list of arguments is the only argument. -/
theorem jsonValueToIvalues_typed {serde : SerdeJson} {recordTypes : RecordTypes} {j : JValue}
    {argTypes : List FunctionArg} {iargs : List IValue}
    (h : jsonValueToIvalues serde j argTypes = .ok iargs) :
    List.Forall₂ (fun arg v => IValue.HasType recordTypes v arg.ty) argTypes iargs := by
  unfold jsonValueToIvalues at h
  split at h
  · obtain ⟨v, hv, h⟩ := Fallible.bind_eq_ok_iff.mp h
    cases h
    have hempty : ∀ id r, (∅ : RecordTypes).lookup id = some r →
        recordTypes.lookup id = some r := by
      intro id r hr
      cases hr
    exact .cons (hasType_mono hempty (jvalueToIvalue_typed hv)) .nil
  · cases h

/-- Converted arguments are of the types of the function. -/
theorem jsonToIvalues_typed {serde : SerdeJson} {jsonArgs : JValue} {argTypes : List FunctionArg}
    {recordTypes : RecordTypes} {iargs : List IValue}
    (h : jsonToIvalues serde jsonArgs argTypes recordTypes = .ok iargs) :
    List.Forall₂ (fun arg v => IValue.HasType recordTypes v arg.ty) argTypes iargs := by
  cases jsonArgs with
  | object jsonMap => exact jsonMapToIvalues_typed (fun _ _ _ _ hv => jvalueToIvalue_typed hv) h
  | array jsonArray =>
    exact List.forall₂_map_left_iff.mp
      (jsonArrayToIvalues_typed (fun _ _ _ _ hv => jvalueToIvalue_typed hv) h)
  | null =>
    cases argTypes with
    | nil =>
      cases h
      exact .nil
    | cons => cases h
  | _ => exact jsonValueToIvalues_typed h

/-! ## Entered calls -/

/-- The call has not come to the function: the modules and the parameters are as before. -/
def Refused (s : CallingInstance) (r : Except MarineError JValue) (s' : CallingInstance) : Prop :=
  (∃ e, r = .error e) ∧ s'.marine.core = s.marine.core ∧ s'.parameters = s.parameters

/-- The function was entered with the parameters of the call and with values of its
types, and what it returned is converted at its output types. -/
def Entered (serde : SerdeJson) (s : CallingInstance) (m f : String)
    (callParameters : CallParameters) (run : Entry) (r : Except MarineError JValue)
    (s' : CallingInstance) : Prop :=
  ∃ (module : MModule) (callable : Callable) (args : List IValue)
    (outcome : Except MarineError (List IValue)) (marine : MarineInstance),
    s.marine.core.modules.lookup m = some module ∧ module.exportFuncs.lookup f = some callable ∧
    List.Forall₂ (fun arg v => IValue.HasType module.exportRecordTypes v arg.ty)
      callable.arguments args ∧
    s'.parameters = views callParameters ∧ marine.core = s.marine.core ∧
    marine.callCore m f args (run (views callParameters)) = some (outcome, s'.marine) ∧
    ∀ json, r = .ok json → ∃ (values : List IValue) (recordTypes : RecordTypes),
      outcome = .ok values ∧
      (∀ id, recordTypes.lookup id = module.exportRecordTypes.lookup id) ∧
      ivaluesToJson serde values callable.outputTypes recordTypes = .ok json

theorem callWithJsonAsync_spec {serde : SerdeJson} {s s' : CallingInstance}
    (hcoherent : s.marine.Coherent) {m f : String} {jsonArgs : JValue}
    {callParameters : CallParameters} {run : Entry} {r : Except MarineError JValue}
    (h : s.callWithJsonAsync serde m f jsonArgs callParameters run = some (r, s')) :
    Refused s r s' ∨ Entered serde s m f callParameters run r s' := by
  have hcore := s.marine.lookupModuleInterface_core m f
  unfold CallingInstance.callWithJsonAsync at h
  split at h
  · rename_i e marine hlookup
    rw [hlookup] at hcore
    cases h
    exact .inl ⟨⟨e, rfl⟩, hcore, rfl⟩
  · rename_i funcSignature outputTypes recordTypes marine hlookup
    rw [hlookup] at hcore
    obtain ⟨module, callable, hmodule, hcallable, rfl, rfl, hrecords⟩ :=
      lookupModuleInterface_ok hcoherent hlookup
    dsimp only at h
    split at h
    · cases h
    · rename_i e _
      cases h
      exact .inl ⟨⟨e, rfl⟩, hcore, rfl⟩
    · rename_i args hargs
      have htyped := (jsonToIvalues_typed (jsonOutcome_ok hargs)).imp fun arg v hv =>
        hasType_mono (fun id record hrecord => (hrecords id).symm.trans hrecord) hv
      unfold CallingInstance.callConverted CallingInstance.updateCallParameters at h
      dsimp only at h
      split at h
      · cases h
      · rename_i e after hcall
        cases h
        exact .inr ⟨module, callable, args, .error e, marine, hmodule, hcallable, htyped, rfl,
          hcore, hcall, nofun⟩
      · rename_i values after hcall
        obtain ⟨json, hjson, heq⟩ := Option.map_eq_some_iff.mp h
        cases heq
        refine .inr ⟨module, callable, args, .ok values, marine, hmodule, hcallable, htyped, rfl,
          hcore, hcall, fun json hok => ⟨values, recordTypes, rfl, hrecords, ?_⟩⟩
        rw [hok] at hjson
        exact jsonOutcome_ok hjson

/-- **What a called function sees.**  In every run that keeps the cache of interfaces, all
versions of the parameters are those of one call, and a call with JSON is either refused,
and changes nothing but the cache, or enters the function of the loaded module with its own
parameters and with arguments of the declared types; the JSON of a success is that of what
the function returned. -/
theorem calls_enteredTyped {serde : SerdeJson} {core : MarineCore} {ops : List CallOp}
    {s : CallingInstance}
    (hkeeps : Runs.Along (CallingInstance.step serde) CallingInstance.KeepsCache (.new core) ops)
    (hrun : Runs.run (CallingInstance.step serde) (.new core) ops = some s) :
    (∃ callParameters, s.parameters = views callParameters) ∧
    ∀ m f jsonArgs callParameters run r s',
      s.callWithJsonAsync serde m f jsonArgs callParameters run = some (r, s') →
        Refused s r s' ∨ Entered serde s m f callParameters run r s' := by
  obtain ⟨hcoherent, hparameters⟩ := CallingInstance.coherent_of_run hkeeps hrun
  exact ⟨hparameters, fun _ _ _ _ _ _ _ h => callWithJsonAsync_spec hcoherent h⟩

/-- `fn greet(name: string) -> string` in a module that has the name of its function. -/
def greetCallable : Callable := ⟨[⟨"name", .string⟩], [.string]⟩

def greetCore : MarineCore :=
  ((MarineCore.new (.new none)).loadModule "greet"
    ⟨[.memory (.fresh none) 65536 true],
      .ok ⟨some 0, AList.singleton "greet" greetCallable, ∅⟩⟩).2

def serviceParameters : CallParameters := { Repl.CallParameters.default with serviceId := "front" }

def greetBack : Entry := fun _ args =>
  match args with
  | [.string name] => ⟨[], .ok [.string ("Hi, " ++ name)]⟩
  | _ => ⟨[], .ok []⟩

def greetArgs : JValue := .array [.string "Ann"]

def callGreet : CallOp := .callWithJson "greet" "greet" greetArgs serviceParameters greetBack

theorem greetArgs_converted (recordTypes : RecordTypes) :
    jsonToIvalues plainSerde greetArgs greetCallable.arguments recordTypes =
      .ok [.string "Ann"] := by
  have hname : jvalueToIvalue plainSerde recordTypes (.string "Ann") .string =
      .ok (.string "Ann") := jvalueToIvalue_scalar _ _ _ rfl
  simp only [greetArgs, greetCallable, jsonToIvalues, jsonArrayToIvalues, zippedToIvalues,
    List.map_cons, List.map_nil, hname]
  rfl

/-- The instance after a call: the interface is in the cache. -/
def greetedInstance : CallingInstance where
  marine := ((MarineInstance.new greetCore).lookupModuleInterface "greet" "greet").2
  parameters := views serviceParameters

/-- A call is answered, whether the interface is in the cache or not. -/
theorem callWithJsonAsync_greet {s : CallingInstance} {recordTypes : RecordTypes}
    (h : s.marine.lookupModuleInterface "greet" "greet" =
      (.ok (greetCallable.arguments, greetCallable.outputTypes, recordTypes),
        greetedInstance.marine)) :
    s.callWithJsonAsync plainSerde "greet" "greet" greetArgs serviceParameters greetBack =
      some (.ok (.string "Hi, Ann"), greetedInstance) := by
  unfold CallingInstance.callWithJsonAsync
  rw [h]
  dsimp only
  rw [greetArgs_converted]
  rfl

theorem calls_enteredTyped_greet :
    Runs.run (CallingInstance.step plainSerde) (.new greetCore) [callGreet] =
      some greetedInstance ∧
    greetedInstance.callWithJsonAsync plainSerde "greet" "greet" greetArgs serviceParameters
      greetBack = some (.ok (.string "Hi, Ann"), greetedInstance) ∧
    Entered plainSerde greetedInstance "greet" "greet" serviceParameters greetBack
      (.ok (.string "Hi, Ann")) greetedInstance := by
  have hkeeps : Runs.Along (CallingInstance.step plainSerde) CallingInstance.KeepsCache
      (.new greetCore) [callGreet] :=
    ⟨fun _ module hmodule _ => ⟨module, hmodule, fun _ => rfl⟩, fun _ _ => trivial⟩
  have hrun : Runs.run (CallingInstance.step plainSerde) (.new greetCore) [callGreet] =
      some greetedInstance := by
    rw [Runs.run, callGreet, CallingInstance.step, callWithJsonAsync_greet rfl]
    rfl
  have hcall := callWithJsonAsync_greet (s := greetedInstance) rfl
  refine ⟨hrun, hcall, ?_⟩
  rcases (calls_enteredTyped hkeeps hrun).2 _ _ _ _ _ _ _ hcall with hrefused | hentered
  · obtain ⟨⟨e, he⟩, -⟩ := hrefused
    cases he
  · exact hentered

end Marine.Runtime
