import Marine.Runtime.EnteredCalls
import Marine.Runtime.Startup

/-!
# The runtime in a browser

`marine-js/src`: one service at a time, which `register_module` replaces, and a logger
that takes the messages of its modules by their names.

* `register_loads`: a registered service has modules that were given with it, and calls
  keep them.
* `serviceLogs_delivered`: where the messages of the running service go, over whole runs,
  and what a registration that fails does to them.
-/

namespace Marine.Web

open Marine.Config Marine.HostImports Marine.Json Marine.Runtime

variable {Path LogFn : Type}

/-! ## Configurations -/

structure ApiWasiConfig where
  envs : AList fun _ : String => String
  mappedDirs : Option (AList fun _ : String => String)

structure ApiModuleConfig where
  loggerEnabled : Bool
  wasi : Option ApiWasiConfig
  loggingMask : Int32

structure ApiModuleDescriptor where
  importName : String
  config : Option ApiModuleConfig

structure ApiServiceConfig where
  modulesConfig : List ApiModuleDescriptor
  defaultModulesConfig : Option ApiModuleConfig

section Conversions

variable (fs : FileSystem Path)

def ApiWasiConfig.toMarine (config : ApiWasiConfig) : MarineWASIConfig Path where
  envs := config.envs
  mappedDirs := config.mappedDirs.elim ∅ (Maps.mapValues fs.ofText)

def ApiModuleConfig.toMarine (config : ApiModuleConfig) : MarineModuleConfig Path where
  loggerEnabled := config.loggerEnabled
  hostImports := ∅
  wasi := config.wasi.map (ApiWasiConfig.toMarine fs)
  loggingMask := config.loggingMask

def ApiModuleDescriptor.toMarine (descriptor : ApiModuleDescriptor) : ModuleDescriptor Path where
  loadFrom := none
  fileName := descriptor.importName
  importName := descriptor.importName
  config := (descriptor.config.map (ApiModuleConfig.toMarine fs)).getD .default

def ApiServiceConfig.toMarine (config : ApiServiceConfig) : MarineConfig Path where
  modulesDir := none
  totalMemoryLimit := none
  modulesConfig := config.modulesConfig.map (ApiModuleDescriptor.toMarine fs)
  defaultModulesConfig := config.defaultModulesConfig.map (ApiModuleConfig.toMarine fs)

end Conversions

/-! ## The logger -/

structure ServiceLogger (LogFn : Type) where
  logFn : LogFn
  moduleNames : List String

/-- Where a message goes. -/
inductive LogSink (LogFn : Type)
  | service (logFn : LogFn)
  | console
  | dropped

/-- `level <= LevelFilter::Info`, the level of the logger itself. -/
def selfEnabled : Level → Bool
  | .error | .warn | .info => true
  | .debug | .trace => false

/-- `MarineLogger::log`. -/
def logSink (serviceLogger : Option (ServiceLogger LogFn)) (target : String) (level : Level) :
    LogSink LogFn :=
  match serviceLogger with
  | some logger =>
    if target ∈ logger.moduleNames then .service logger.logFn
    else if selfEnabled level then .console else .dropped
  | none => if selfEnabled level then .console else .dropped

/-! ## The runtime -/

/-- `MARINE` and the logger. -/
structure WebRuntime (LogFn : Type) where
  marine : Option CallingInstance
  serviceLogger : Option (ServiceLogger LogFn)

inductive JsError
  | text (message : String)
  | marine (e : MarineError)

namespace WebRuntime

def init : WebRuntime LogFn := ⟨none, none⟩

/-- `config` and `modules` are what the values of JavaScript are converted to; `none` is a
panic. -/
def registerModule (host : Host Path) (s : WebRuntime LogFn)
    (config : Except String ApiServiceConfig)
    (modules : Except String (AList fun _ : String => ModuleBytes)) (logFn : LogFn) :
    Option (Except JsError Unit × WebRuntime LogFn) :=
  match config with
  | .error e => some (.error (.text e), s)
  | .ok config =>
    match modules with
    | .error e => some (.error (.text e), s)
    | .ok modules =>
      let s := { s with serviceLogger := some ⟨logFn, modules.keys⟩ }
      match host.withModules modules (config.toMarine host.fs) with
      | none => none
      | some (.error e) => some (.error (.marine e), s)
      | some (.ok marine) => some (.ok (), { s with marine := some ⟨marine, .default⟩ })

/-- The names for the logger, once a registration was read. -/
def readNames (config : Except String ApiServiceConfig)
    (modules : Except String (AList fun _ : String => ModuleBytes)) : Option (List String) :=
  match config, modules with
  | .ok _, .ok modules => some modules.keys
  | _, _ => none

def callModule (serde : SerdeJson) (s : WebRuntime LogFn) (moduleName functionName : String)
    (args : Except String JValue) (callParameters : Except String CallParameters) (run : Entry) :
    Option (Except JsError JValue × WebRuntime LogFn) :=
  match callParameters with
  | .error e => some (.error (.text e), s)
  | .ok callParameters =>
    match args with
    | .error e => some (.error (.text e), s)
    | .ok args =>
      match s.marine with
      | none => some (.error (.text "marine is not initialized"), s)
      | some marine =>
        (marine.callWithJsonAsync serde moduleName functionName args callParameters run).map
          fun r => (r.1.mapError .marine, { s with marine := some r.2 })

end WebRuntime

inductive WebOp (LogFn : Type)
  | registerModule (config : Except String ApiServiceConfig)
      (modules : Except String (AList fun _ : String => ModuleBytes)) (logFn : LogFn)
  | callModule (moduleName functionName : String) (args : Except String JValue)
      (callParameters : Except String CallParameters) (run : Entry)

def WebOp.IsCall : WebOp LogFn → Prop
  | .registerModule .. => False
  | .callModule .. => True

namespace WebRuntime

variable (host : Host Path) (serde : SerdeJson)

def step (s : WebRuntime LogFn) : WebOp LogFn → Option (WebRuntime LogFn)
  | .registerModule config modules logFn =>
    (registerModule host s config modules logFn).map Prod.snd
  | .callModule moduleName functionName args callParameters run =>
    (callModule serde s moduleName functionName args callParameters run).map Prod.snd

/-- Where a message of a module goes. -/
def sink (s : WebRuntime LogFn) (target : String) (level : Level) : LogSink LogFn :=
  logSink s.serviceLogger target level

/-- The modules of the running service. -/
def loaded (s : WebRuntime LogFn) : Option (AList fun _ : String => MModule) :=
  s.marine.map fun c => c.marine.core.modules

variable {host serde} {s s' : WebRuntime LogFn}

/-! ## Steps -/

theorem withModules_loads {modules : AList fun _ : String => ModuleBytes}
    {config : MarineConfig Path} {marine : MarineInstance}
    (h : host.withModules modules config = some (.ok marine)) {name : String}
    (hname : name ∈ marine.core.modules) : name ∈ modules := by
  obtain ⟨result, hresult, hmarine⟩ := Option.map_eq_some_iff.mp h
  cases result with
  | error e => cases hmarine
  | ok core =>
    cases hmarine
    obtain ⟨ls, -, -, hall, hregistered, -⟩ := Host.loadModules_ok hresult
    obtain ⟨module, hmodule⟩ := Option.isSome_iff_exists.mp (AList.lookup_isSome.mpr hname)
    rcases (hregistered name module).mp hmodule with hold | ⟨l, hl, rfl, -⟩
    · cases hold
    · exact AList.lookup_isSome.mp (by rw [(hall l hl).2.1]; rfl)

/-- A registration that succeeds. -/
theorem register_ok {config : Except String ApiServiceConfig}
    {modules : Except String (AList fun _ : String => ModuleBytes)} {logFn : LogFn}
    (h : registerModule host s config modules logFn = some (.ok (), s')) :
    ∃ moduleNames, s'.serviceLogger = some ⟨logFn, moduleNames⟩ ∧
      ∃ loaded, s'.loaded = some loaded ∧ ∀ name ∈ loaded, name ∈ moduleNames := by
  unfold registerModule at h
  split at h
  · cases h
  · split at h
    · cases h
    · rename_i config modules
      dsimp only at h
      split at h
      · cases h
      · cases h
      · rename_i marine hmarine
        cases h
        exact ⟨modules.keys, rfl, marine.core.modules, rfl,
          fun name hname => AList.mem_keys.mp (withModules_loads hmarine hname)⟩

/-- A registration that fails keeps the service, but not its logger. -/
theorem register_error {config : Except String ApiServiceConfig}
    {modules : Except String (AList fun _ : String => ModuleBytes)} {logFn : LogFn} {e : JsError}
    (h : registerModule host s config modules logFn = some (.error e, s')) :
    s'.marine = s.marine ∧ s'.serviceLogger =
      ((readNames config modules).map (ServiceLogger.mk logFn)).or s.serviceLogger := by
  cases config with
  | error text =>
    cases h
    exact ⟨rfl, rfl⟩
  | ok config =>
    cases modules with
    | error text =>
      cases h
      exact ⟨rfl, rfl⟩
    | ok modules =>
      simp only [registerModule] at h
      split at h
      · cases h
      · cases h
        exact ⟨rfl, rfl⟩
      · cases h

theorem call_keeps {moduleName functionName : String} {args : Except String JValue}
    {callParameters : Except String CallParameters} {run : Entry} {r : Except JsError JValue}
    (h : callModule serde s moduleName functionName args callParameters run = some (r, s')) :
    s'.serviceLogger = s.serviceLogger ∧ s'.loaded = s.loaded := by
  unfold callModule at h
  split at h
  · cases h
    exact ⟨rfl, rfl⟩
  · split at h
    · cases h
      exact ⟨rfl, rfl⟩
    · split at h
      · cases h
        exact ⟨rfl, rfl⟩
      · rename_i marine hmarine
        obtain ⟨⟨result, after⟩, hcall, heq⟩ := Option.map_eq_some_iff.mp h
        cases heq
        have hmodules := (MarineInstance.callWithJson_state
          (CallingInstance.callWithJsonAsync_refines hcall)).1
        refine ⟨rfl, ?_⟩
        rw [loaded, loaded, hmarine, Option.map_some, Option.map_some, hmodules]

/-! ## Runs -/

/-- **Run lemma.**  Calls keep the logger and the modules. -/
theorem calls_keep {es : List (WebOp LogFn)} (hcalls : ∀ e ∈ es, e.IsCall)
    (hrun : Runs.run (step host serde) s es = some s') :
    s'.serviceLogger = s.serviceLogger ∧ s'.loaded = s.loaded := by
  refine Runs.run_invariant
    (I := fun t => t.serviceLogger = s.serviceLogger ∧ t.loaded = s.loaded)
    (fun t e ht hcall t' hstep => ?_) ⟨rfl, rfl⟩ (Runs.along_of_forall hcalls s) hrun
  cases e with
  | registerModule config modules logFn => cases hcall
  | callModule moduleName functionName args callParameters run =>
    obtain ⟨⟨r, after⟩, hcalled, rfl⟩ := Option.map_eq_some_iff.mp hstep
    obtain ⟨hlogger, hloaded⟩ := call_keeps hcalled
    exact ⟨hlogger.trans ht.1, hloaded.trans ht.2⟩

end WebRuntime

open WebRuntime

/-- **Where the messages of a service go.**  After a registration that succeeds, and any
calls, all messages of all its modules go to its log function.  A registration that then
fails leaves the service running; when it was read, the messages of a module go to its log
function if it gave a module of that name, and are lost to the service otherwise. -/
theorem serviceLogs_delivered {host : Host Path} {serde : SerdeJson} {s t u : WebRuntime LogFn}
    {config : Except String ApiServiceConfig}
    {modules : Except String (AList fun _ : String => ModuleBytes)} {logFn : LogFn}
    (hregister : registerModule host s config modules logFn = some (.ok (), t))
    {es : List (WebOp LogFn)} (hcalls : ∀ e ∈ es, e.IsCall)
    (hrun : Runs.run (step host serde) t es = some u) :
    (∃ loaded, u.loaded = some loaded ∧
      ∀ name ∈ loaded, ∀ level, u.sink name level = .service logFn) ∧
    ∀ config' modules' logFn' e v es' w,
      registerModule host u config' modules' logFn' = some (.error e, v) →
      (∀ e ∈ es', e.IsCall) → Runs.run (step host serde) v es' = some w →
      w.loaded = u.loaded ∧
        (readNames config' modules' = none → ∀ name level, w.sink name level = u.sink name level) ∧
        ∀ names, readNames config' modules' = some names → ∀ name level,
          w.sink name level = if name ∈ names then .service logFn'
            else if selfEnabled level then .console else .dropped := by
  obtain ⟨moduleNames, hlogger, loaded, hloaded, hnames⟩ := register_ok hregister
  obtain ⟨hlogger', hloaded'⟩ := calls_keep hcalls hrun
  refine ⟨⟨loaded, hloaded'.trans hloaded, fun name hname level => ?_⟩,
    fun config' modules' logFn' e v es' w hfailed hcalls' hrun' => ?_⟩
  · rw [sink, hlogger', hlogger]
    exact if_pos (hnames name hname)
  · obtain ⟨hmarine, hreplaced⟩ := register_error hfailed
    obtain ⟨hlogger'', hloaded''⟩ := calls_keep hcalls' hrun'
    refine ⟨?_, fun hnone name level => ?_, fun names hread name level => ?_⟩
    · rw [hloaded'', WebRuntime.loaded, WebRuntime.loaded, hmarine]
    · rw [sink, sink, hlogger'', hreplaced, hnone]
      rfl
    · rw [sink, hlogger'', hreplaced, hread]
      rfl

def plainDescriptor (name : String) : ApiModuleDescriptor := ⟨name, none⟩

def frontModules : AList fun _ : String => ModuleBytes :=
  ((∅ : AList fun _ : String => ModuleBytes).insert "greeting" []).insert "front" []

def frontConfig : ApiServiceConfig := ⟨[plainDescriptor "greeting", plainDescriptor "front"], none⟩

/-- Its module has no bytes. -/
def absentConfig : ApiServiceConfig := ⟨[plainDescriptor "absent"], none⟩

def greetQuietly : Entry := fun _ _ => ⟨[], .ok []⟩

def callFront : WebOp Nat :=
  .callModule "greeting" "greet" (.ok .null) (.ok serviceParameters) greetQuietly

/-- A registration without the bytes of its module takes the messages of `front`. -/
theorem serviceLogs_delivered_front : ∃ t u v : WebRuntime Nat,
    registerModule smoothHost init (.ok frontConfig) (.ok frontModules) 1 = some (.ok (), t) ∧
    Runs.run (step smoothHost plainSerde) t [callFront] = some u ∧
    (∃ loaded, u.loaded = some loaded ∧
      ∀ name ∈ loaded, ∀ level, u.sink name level = .service 1) ∧
    (∃ e, registerModule smoothHost u (.ok absentConfig) (.ok frontModules) 2 =
      some (.error e, v)) ∧
    v.loaded = u.loaded ∧ v.sink "front" .trace = .service 2 := by
  have hrun : ∃ t u v : WebRuntime Nat,
      registerModule smoothHost init (.ok frontConfig) (.ok frontModules) 1 = some (.ok (), t) ∧
      Runs.run (step smoothHost plainSerde) t [callFront] = some u ∧
      ∃ e, registerModule smoothHost u (.ok absentConfig) (.ok frontModules) 2 =
        some (.error e, v) := ⟨_, _, _, rfl, rfl, _, rfl⟩
  obtain ⟨t, u, v, hregister, hcall, e, hfailed⟩ := hrun
  have hcalls : ∀ op ∈ [callFront], op.IsCall := by
    intro op hop
    rw [List.mem_singleton.mp hop]
    trivial
  obtain ⟨hdelivered, hlater⟩ := serviceLogs_delivered hregister hcalls hcall
  obtain ⟨hloaded, -, hsink⟩ := hlater _ _ _ e v [] v hfailed nofun rfl
  exact ⟨t, u, v, hregister, hcall, hdelivered, ⟨e, hfailed⟩, hloaded,
    (hsink _ rfl "front" .trace).trans (if_pos (by decide))⟩

end Marine.Web
