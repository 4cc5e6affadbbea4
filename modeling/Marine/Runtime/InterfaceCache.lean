import Marine.Lib.Runs
import Marine.Runtime.Instance

/-!
# The cache of module interfaces

`lookup_module_interface` answers from a cache that is filled on a miss and
never emptied.  It is coherent when every answer is what the core currently
reports.  The entry of a miss is put under the name of the function instead of
the name of the module, and unloading a module leaves its entry behind, so
coherence depends on the run: `cache_coherent_iff` says on which operations.
-/

namespace Marine.Runtime

/-- What is known of one function; the record table is a map, so only what it
holds counts. -/
structure FunctionInterface where
  arguments : List FunctionArg
  outputs : List IType
  recordType : Nat → Option IRecordType

def MModule.functionInterface (module : MModule) (funcName : String) : Option FunctionInterface :=
  (module.exportFuncs.lookup funcName).map fun f =>
    ⟨f.arguments, f.outputTypes, fun id => module.exportRecordTypes.lookup id⟩

def ModuleInterface.functionInterface (i : ModuleInterface) (funcName : String) :
    Option FunctionInterface :=
  (i.functionSignatures.lookup funcName).map fun f =>
    ⟨f.1, f.2, fun id => i.recordTypes.lookup id⟩

/-- What the core reports for a function of a module. -/
def MarineCore.reported (core : MarineCore) (moduleName funcName : String) :
    Except MarineError FunctionInterface :=
  match core.moduleInterface moduleName with
  | none => .error (.noSuchModule moduleName)
  | some i =>
    match i.functionSignatures.find? fun f => f.name = funcName with
    | none => .error (.missingFunctionError funcName)
    | some f => .ok ⟨f.arguments, f.outputs, fun id => i.recordTypes.lookup id⟩

/-- The answer of `lookup_module_interface`, without the state it leaves. -/
def MarineInstance.answer (marine : MarineInstance) (moduleName funcName : String) :
    Except MarineError FunctionInterface :=
  (marine.lookupModuleInterface moduleName funcName).1.map fun i =>
    ⟨i.1, i.2.1, fun id => i.2.2.lookup id⟩

/-- Every answer of `lookup_module_interface` is the current report of the core. -/
def MarineInstance.Coherent (marine : MarineInstance) : Prop :=
  ∀ moduleName funcName,
    marine.answer moduleName funcName = marine.core.reported moduleName funcName

/-! ## Interfaces of modules -/

theorem find?_getExportsSignatures (module : MModule) (funcName : String) :
    (module.getExportsSignatures.find? fun f => f.name = funcName) =
      (module.exportFuncs.lookup funcName).map fun f => ⟨funcName, f.arguments, f.outputTypes⟩ := by
  unfold MModule.getExportsSignatures AList.lookup
  induction module.exportFuncs.entries with
  | nil => rfl
  | cons e es ih =>
    obtain ⟨name, f⟩ := e
    by_cases h : name = funcName
    · subst h
      simp [List.dlookup_cons_eq]
    · rw [List.map_cons, List.find?_cons_of_neg (by simpa using h), ih,
        List.dlookup_cons_ne _ _ (Ne.symm h)]

theorem reported_eq (core : MarineCore) (moduleName funcName : String) :
    core.reported moduleName funcName =
      match core.modules.lookup moduleName with
      | none => .error (.noSuchModule moduleName)
      | some module =>
        match module.functionInterface funcName with
        | none => .error (.missingFunctionError funcName)
        | some i => .ok i := by
  unfold MarineCore.reported MarineCore.moduleInterface
  cases core.modules.lookup moduleName with
  | none => rfl
  | some module =>
    simp only [Option.map_some, MarineCore.getModuleInterface, find?_getExportsSignatures,
      MModule.functionInterface]
    cases module.exportFuncs.lookup funcName with
    | none => rfl
    | some f => rfl

/-- The entry that a miss on a module puts into the cache. -/
def MModule.cacheEntry (module : MModule) : ModuleInterface where
  functionSignatures := Maps.collect <|
    module.getExportsSignatures.map fun f => (f.name, f.arguments, f.outputs)
  recordTypes := module.exportRecordTypes

theorem lookup_cacheEntry (module : MModule) (funcName : String) :
    module.cacheEntry.functionSignatures.lookup funcName =
      (module.exportFuncs.lookup funcName).map fun f => (f.arguments, f.outputTypes) := by
  have hkeys : (module.getExportsSignatures.map fun f =>
      (f.name, f.arguments, f.outputs)).map Prod.fst = module.exportFuncs.keys := by
    simp only [MModule.getExportsSignatures, List.map_map]
    rfl
  ext sig
  rw [MModule.cacheEntry, Maps.lookup_collect_eq_some_iff (hkeys ▸ AList.keys_nodup _)]
  simp only [MModule.getExportsSignatures, List.map_map, List.mem_map, Function.comp_apply,
    Option.map_eq_some_iff]
  constructor
  · rintro ⟨⟨name, f⟩, hmem, heq⟩
    obtain ⟨rfl, rfl⟩ := Prod.mk.inj heq
    exact ⟨f, AList.mem_lookup_iff.mpr hmem, rfl⟩
  · rintro ⟨f, hf, rfl⟩
    exact ⟨⟨funcName, f⟩, AList.mem_lookup_iff.mp hf, rfl⟩

theorem functionInterface_cacheEntry (module : MModule) (funcName : String) :
    module.cacheEntry.functionInterface funcName = module.functionInterface funcName := by
  rw [ModuleInterface.functionInterface, lookup_cacheEntry, Option.map_map]
  rfl

/-! ## What a lookup answers and leaves behind -/

namespace MarineInstance

theorem answer_hit {marine : MarineInstance} {moduleName : String} {i : ModuleInterface}
    (h : marine.moduleInterfacesCache.lookup moduleName = some i) (funcName : String) :
    marine.answer moduleName funcName =
      match i.functionInterface funcName with
      | none => .error (.missingFunctionError funcName)
      | some fi => .ok fi := by
  unfold answer lookupModuleInterface
  simp only [h, ModuleInterface.functionInterface]
  cases i.functionSignatures.lookup funcName with
  | none => rfl
  | some f => rfl

theorem lookup_miss {marine : MarineInstance} {moduleName : String}
    (h : marine.moduleInterfacesCache.lookup moduleName = none) (funcName : String) :
    marine.answer moduleName funcName = marine.core.reported moduleName funcName ∧
      (marine.lookupModuleInterface moduleName funcName).2 =
        match marine.core.modules.lookup moduleName with
        | none => marine
        | some module =>
          match module.functionInterface funcName with
          | none => marine
          | some _ => { marine with moduleInterfacesCache :=
              marine.moduleInterfacesCache.insert funcName module.cacheEntry } := by
  rw [reported_eq]
  unfold answer lookupModuleInterface MarineCore.moduleInterface
  cases marine.core.modules.lookup moduleName with
  | none =>
    simp only [h, Option.map_none]
    exact ⟨rfl, trivial⟩
  | some module =>
    have hsig := lookup_cacheEntry module funcName
    simp only [MModule.cacheEntry] at hsig
    simp only [h, Option.map_some, MarineCore.getModuleInterface, hsig, MModule.functionInterface]
    cases module.exportFuncs.lookup funcName with
    | none => exact ⟨rfl, rfl⟩
    | some f => exact ⟨rfl, rfl⟩

theorem lookup_hit {marine : MarineInstance} {moduleName : String} {i : ModuleInterface}
    (h : marine.moduleInterfacesCache.lookup moduleName = some i) (funcName : String) :
    (marine.lookupModuleInterface moduleName funcName).2 = marine := by
  unfold lookupModuleInterface
  simp only [h]
  cases i.functionSignatures.lookup funcName with
  | none => rfl
  | some f => rfl

end MarineInstance

/-! ## Coherence as an invariant -/

/-- Every cached interface is that of the module loaded under its key. -/
def CacheAgrees (modules : AList fun _ : String => MModule)
    (cache : AList fun _ : String => ModuleInterface) : Prop :=
  ∀ name i, cache.lookup name = some i → ∃ module, modules.lookup name = some module ∧
    ∀ funcName, i.functionInterface funcName = module.functionInterface funcName

theorem coherent_iff (marine : MarineInstance) :
    marine.Coherent ↔ CacheAgrees marine.core.modules marine.moduleInterfacesCache := by
  constructor
  · intro h name i hi
    have hanswer := fun f => (marine.answer_hit hi f).symm.trans (h name f)
    simp only [reported_eq] at hanswer
    cases hm : marine.core.modules.lookup name with
    | none =>
      simp only [hm] at hanswer
      have := hanswer ""
      split at this <;> cases this
    | some module =>
      refine ⟨module, rfl, fun f => ?_⟩
      have hf := hanswer f
      simp only [hm] at hf
      split at hf <;> split at hf <;> simp_all
  · intro h name f
    cases hi : marine.moduleInterfacesCache.lookup name with
    | none => exact (marine.lookup_miss hi f).1
    | some i =>
      obtain ⟨module, hm, hsame⟩ := h name i hi
      rw [marine.answer_hit hi f, reported_eq, hm, hsame f]

theorem cacheAgrees_insert_iff {modules : AList fun _ : String => MModule}
    {cache : AList fun _ : String => ModuleInterface} (h : CacheAgrees modules cache)
    (name : String) (module : MModule) :
    CacheAgrees modules (cache.insert name module.cacheEntry) ↔
      ∃ loaded, modules.lookup name = some loaded ∧
        ∀ f, module.functionInterface f = loaded.functionInterface f := by
  constructor
  · intro hins
    obtain ⟨loaded, hl, hsame⟩ := hins name _ (AList.lookup_insert _)
    exact ⟨loaded, hl, fun f => (functionInterface_cacheEntry module f).symm.trans (hsame f)⟩
  · rintro ⟨loaded, hl, hsame⟩ name' i hi
    by_cases he : name' = name
    · subst he
      rw [AList.lookup_insert, Option.some.injEq] at hi
      subst hi
      exact ⟨loaded, hl, fun f => (functionInterface_cacheEntry module f).trans (hsame f)⟩
    · rw [AList.lookup_insert_ne he] at hi
      exact h name' i hi

theorem cacheAgrees_load {modules : AList fun _ : String => MModule}
    {cache : AList fun _ : String => ModuleInterface} (h : CacheAgrees modules cache)
    {name : String} (hnew : modules.lookup name = none) (module : MModule) :
    CacheAgrees (modules.insert name module) cache := by
  intro name' i hi
  obtain ⟨loaded, hl, hsame⟩ := h name' i hi
  have hne : name' ≠ name := by
    rintro rfl
    rw [hnew] at hl
    cases hl
  exact ⟨loaded, by rw [AList.lookup_insert_ne hne, hl], hsame⟩

theorem cacheAgrees_unload_iff {modules : AList fun _ : String => MModule}
    {cache : AList fun _ : String => ModuleInterface} (h : CacheAgrees modules cache)
    (name : String) : CacheAgrees (modules.erase name) cache ↔ cache.lookup name = none := by
  constructor
  · intro hers
    cases hi : cache.lookup name with
    | none => rfl
    | some i =>
      obtain ⟨loaded, hl, -⟩ := hers name i hi
      rw [AList.lookup_erase] at hl
      cases hl
  · intro hnone name' i hi
    obtain ⟨loaded, hl, hsame⟩ := h name' i hi
    have hne : name' ≠ name := by
      rintro rfl
      rw [hnone] at hi
      cases hi
    exact ⟨loaded, by rw [AList.lookup_erase_ne hne, hl], hsame⟩

/-! ## Steps -/

@[simp] theorem callAsync_modules (core : MarineCore) (moduleName funcName : String)
    (args : List IValue) (run : List IValue → EngineRun (List IValue)) :
    (core.callAsync moduleName funcName args run).2.modules = core.modules := by
  unfold MarineCore.callAsync
  split
  · rfl
  · split <;> rfl

theorem loadModule_modules (core : MarineCore) (name : String) (run : EngineRun MModule) :
    (core.loadModule name run).2.modules = core.modules ∨
      ∃ module, core.modules.lookup name = none ∧
        (core.loadModule name run).2.modules = core.modules.insert name module := by
  unfold MarineCore.loadModule
  split
  · exact .inl rfl
  · next module _ =>
    cases hnew : core.modules.lookup name with
    | none => exact .inr ⟨module, rfl, by simp only [hnew]⟩
    | some loaded => exact .inl (by simp only [hnew])

namespace MarineInstance

theorem callCore_state {marine marine' : MarineInstance} {moduleName funcName : String}
    {args : List IValue} {run : List IValue → EngineRun (List IValue)}
    {result : Except MarineError (List IValue)}
    (h : marine.callCore moduleName funcName args run = some (result, marine')) :
    marine'.core.modules = marine.core.modules ∧
      marine'.moduleInterfacesCache = marine.moduleInterfacesCache := by
  have hmodules := callAsync_modules marine.core moduleName funcName args run
  unfold callCore at h
  split at h
  · next core hcall =>
    cases h
    rw [hcall] at hmodules
    exact ⟨hmodules, rfl⟩
  · next core hcall =>
    obtain ⟨e, -, ⟨⟩⟩ := Option.map_eq_some_iff.mp h
    rw [hcall] at hmodules
    exact ⟨hmodules, rfl⟩

theorem callWithJson_state {JValue : Type} {serde : ItJsonSerde JValue}
    {marine marine' : MarineInstance} {moduleName funcName : String} {jsonArgs : JValue}
    {run : List IValue → EngineRun (List IValue)} {result : Except MarineError JValue}
    (h : callWithJsonAsync serde marine moduleName funcName jsonArgs run =
      some (result, marine')) :
    marine'.core.modules = marine.core.modules ∧ marine'.moduleInterfacesCache =
      (marine.lookupModuleInterface moduleName funcName).2.moduleInterfacesCache := by
  have hlookup := marine.lookupModuleInterface_core moduleName funcName
  unfold callWithJsonAsync at h
  generalize marine.lookupModuleInterface moduleName funcName = looked at h hlookup ⊢
  obtain ⟨found, after⟩ := looked
  dsimp only at hlookup ⊢
  rw [← hlookup]
  cases found with
  | error e => cases h; exact ⟨rfl, rfl⟩
  | ok found =>
    simp only at h
    split at h
    · cases h; exact ⟨rfl, rfl⟩
    · split at h
      · cases h
      · next hcall => cases h; exact callCore_state hcall
      · next hcall => cases h; exact callCore_state hcall

theorem loadModule_state {marine marine' : MarineInstance} {name : String}
    {config : Except MarineError Unit} {run : EngineRun MModule} {result : Except MarineError Unit}
    (h : marine.loadModule name config run = some (result, marine')) :
    marine'.moduleInterfacesCache = marine.moduleInterfacesCache ∧
      (marine'.core.modules = marine.core.modules ∨
        ∃ module, marine.core.modules.lookup name = none ∧
          marine'.core.modules = marine.core.modules.insert name module) := by
  have hmodules := loadModule_modules marine.core name run
  unfold loadModule at h
  split at h
  · cases h; exact ⟨rfl, .inl rfl⟩
  · split at h
    · next core hload =>
      cases h
      rw [hload] at hmodules
      exact ⟨rfl, hmodules⟩
    · next core hload =>
      obtain ⟨e, -, ⟨⟩⟩ := Option.map_eq_some_iff.mp h
      rw [hload] at hmodules
      exact ⟨rfl, hmodules⟩

theorem unloadModule_state (marine : MarineInstance) (name : String) :
    (marine.unloadModule name).2.moduleInterfacesCache = marine.moduleInterfacesCache ∧
      (marine.unloadModule name).2.core.modules =
        if (marine.core.modules.lookup name).isSome then marine.core.modules.erase name
        else marine.core.modules := by
  unfold unloadModule MarineCore.unloadModule
  cases marine.core.modules.lookup name with
  | none => exact ⟨rfl, rfl⟩
  | some module => exact ⟨rfl, rfl⟩

variable {JValue : Type} (serde : ItJsonSerde JValue)

/-- The operation does not put a wrong entry into the cache or leave one
there: a call with JSON that fills the cache is of a function whose name is
also that of a loaded module with the same interface, and a module that is
unloaded has no entry. -/
def KeepsCache (marine : MarineInstance) : Op JValue → Prop
  | .callWithJson moduleName funcName _ _ =>
    marine.moduleInterfacesCache.lookup moduleName = none →
      ∀ module, marine.core.modules.lookup moduleName = some module →
        (module.functionInterface funcName).isSome →
          ∃ loaded, marine.core.modules.lookup funcName = some loaded ∧
            ∀ f, module.functionInterface f = loaded.functionInterface f
  | .unloadModule name => marine.moduleInterfacesCache.lookup name = none
  | _ => True

theorem lookup_keeps_iff {marine : MarineInstance}
    (hc : CacheAgrees marine.core.modules marine.moduleInterfacesCache)
    (moduleName funcName : String) (jsonArgs : JValue)
    (run : List IValue → EngineRun (List IValue)) :
    CacheAgrees marine.core.modules
        (marine.lookupModuleInterface moduleName funcName).2.moduleInterfacesCache ↔
      marine.KeepsCache (.callWithJson moduleName funcName jsonArgs run) := by
  cases hi : marine.moduleInterfacesCache.lookup moduleName with
  | some i =>
    rw [lookup_hit hi funcName]
    refine ⟨fun _ hn => ?_, fun _ => hc⟩
    rw [hi] at hn
    cases hn
  | none =>
    rw [(lookup_miss hi funcName).2]
    cases hm : marine.core.modules.lookup moduleName with
    | none =>
      refine ⟨fun _ _ module hn => ?_, fun _ => hc⟩
      rw [hm] at hn
      cases hn
    | some module =>
      cases hf : module.functionInterface funcName with
      | none =>
        refine ⟨fun _ _ module' he hsome => ?_, fun _ => by simp only [hf]; exact hc⟩
        obtain rfl := Option.some.inj (hm.symm.trans he)
        rw [hf] at hsome
        cases hsome
      | some fi =>
        simp only [hf]
        rw [cacheAgrees_insert_iff hc funcName module]
        constructor
        · intro hloaded _ module' he _
          obtain rfl := Option.some.inj (hm.symm.trans he)
          exact hloaded
        · exact fun hk => hk hi module hm (by simp [hf])

/-- The operation does not panic. -/
def Survives (marine : MarineInstance) (op : Op JValue) : Prop :=
  (marine.step serde op).isSome

/-- **Step lemma.**  From a coherent state, an operation that does not panic
ends in a coherent one exactly when it keeps the cache. -/
theorem coherent_step_iff {marine marine' : MarineInstance} {op : Op JValue}
    (hc : marine.Coherent) (h : marine.step serde op = some marine') :
    marine'.Coherent ↔ marine.KeepsCache op := by
  rw [coherent_iff] at hc ⊢
  obtain ⟨⟨result, _⟩, hperform, rfl⟩ := Option.map_eq_some_iff.mp h
  cases op with
  | callWithIvalues m f args run =>
    obtain ⟨⟨result', _⟩, hcall, ⟨⟩⟩ := Option.map_eq_some_iff.mp hperform
    obtain ⟨hmodules, hcache⟩ := callCore_state hcall
    rw [hmodules, hcache]
    exact ⟨fun _ => trivial, fun _ => hc⟩
  | callWithJson m f jsonArgs run =>
    obtain ⟨⟨result', _⟩, hcall, ⟨⟩⟩ := Option.map_eq_some_iff.mp hperform
    obtain ⟨hmodules, hcache⟩ := callWithJson_state hcall
    rw [hmodules, hcache]
    exact lookup_keeps_iff hc m f jsonArgs run
  | loadModule name config run =>
    obtain ⟨hcache, hmodules⟩ := loadModule_state hperform
    rw [hcache]
    refine ⟨fun _ => trivial, fun _ => ?_⟩
    rcases hmodules with hsame | ⟨module, hnew, hins⟩
    · rw [hsame]; exact hc
    · rw [hins]; exact cacheAgrees_load hc hnew module
  | unloadModule name =>
    obtain ⟨hcache, hmodules⟩ := marine.unloadModule_state name
    rw [Option.some.inj hperform] at hcache hmodules
    rw [hcache, hmodules]
    cases hm : marine.core.modules.lookup name with
    | some module => exact cacheAgrees_unload_iff hc name
    | none =>
      -- a coherent cache has no entry for a module that is not loaded
      have hnone : marine.moduleInterfacesCache.lookup name = none := by
        cases hi : marine.moduleInterfacesCache.lookup name with
        | none => rfl
        | some i =>
          obtain ⟨loaded, hl, -⟩ := hc name i hi
          rw [hm] at hl
          cases hl
      exact ⟨fun _ => hnone, fun _ => hc⟩

theorem coherent_new (core : MarineCore) : (new core).Coherent := by
  rw [coherent_iff]
  intro name i hi
  cases hi

/-- **Coherence of the interface cache.**  It holds in every state of a run
whose operations keep the cache, and in no other run without a panic. -/
theorem cache_coherent_iff (core : MarineCore) (ops : List (Op JValue)) :
    (Runs.Along (step serde) KeepsCache (new core) ops →
        Runs.Always (step serde) Coherent (new core) ops) ∧
      (Runs.Along (step serde) (Survives serde) (new core) ops →
        Runs.Always (step serde) Coherent (new core) ops →
          Runs.Along (step serde) KeepsCache (new core) ops) := by
  have hstep : ∀ s op, Coherent s → ((s.step serde op = none ∨ s.KeepsCache op) ↔
      ∀ s' ∈ s.step serde op, Coherent s') := by
    intro s op hc
    cases hs : s.step serde op with
    | none => exact ⟨fun _ _ hs' => (nomatch hs'), fun _ => .inl rfl⟩
    | some s' =>
      have hiff := coherent_step_iff serde hc hs
      constructor
      · rintro (hnone | hk) _ ⟨⟩
        · cases hnone
        · exact hiff.mpr hk
      · exact fun hall => .inr (hiff.mp (hall s' rfl))
  have hexact : Runs.Always (step serde) Coherent (new core) ops ↔
      Runs.Along (step serde) (fun s op => s.step serde op = none ∨ s.KeepsCache op)
        (new core) ops :=
    Runs.always_iff_along hstep (coherent_new core)
  constructor
  · exact fun hk => hexact.mpr (hk.mono fun _ _ => .inr)
  · intro hsurv hall
    refine (hsurv.and (hexact.mp hall)).mono ?_
    rintro s op ⟨hs, hor⟩
    refine hor.resolve_left fun hnone => ?_
    rw [Survives, hnone] at hs
    cases hs

/-! ## A function named like no module -/

/-- A module with one memory and one function `greet`. -/
def greeting : MModule where
  memory := some 0
  exportFuncs := AList.singleton "greet" ⟨[], [.string]⟩
  exportRecordTypes := ∅

/-- A core with the module `greeting` loaded. -/
def greetingCore : MarineCore :=
  ((MarineCore.new (.new none)).loadModule "greeting"
    ⟨[.memory (.fresh none) 65536 true], .ok greeting⟩).2

def callGreet : Op Unit :=
  .callWithJson "greeting" "greet" () fun _ => ⟨[], .ok [.string "Hi"]⟩

/-- After one call of `greet` in the module `greeting`, the lookup of `greet`
in a module `greet`, which is not loaded, succeeds. -/
theorem greet_cached_under_function_name :
    ∃ marine i, (new greetingCore).step noArgsSerde callGreet = some marine ∧
      marine.answer "greet" "greet" = .ok i ∧
      marine.core.reported "greet" "greet" = .error (.noSuchModule "greet") ∧
      ¬ Runs.Always (step noArgsSerde) Coherent (new greetingCore) [callGreet] := by
  refine ⟨_, _, rfl, rfl, rfl, fun hall => ?_⟩
  have hanswer := hall.2 _ rfl "greet" "greet"
  cases hanswer

end MarineInstance

end Marine.Runtime
