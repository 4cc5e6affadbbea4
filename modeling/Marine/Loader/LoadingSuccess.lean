import Marine.Loader.LoadingPanics

/-!
# When a module is loaded

What `MModule::new` asks of a section, of the engine and of the parsers, step by
step: the conditions are on the elements of the section and on the modules that
are loaded, and the order in which a table gives its entries does not matter.

* `instantiateExports_isOk_iff`: one exported function after the other.
* `newInstanceIn_isOk_iff`: the instance of the interpreter, under either profile.
* `newModuleFrom_isOk_iff`: the whole.
-/

namespace Marine.Loader

open Marine.Runtime Fallible

variable {overflowChecks : Bool} {run : ModuleRun} {name : String}
  {modules : AList fun _ : String => MModule} {wit : MITInterfaces}

/-! ## Exported functions -/

/-- The type can be followed through its elements and fields: no level is too deep, and
every record is there. -/
def Followed (wit : MITInterfaces) (ty : IType) : Prop :=
  ∀ n inner, Walks.Path (innerTypes (getAllRecords wit)) ty n inner →
    n ≤ typeResolveRecursionLimit ∧ IsKnown (getAllRecords wit) inner

/-- The adapter of an exported function has the type of a function, whose types can be
followed, and instructions that parse. -/
def ExportTaken (parses : List Instruction → Bool) (wit : MITInterfaces)
    (d : ITExportFuncDescriptor) : Prop :=
  ∃ arguments outputTypes instructions,
    wit.typeByIdx d.adapterFunctionType = some (.function arguments outputTypes) ∧
    (∀ ty ∈ arguments.map FunctionArg.ty ++ outputTypes, Followed wit ty) ∧
    wit.adapterByType d.adapterFunctionType = some instructions ∧ parses instructions

theorem exportSignature_eq_ok_iff {d : ITExportFuncDescriptor} {s : IFunctionSignature} :
    exportSignature wit d = .ok s ↔ ∃ arguments outputTypes,
      wit.typeByIdx d.adapterFunctionType = some (.function arguments outputTypes) ∧
      s = ⟨d.name, arguments, outputTypes, d.adapterFunctionType⟩ := by
  unfold exportSignature MITInterfaces.typeByIdxR MITInterfaces.typeByIdx
  cases wit.types[d.adapterFunctionType]? with
  | none => simp
  | some ty =>
    cases ty with
    | record r => simp
    | function arguments outputTypes => simp [eq_comm]

theorem exportFunc_isOk_iff (parses : List Instruction → Bool) (s : IFunctionSignature) :
    (exportFunc parses wit s).isOk ↔
      ∃ instructions, wit.adapterByType s.adapterFunctionType = some instructions ∧
        parses instructions := by
  unfold exportFunc MITInterfaces.adapterByTypeR MITInterfaces.adapterByType
  cases wit.adapters.lookup s.adapterFunctionType with
  | none => simp
  | some instructions => by_cases hparses : parses instructions <;> simp [hparses]

/-- The records of the signatures are collected if their types can be followed. -/
theorem getRecordTypes_isOk_iff (signatures : List IFunctionSignature) :
    (getRecordTypes wit signatures).isOk ↔
      ∀ s ∈ signatures, ∀ ty ∈ s.itypes, Followed wit ty := by
  unfold getRecordTypes Followed
  rw [isOk_bind_pure, foldlM_isOk_iff fun ty _ s => handleItype_isOk_iff (getAllRecords wit) s ty 0]
  simp only [Nat.zero_add, List.mem_flatMap, forall_exists_index, and_imp]
  exact ⟨fun h s hs ty hty => h ty s hs hty, fun h ty s hs hty => h s hs ty hty⟩

/-- **Spec of `instantiate_exports`.** -/
theorem instantiateExports_isOk_iff (parses : List Instruction → Bool) :
    (instantiateExports parses wit).isOk ↔
      ∀ d ∈ getExportFuncsDescriptors wit, ExportTaken parses wit d := by
  constructor
  · intro h d hd
    obtain ⟨exports, h⟩ := isOk_iff_exists.mp h
    unfold instantiateExports at h
    cases hiface : getInterface wit with
    | error e =>
      rw [hiface] at h
      cases h
    | ok iface =>
      rw [hiface] at h
      obtain ⟨funcs, hfuncs, -⟩ := bind_eq_ok_iff.mp h
      obtain ⟨signatures, hsignatures, hrest⟩ := bind_eq_ok_iff.mp hiface
      obtain ⟨full, hfull, hrest⟩ := bind_eq_ok_iff.mp hrest
      cases hrest
      obtain ⟨s, hs, hd⟩ := exists_right_of_mem (mapM_eq_ok_iff.mp hsignatures) hd
      obtain ⟨func, -, hfunc⟩ := exists_right_of_mem (mapM_eq_ok_iff.mp hfuncs) hs
      obtain ⟨arguments, outputTypes, htype, rfl⟩ := exportSignature_eq_ok_iff.mp hd
      obtain ⟨instructions, hadapter, hparses⟩ :=
        (exportFunc_isOk_iff parses _).mp (isOk_iff_exists.mpr ⟨func, hfunc⟩)
      have hfollowed := (getRecordTypes_isOk_iff signatures).mp (isOk_iff_exists.mpr ⟨full, hfull⟩)
      exact ⟨arguments, outputTypes, instructions, htype, hfollowed _ hs, hadapter, hparses⟩
  · intro h
    have hread : ∀ d ∈ getExportFuncsDescriptors wit, ∃ s, exportSignature wit d = .ok s := by
      intro d hd
      obtain ⟨arguments, outputTypes, -, htype, -⟩ := h d hd
      exact ⟨_, exportSignature_eq_ok_iff.mpr ⟨arguments, outputTypes, htype, rfl⟩⟩
    obtain ⟨signatures, hsignatures⟩ := exists_mapM_ok hread
    -- what was asked of the descriptor holds of the signature
    have hmade : ∀ s ∈ signatures, (∀ ty ∈ s.itypes, Followed wit ty) ∧
        ∃ func, exportFunc parses wit s = .ok func := by
      intro s hs
      obtain ⟨d, hd, hds⟩ := exists_of_mem_mapM hsignatures hs
      obtain ⟨arguments, outputTypes, htype, rfl⟩ := exportSignature_eq_ok_iff.mp hds
      obtain ⟨_, _, instructions, htype', hfollowed, hadapter, hparses⟩ := h d hd
      cases htype.symm.trans htype'
      exact ⟨hfollowed, isOk_iff_exists.mp
        ((exportFunc_isOk_iff parses _).mpr ⟨instructions, hadapter, hparses⟩)⟩
    obtain ⟨full, hfull⟩ := isOk_iff_exists.mp
      ((getRecordTypes_isOk_iff signatures).mpr fun s hs => (hmade s hs).1)
    have hiface : getInterface wit = .ok ⟨full.exportRecordTypes, full.recordTypes, signatures⟩ :=
      bind_eq_ok_iff.mpr ⟨signatures, hsignatures, bind_eq_ok_iff.mpr ⟨full, hfull, rfl⟩⟩
    obtain ⟨funcs, hfuncs⟩ := exists_mapM_ok fun s hs => (hmade s hs).2
    rw [instantiateExports, hiface]
    exact isOk_iff_exists.mpr ⟨_, bind_eq_ok_iff.mpr ⟨funcs, hfuncs, rfl⟩⟩

/-! ## The instance of the interpreter -/

/-- The import links to a loaded module; with overflow checks its type is that of a core
function, which the subtraction takes to one of the section. -/
def LinksIn (overflowChecks : Bool) (modules : AList fun _ : String => MModule)
    (wit : MITInterfaces) (i : Import) : Prop :=
  (overflowChecks → 2 ≤ i.functionType) ∧
    ∃ module arguments outputTypes callable, modules.lookup i.nameSpace = some module ∧
      wit.typeByIdx (wrappingSub i.functionType 2) = some (.function arguments outputTypes) ∧
      module.exportFuncs.lookup i.name = some callable

theorem extractImportIn_isOk_iff_linksIn (overflowChecks : Bool) (moduleName : String)
    (modules : AList fun _ : String => MModule) (wit : MITInterfaces) (i : Import) :
    (extractImportIn overflowChecks moduleName modules wit i).isOk ↔
      LinksIn overflowChecks modules wit i := by
  unfold LinksIn
  rw [← extractImport_isOk_iff moduleName, extractImportIn]
  by_cases hunder : overflowChecks ∧ underflows modules i
  · rw [if_pos hunder]
    exact iff_of_false Bool.false_ne_true fun h =>
      absurd (h.1 hunder.1) (Nat.not_le.mpr hunder.2.2)
  · rw [if_neg hunder]
    refine ⟨fun h => ⟨fun hchecks => ?_, h⟩, And.right⟩
    obtain ⟨module, -, -, -, hmodule, -⟩ := (extractImport_isOk_iff moduleName modules wit i).mp h
    by_contra hlt
    exact hunder ⟨hchecks, hmodule ▸ rfl, Nat.not_le.mp hlt⟩

/-- **Spec of `ITInstance::new`** that returns. -/
theorem newInstanceIn_isOk_iff (overflowChecks : Bool) (wasmInstance : WasmInstance)
    (name : String) (modules : AList fun _ : String => MModule) (wit : MITInterfaces) :
    (newInstanceIn overflowChecks wasmInstance name wit modules).isOk ↔
      (∀ e ∈ wit.exports, ExportConverts wasmInstance e) ∧
      ∀ i ∈ adapterImports wit, LinksIn overflowChecks modules wit i := by
  have hexports : (ITInstance.extractRawExports wasmInstance wit).isOk ↔
      ∀ e ∈ wit.exports, ExportConverts wasmInstance e :=
    mapM_zipIdx_isOk_iff id 0 fun e => (extractRawExport_spec wasmInstance e).1
  have himports : ∀ start, (extractImportsIn overflowChecks name modules wit start).isOk ↔
      ∀ i ∈ adapterImports wit, LinksIn overflowChecks modules wit i := fun start =>
    mapM_zipIdx_isOk_iff (fun idx => start + idx) 0
      (extractImportIn_isOk_iff_linksIn overflowChecks name modules wit)
  rw [← hexports, newInstanceIn]
  cases ITInstance.extractRawExports wasmInstance wit with
  | error e => exact iff_of_false Bool.false_ne_true fun h => Bool.false_ne_true h.1
  | ok exports =>
    rw [← himports (Maps.collect exports).entries.length]
    exact (isOk_bind_pure _ _).trans (and_iff_right rfl).symm

/-! ## The whole -/

/-- What is read out of the section once there is an instance. -/
structure Accepts (overflowChecks : Bool) (parses : List Instruction → Bool)
    (modules : AList fun _ : String => MModule) (wit : MITInterfaces)
    (wasmInstance : WasmInstance) : Prop where
  /-- The instance has the exports, with types that the interface types know. -/
  exports : ∀ e ∈ wit.exports, ExportConverts wasmInstance e
  /-- The implemented imports link to loaded modules. -/
  imports : ∀ i ∈ adapterImports wit, LinksIn overflowChecks modules wit i
  /-- The exported functions have adapters. -/
  functions : ∀ d ∈ getExportFuncsDescriptors wit, ExportTaken parses wit d

theorem processTables_isOk_iff {wasmInstance : WasmInstance} :
    (∃ exports, processTables overflowChecks run name modules wit = .ok (wasmInstance, exports)) ↔
      Instantiates run wit wasmInstance ∧
        Accepts overflowChecks run.parses modules wit wasmInstance := by
  unfold processTables
  simp only [bind_eq_ok_iff, orError_eq_ok_iff]
  constructor
  · rintro ⟨exports, imports, himports, ⟨⟩, hwasi, ⟨⟩, hhost, _, hinstantiate, itInstance,
      hinstance, funcs, hfuncs, ⟨⟩⟩
    obtain ⟨hconverts, hregister⟩ := addWitImports_ok_iff.mp ⟨imports, himports⟩
    obtain ⟨hexports, hlinks⟩ := (newInstanceIn_isOk_iff overflowChecks wasmInstance name modules
      wit).mp (isOk_iff_exists.mpr ⟨itInstance, hinstance⟩)
    exact ⟨⟨hconverts, hregister, hwasi, hhost, hinstantiate⟩, hexports, hlinks,
      (instantiateExports_isOk_iff run.parses).mp (isOk_iff_exists.mpr ⟨exports, hfuncs⟩)⟩
  · rintro ⟨hi, haccepts⟩
    obtain ⟨imports, himports⟩ := addWitImports_ok_iff.mpr ⟨hi.imports, hi.register⟩
    obtain ⟨itInstance, hinstance⟩ := isOk_iff_exists.mp
      ((newInstanceIn_isOk_iff overflowChecks wasmInstance name modules wit).mpr
        ⟨haccepts.exports, haccepts.imports⟩)
    obtain ⟨funcs, hfuncs⟩ := isOk_iff_exists.mp
      ((instantiateExports_isOk_iff run.parses).mpr haccepts.functions)
    exact ⟨funcs, imports, himports, (), hi.wasi, (), hi.host, wasmInstance, hi.instantiate,
      itInstance, hinstance, funcs, hfuncs, rfl⟩

/-- Each step of loading passes, and the engine gives this instance. -/
structure LoadsAs (tables : Interfaces → MITInterfaces) (overflowChecks : Bool) (run : ModuleRun)
    (modules : AList fun _ : String => MModule) (wasmInstance : WasmInstance) : Prop where
  wasmModule : run.wasmModule = .ok ()
  sdkVersion : run.checkSdkVersion = .ok ()
  decoded : ∃ it, run.extractIt = .ok it ∧ Instantiates run (tables it) wasmInstance ∧
    Accepts overflowChecks run.parses modules (tables it) wasmInstance
  itVersion : run.checkItVersion = .ok ()
  initialized : callIfExported run wasmInstance "_initialize" = .ok ()
  started : callIfExported run wasmInstance "_start" = .ok ()

/-- **A module is loaded** when each step passes. -/
theorem newModuleFrom_isOk_iff (tables : Interfaces → MITInterfaces) :
    (newModuleFrom tables overflowChecks run name modules).isOk ↔
      ∃ wasmInstance, LoadsAs tables overflowChecks run modules wasmInstance := by
  rw [isOk_iff_exists, newModuleFrom]
  simp only [bind_eq_ok_iff, orError_eq_ok_iff]
  constructor
  · rintro ⟨module, ⟨⟩, hwasm, ⟨⟩, hsdk, it, hit, ⟨⟩, hversion, ⟨wasmInstance, exports⟩,
      hprocessed, ⟨⟩, hinitialize, ⟨⟩, hstart, -⟩
    exact ⟨wasmInstance, hwasm, hsdk, ⟨it, hit, processTables_isOk_iff.mp ⟨exports, hprocessed⟩⟩,
      hversion, hinitialize, hstart⟩
  · rintro ⟨wasmInstance, hwasm, hsdk, ⟨it, hit, hread⟩, hversion, hinitialize, hstart⟩
    obtain ⟨exports, hprocessed⟩ := processTables_isOk_iff.mpr hread
    exact ⟨_, (), hwasm, (), hsdk, it, hit, (), hversion, _, hprocessed, (), hinitialize, (),
      hstart, rfl⟩

end Marine.Loader
