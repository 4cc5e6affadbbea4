import Marine.Loader.AdapterMeaning
import Marine.Loader.CallCore

/-!
# Calls through the adapters of a module

A module with a generated section: `call-core` goes by the numbering of the
loader to the SDK, to a Wasm function of the module or to a function of another
module.

* `generatedCalls_meaning`: a call from outside and a call of an import, through
  the adapters that the loader finds, do what the interface types say.
-/

namespace Marine.Loader

open Marine.Generator EffectCode

variable {m : Type → Type} [Monad m]

/-- An instance, as its adapters use it: `core` are its Wasm functions by name, and
`imported` the functions of other modules behind its imports. -/
structure ModuleInstance (m : Type → Type) [Monad m] where
  runtime : ItRuntime m
  core : String → CoreFunction m
  imported : Import → List IValue → m (List IValue)

namespace ModuleInstance

variable (inst : ModuleInstance m) (wit : MITInterfaces)

/-- `ITInstance::local_or_import`. -/
def localOrImport (functionIndex : Nat) : Option (CoreFunction m) :=
  match (numbering wit)[functionIndex]? with
  | some (.export name) =>
    match apiFuncs.find? fun d => d.name = name with
    | some d => some (inst.runtime.apiFunction d.id)
    | none => some (inst.core name)
  | some (.import i) =>
    match importSignature wit i with
    | .ok signature => some ⟨signature.1.length, inst.imported i⟩
    | .error _ => none
  | none => none

def frame (arguments : List IValue) : AdapterFrame m :=
  ⟨inst.runtime, arguments, inst.localOrImport wit⟩

/-- The adapter with this type, run on its arguments. -/
def runAdapter (adapterType : Nat) (arguments : List IValue) : m (List IValue) :=
  match wit.adapterByType adapterType with
  | some code => (inst.frame wit arguments).run code
  | none => inst.runtime.trap

end ModuleInstance

/-! ## What the numbers serve -/

section Numbers

variable {deps : Externals} {r : ITResolver} {l : Layout} {inst : ModuleInstance m}

theorem servesApi_interfaces (arguments : List IValue) :
    (inst.frame (MITInterfaces.new (l.interfaces deps)) arguments).ServesApi := by
  intro d hd
  have hapi : ∀ d ∈ apiFuncs, apiFuncs[d.id]? = some d := by decide
  have hfind : ∀ d ∈ apiFuncs, apiFuncs.find? (fun d' => d'.name = d.name) = some d := by decide
  have hlt : d.id < apiFuncs.length := (List.getElem?_eq_some_iff.mp (hapi d hd)).1
  have hnumber : (numbering (MITInterfaces.new (l.interfaces deps)))[d.id]? =
      some (.export d.name) := by
    rw [numbering_interfaces, List.append_assoc,
      List.getElem?_append_left (by rwa [List.length_map]), List.getElem?_map, hapi d hd]
    rfl
  show inst.localOrImport _ d.id = some (inst.runtime.apiFunction d.id)
  rw [ModuleInstance.localOrImport, hnumber]
  simp only [hfind d hd]

/-- No function of the module has the name of an SDK function. -/
def OwnName (name : String) : Prop := ∀ d ∈ apiFuncs, d.name ≠ name

theorem serves_fn {k : Nat} {e : FnEntry} (he : l.fns[k]? = some e)
    (hname : OwnName e.fn.signature.name) (arguments : List IValue) :
    (inst.frame (MITInterfaces.new (l.interfaces deps)) arguments).Serves (Layout.fnCallee k)
      (inst.core e.fn.signature.name) := by
  have hfind : apiFuncs.find? (fun d => d.name = e.fn.signature.name) = none := by
    rw [List.find?_eq_none]
    intro d hd
    simpa using hname d hd
  show inst.localOrImport _ _ = some _
  rw [ModuleInstance.localOrImport, numbering_fn he]
  simp only [hfind]

theorem importSignature_import {j : Nat} {e : ImportEntry} (he : l.imports[j]? = some e) :
    importSignature (MITInterfaces.new (l.interfaces deps))
      ⟨e.nameSpace, ExternFnType.name e.fn, l.importIdx j + 2⟩ =
        .ok (e.arguments, e.outputTypes) := by
  have htype : (l.interfaces deps).types[l.importIdx j]? = some e.itType := types_import he
  have hidx : wrappingSub (l.importIdx j + 2) 2 = l.importIdx j := by simp [wrappingSub]
  have htypeR : (MITInterfaces.new (l.interfaces deps)).typeByIdxR (l.importIdx j) =
      .ok e.itType := by
    have hsame : (MITInterfaces.new (l.interfaces deps)).types = (l.interfaces deps).types := rfl
    rw [MITInterfaces.typeByIdxR, hsame, htype]
  rw [importSignature, hidx, htypeR]
  rfl

theorem serves_import {j : Nat} {e : ImportEntry} (he : l.imports[j]? = some e)
    (arguments : List IValue) :
    (inst.frame (MITInterfaces.new (l.interfaces deps)) arguments).Serves (l.importCallee j)
      ⟨e.arguments.length,
        inst.imported ⟨e.nameSpace, ExternFnType.name e.fn, l.importIdx j + 2⟩⟩ := by
  show inst.localOrImport _ _ = some _
  rw [ModuleInstance.localOrImport, numbering_import he]
  simp only [importSignature_import he]

end Numbers

/-! ## Calls of generated modules -/

variable [LawfulMonad m]

/-- How many values the Wasm function of a signature returns. -/
def rawOutputCount (s : FnSignature) : Nat := (generateRawOutputType s).length

/-- The Wasm function that a signature describes takes and returns raw values. -/
structure CoreFits (s : FnSignature) (function : CoreFunction m) : Prop where
  arity : function.arity = (generateRawArgs s).length
  yields : ∀ raws, Yields (fun outs => outs.length = rawOutputCount s) (function.call raws)

theorem length_rawOutputs (s : FnSignature) :
    (s.outputTypes.flatMap rawOutputs).length = rawOutputCount s := by
  simp [rawOutputCount, generateRawOutputType, rawOutputs, List.length_flatMap]

theorem length_generateRawArgs {r : ITResolver} {s : FnSignature} {arguments : List FunctionArg}
    (h : generateItArgs r s = .ok arguments) :
    (generateRawArgs s).length = rawTotal (arguments.map FunctionArg.ty) := by
  rw [rawTotal_eq (generateItArgs_types h), ← map_generateRawArgs, List.length_map]

theorem length_generateItArgs {r : ITResolver} {s : FnSignature} {arguments : List FunctionArg}
    (h : generateItArgs r s = .ok arguments) : arguments.length = s.arguments.length := by
  have hlen := (generateItArgs_types h).length_eq
  rw [List.length_map] at hlen
  exact hlen.symm

section Entries

variable {deps : Externals} {r : ITResolver} {frame : AdapterFrame m}

theorem run_exportCode (hapi : frame.ServesApi) {e : FnEntry} (he : e.MadeBy deps r)
    (hone : e.fn.signature.outputTypes.length ≤ 1)
    (hargs : frame.arguments.length = e.arguments.length) {callee : Nat}
    {function : CoreFunction m} (hcallee : frame.Serves callee function)
    (hfits : CoreFits e.fn.signature function) :
    frame.run (e.code deps callee) =
      frame.runtime.exportMeaning (byteTag deps) (e.arguments.map FunctionArg.ty) e.outputTypes
        (e.fn.signature.outputTypes.any deps.isComplexType) function.call frame.arguments := by
  apply AdapterFrame.run_of_computes
  have hlen : frame.arguments.length = (e.arguments.map FunctionArg.ty).length := by
    rw [List.length_map, hargs]
  have hlower := exportArgs_computes (b := []) hapi (generateItArgs_types he.arguments) hlen rfl
    he.argCode
  have hyields := lowerArgs_yields frame.runtime (byteTag deps) _ frame.arguments hlen
  rw [FnEntry.code, List.append_assoc, List.append_assoc]
  refine hlower.bind hyields fun raws hraws => ?_
  have harity : raws.length = function.arity := by
    rw [hraws, ← length_generateRawArgs he.arguments, hfits.arity]
  refine (AdapterFrame.computes_callee hcallee harity).bind (hfits.yields raws) fun outs houts => ?_
  rw [← length_rawOutputs] at houts
  refine (exportOutputs_computes hapi hone he.outputTypes houts he.outCode).append
    fun values => ?_
  exact (computes_release hapi _ values.reverse).mapPure fun _ => rfl

theorem run_importCode (hapi : frame.ServesApi) {e : ImportEntry} (he : e.MadeBy deps r)
    (hone : e.fn.signature.outputTypes.length ≤ 1)
    (hraws : frame.arguments.length = rawTotal (e.arguments.map FunctionArg.ty)) {callee : Nat}
    {call : List IValue → m (List IValue)}
    (hcallee : frame.Serves callee ⟨e.arguments.length, call⟩)
    (hcall : ∀ args, args.length = e.arguments.length →
      Yields (fun values => values.length = e.outputTypes.length) (call args)) :
    frame.run (e.code deps callee) =
      frame.runtime.importMeaning (byteTag deps) (e.arguments.map FunctionArg.ty) e.outputTypes
        (e.fn.signature.arguments.any fun arg => deps.isComplexType arg.ty) call
        frame.arguments := by
  apply AdapterFrame.run_of_computes
  have hlift : Computes frame.step e.argCode []
      (frame.runtime.liftArgs (e.arguments.map FunctionArg.ty) frame.arguments) List.reverse :=
    importArgs_computes (b := []) (generateItArgs_types he.arguments) hraws rfl he.argCode
  have hyields := liftArgs_yields frame.runtime (e.arguments.map FunctionArg.ty) frame.arguments
  have hany : (e.fn.signature.arguments.any fun arg => deps.isComplexType arg.ty) =
      (e.fn.signature.arguments.map FnArgument.ty).any deps.isComplexType := by
    rw [List.any_map]
    rfl
  rw [ImportEntry.code, List.append_assoc, List.append_assoc, hany]
  refine hlift.bind hyields fun args hargs => ?_
  refine (computes_release hapi _ args.reverse).append fun _ => ?_
  have harity : args.length = e.arguments.length := by
    rw [hargs, List.length_map]
  refine (AdapterFrame.computes_callee hcallee harity).bind (hcall args harity)
    fun values hvalues => ?_
  exact importOutputs_computes hapi hone he.outputTypes hvalues he.outCode

end Entries

/-- The adapter that the loader finds for an exported function, and its declared type. -/
structure FoundExport (wit : MITInterfaces) (name : String) where
  coreType : Nat
  adapterType : Nat
  arguments : List FunctionArg
  outputTypes : List IType
  exported : wit.exportsByType coreType = some [name]
  implemented : wit.adapterTypesByCoreType coreType = some [adapterType]
  declared : wit.typeByIdx adapterType = some (.function arguments outputTypes)

/-- The import that the loader finds for a function of another module. -/
structure FoundImport (wit : MITInterfaces) (nameSpace name : String) where
  coreType : Nat
  adapterType : Nat
  arguments : List FunctionArg
  outputTypes : List IType
  imported : ⟨nameSpace, name, coreType⟩ ∈ adapterImports wit
  implemented : wit.adapterTypesByCoreType coreType = some [adapterType]
  declared : importSignature wit ⟨nameSpace, name, coreType⟩ = .ok (arguments, outputTypes)

def FoundExport.types {wit : MITInterfaces} {name : String} (found : FoundExport wit name) :
    List IType :=
  found.arguments.map FunctionArg.ty

namespace FoundImport

variable {wit : MITInterfaces} {nameSpace name : String} (found : FoundImport wit nameSpace name)

def types : List IType := found.arguments.map FunctionArg.ty

def descriptor : Import := ⟨nameSpace, name, found.coreType⟩

end FoundImport

/-- The generator has these interface types for the signature. -/
def Resolves (s : FnSignature) (arguments : List FunctionArg) (outputTypes : List IType) : Prop :=
  ∃ r, generateItArgs r s = .ok arguments ∧ generateItOutputType r s = .ok outputTypes

theorem Resolves.length_arguments {s : FnSignature} {arguments : List FunctionArg}
    {outputTypes : List IType} (h : Resolves s arguments outputTypes) :
    arguments.length = s.arguments.length := by
  obtain ⟨r, harguments, -⟩ := h
  exact length_generateItArgs harguments

theorem Resolves.length_outputTypes {s : FnSignature} {arguments : List FunctionArg}
    {outputTypes : List IType} (h : Resolves s arguments outputTypes) :
    outputTypes.length = s.outputTypes.length := by
  obtain ⟨r, -, houtputs⟩ := h
  exact (Fallible.mapM_eq_ok_iff.mp houtputs).length_eq.symm

/-- Through the adapter of the exported function, arguments are lowered, the Wasm
function is called and its output is lifted. -/
def ExportMeans (deps : Externals) (wit : MITInterfaces) (f : FnType) : Prop :=
  ∃ found : FoundExport wit f.signature.name,
    Resolves f.signature found.arguments found.outputTypes ∧
    ∀ {m : Type → Type} [Monad m] [LawfulMonad m] (inst : ModuleInstance m) (args : List IValue),
      CoreFits f.signature (inst.core f.signature.name) → args.length = found.arguments.length →
      inst.runAdapter wit found.adapterType args =
        inst.runtime.exportMeaning (byteTag deps) found.types found.outputTypes
          (f.signature.outputTypes.any deps.isComplexType) (inst.core f.signature.name).call args

/-- Through the adapter of the import, the raw arguments of the module are lifted, the
function of the other module is called and its output is lowered. -/
def ImportMeans (deps : Externals) (wit : MITInterfaces) (nameSpace : String) (g : ExternFnType) :
    Prop :=
  ∃ found : FoundImport wit nameSpace (ExternFnType.name g),
    Resolves g.signature found.arguments found.outputTypes ∧
    ∀ {m : Type → Type} [Monad m] [LawfulMonad m] (inst : ModuleInstance m) (raws : List IValue),
      (∀ args, args.length = found.arguments.length →
        Yields (fun values => values.length = found.outputTypes.length)
          (inst.imported found.descriptor args)) →
      raws.length = rawTotal found.types →
      inst.runAdapter wit found.adapterType raws =
        inst.runtime.importMeaning (byteTag deps) found.types found.outputTypes
          (g.signature.arguments.any fun arg => deps.isComplexType arg.ty)
          (inst.imported found.descriptor) raws

section Sections

variable {deps : Externals} {r : ITResolver} {functions : List FnType}
  {imports : List (String × ExternFnType)} {l : Layout}

theorem exportMeans_fn (hof : l.Of deps r functions imports) {k : Nat} {e : FnEntry}
    (he : l.fns[k]? = some e) (hone : e.fn.signature.outputTypes.length ≤ 1)
    (hname : OwnName e.fn.signature.name) :
    ExportMeans deps (MITInterfaces.new (l.interfaces deps)) e.fn := by
  have hmade := hof.fnsMade e (List.mem_of_getElem? he)
  have hexport : ⟨e.fn.signature.name, l.fnIdx k + 1⟩ ∈ (l.interfaces deps).exports :=
    List.mem_append_right _ (Maps.mem_mapIdx_iff.mpr ⟨k, e, he, rfl⟩)
  have himpl : ⟨l.fnIdx k + 1, l.fnIdx k⟩ ∈ (l.interfaces deps).implementations :=
    List.mem_append_left _ (Maps.mem_mapIdx_iff.mpr ⟨k, e, he, rfl⟩)
  have hbase : apiFuncs.length ≤ l.base.length := by
    rw [hof.base]
    exact hof.api
  have htype : (l.interfaces deps).types[l.fnIdx k]? = some e.itType := types_fn he
  refine ⟨⟨l.fnIdx k + 1, l.fnIdx k, e.arguments, e.outputTypes,
    exportsByType_of_mem hbase hexport, adapterTypesByCoreType_of_mem himpl, htype⟩,
    ⟨r, hmade.arguments, hmade.outputTypes⟩, ?_⟩
  intro m _ _ inst args hfits hargs
  have hcode : (MITInterfaces.new (l.interfaces deps)).adapterByType (l.fnIdx k) =
      some (e.code deps (Layout.fnCallee k)) := adapterByType_iff.mpr (.inl ⟨k, e, he, rfl, rfl⟩)
  rw [ModuleInstance.runAdapter, hcode]
  exact run_exportCode (servesApi_interfaces args) hmade hone hargs (serves_fn he hname args) hfits

theorem importMeans_import (hof : l.Of deps r functions imports) {j : Nat} {e : ImportEntry}
    (he : l.imports[j]? = some e) (hone : e.fn.signature.outputTypes.length ≤ 1) :
    ImportMeans deps (MITInterfaces.new (l.interfaces deps)) e.nameSpace e.fn := by
  have hmade := hof.importsMade e (List.mem_of_getElem? he)
  have himpl : ⟨l.importIdx j + 2, l.importIdx j + 1⟩ ∈ (l.interfaces deps).implementations :=
    List.mem_append_right _ (Maps.mem_mapIdx_iff.mpr ⟨j, e, he, rfl⟩)
  have hmem : ⟨e.nameSpace, ExternFnType.name e.fn, l.importIdx j + 2⟩ ∈
      adapterImports (MITInterfaces.new (l.interfaces deps)) := by
    rw [adapterImports_interfaces]
    exact Maps.mem_mapIdx_iff.mpr ⟨j, e, he, rfl⟩
  refine ⟨⟨l.importIdx j + 2, l.importIdx j + 1, e.arguments, e.outputTypes, hmem,
    adapterTypesByCoreType_of_mem himpl, importSignature_import he⟩,
    ⟨r, hmade.arguments, hmade.outputTypes⟩, ?_⟩
  intro m _ _ inst raws hcall hraws
  have hcode : (MITInterfaces.new (l.interfaces deps)).adapterByType (l.importIdx j + 1) =
      some (e.code deps (l.importCallee j)) := adapterByType_iff.mpr (.inr ⟨j, e, he, rfl, rfl⟩)
  rw [ModuleInstance.runAdapter, hcode]
  exact run_importCode (servesApi_interfaces raws) hmade hone hraws (serves_import he raws) hcall

end Sections

theorem generatedCalls_export {deps : Externals} {moduleAst : ModuleAST} {I : Interfaces}
    (h : generateInterfaces deps moduleAst = .ok I) {f : FnType} (hf : f ∈ moduleAst.functions)
    (hone : f.signature.outputTypes.length ≤ 1) (hname : OwnName f.signature.name) :
    ExportMeans deps (MITInterfaces.new I) f := by
  obtain ⟨r, l, -, -, hof, rfl⟩ := generateInterfaces_layout h
  rw [← hof.fns] at hf
  obtain ⟨e, he, rfl⟩ := List.mem_map.mp hf
  obtain ⟨k, hk⟩ := List.mem_iff_getElem?.mp he
  exact exportMeans_fn hof hk hone hname

theorem generatedCalls_import {deps : Externals} {moduleAst : ModuleAST} {I : Interfaces}
    (h : generateInterfaces deps moduleAst = .ok I) {mod : ExternModType}
    (hmod : mod ∈ moduleAst.externMods) (hhost : ¬ isHostImport mod.nameSpace) {g : ExternFnType}
    (hg : g ∈ mod.imports) (hone : g.signature.outputTypes.length ≤ 1) :
    ImportMeans deps (MITInterfaces.new I) mod.nameSpace g := by
  obtain ⟨r, l, -, -, hof, rfl⟩ := generateInterfaces_layout h
  have hpair := mem_nonHostImports.mpr ⟨mod, hmod, hhost, rfl, hg⟩
  rw [← hof.imports] at hpair
  obtain ⟨e, he, heq⟩ := List.mem_map.mp hpair
  obtain ⟨j, hj⟩ := List.mem_iff_getElem?.mp he
  obtain ⟨hname, rfl⟩ := Prod.mk.inj heq
  rw [← hname]
  exact importMeans_import hof hj hone

/-- **Meaning of generated calls.**  Calls through the adapters of a generated
section, for every function of the module and every import that is no host import. -/
theorem generatedCalls_meaning {deps : Externals} {moduleAst : ModuleAST} {I : Interfaces}
    (h : generateInterfaces deps moduleAst = .ok I) :
    (∀ f ∈ moduleAst.functions, f.signature.outputTypes.length ≤ 1 → OwnName f.signature.name →
      ExportMeans deps (MITInterfaces.new I) f) ∧
    ∀ mod ∈ moduleAst.externMods, ¬ isHostImport mod.nameSpace → ∀ g ∈ mod.imports,
      g.signature.outputTypes.length ≤ 1 →
      ImportMeans deps (MITInterfaces.new I) mod.nameSpace g :=
  ⟨fun _ hf hone hname => generatedCalls_export h hf hone hname,
    fun _ hmod hhost _ hg hone => generatedCalls_import h hmod hhost hg hone⟩

/-! ## A module over SQLite -/

/-- Memory that always holds one name, and rows of one size; numbers are kept. -/
def sqliteEffects : ItEffects Option where
  unary
    | .s32FromI32, .i32 v => some (.s32 v)
    | .i32FromS32, .s32 v => some (.i32 v)
    | .stringSize, .string v => some (.i32 (Int32.ofNat v.length))
    | _, _ => none
  liftPair
    | .stringLiftMemory, .i32 16, .i32 6 => some (.string "app.db")
    | .arrayLiftMemory _, .i32 64, .i32 1 => some (.array [.record [.s64 1, .byteArray [7]]])
    | _, _, _ => none
  lowerString
    | .i32 ptr, .string v => some (.i32 ptr, .i32 (Int32.ofNat v.length))
    | _, _ => none
  lowerArray _ _ := none
  allocate _ _ := some (.i32 32)
  releaseObjects := some ()
  getResultSize := some (.i32 1)
  getResultPtr := some (.i32 64)
  setResultSize _ := some ()
  setResultPtr _ := some ()
  trap := none

/-- The Wasm function of `query` finds its text where it was written. -/
def sqliteQuery : List IValue → Option (List IValue)
  | [.i32 32, .i32 6] => some []
  | _ => none

theorem sqliteQuery_yields (raws : List IValue) :
    Yields (fun outs => outs.length = 0) (sqliteQuery raws) := by
  refine yields_of_some fun outs h => ?_
  unfold sqliteQuery at h
  split at h <;> cases h
  rfl

/-- `sqlite3_open` opens one file. -/
def sqliteOpen : List IValue → Option (List IValue)
  | [.string "app.db", .s32 2] => some [.s32 7]
  | _ => none

theorem sqliteOpen_yields (args : List IValue) :
    Yields (fun values => values.length = 1) (sqliteOpen args) := by
  refine yields_of_some fun values h => ?_
  unfold sqliteOpen at h
  split at h <;> cases h
  rfl

def sqliteClient : ModuleInstance Option where
  runtime := sqliteEffects.runtime
  core _ := ⟨2, sqliteQuery⟩
  imported _ := sqliteOpen

/-- A query from outside, and a call of the module that opens the file. -/
theorem generatedCalls_meaning_sqlite : ∃ I, generateInterfaces crateExternals sqliteAst = .ok I ∧
    (∃ found : FoundExport (MITInterfaces.new I) "query",
      sqliteClient.runAdapter (MITInterfaces.new I) found.adapterType [.string "SELECT"] =
        some [.array [.record [.s64 1, .byteArray [7]]]]) ∧
    ∃ found : FoundImport (MITInterfaces.new I) "sqlite3" "sqlite3_open",
      sqliteClient.runAdapter (MITInterfaces.new I) found.adapterType [.i32 16, .i32 6, .i32 2] =
        some [.i32 7] := by
  have hgenerate : ∃ I, generateInterfaces crateExternals sqliteAst = .ok I :=
    ⟨_, Fallible.bind_eq_ok_iff.mpr ⟨_, rfl,
      Fallible.bind_eq_ok_iff.mpr ⟨(), validateRecords_flat rfl (by decide), rfl⟩⟩⟩
  obtain ⟨I, hI⟩ := hgenerate
  have hname : OwnName "query" := by
    rw [OwnName]
    decide
  obtain ⟨hexports, himports⟩ := generatedCalls_meaning hI
  obtain ⟨query, ⟨r, hqueryArgs, hqueryOuts⟩, hquery⟩ :=
    hexports ⟨⟨"query", [⟨"sql", .utf8String⟩], [.vector (.record "Row")]⟩⟩ (.head _) (by decide)
      hname
  obtain ⟨found, ⟨r', hopenArgs, hopenOuts⟩, hopen⟩ :=
    himports _ (.tail _ (.head _)) (by decide) _ (.head _) (by decide)
  refine ⟨I, hI, ⟨query, ?_⟩, found, ?_⟩
  · have harguments : query.arguments = [⟨"sql", .string⟩] := (Except.ok.inj hqueryArgs).symm
    have houtputs : ∃ id, query.outputTypes = [.array (.record id)] := by
      obtain ⟨t, outputs, ht, houtputs, htypes⟩ :=
        List.forall₂_cons_left_iff.mp (Fallible.mapM_eq_ok_iff.mp hqueryOuts)
      cases houtputs
      obtain ⟨_, hrow, rfl⟩ := ptypeToItypeChecked_vector_iff.mp ht
      obtain ⟨id, -, rfl⟩ := ptypeToItypeChecked_record_iff.mp hrow
      exact ⟨id, htypes⟩
    obtain ⟨id, houtputs⟩ := houtputs
    have hfits : CoreFits ⟨"query", [⟨"sql", .utf8String⟩], [.vector (.record "Row")]⟩
        (sqliteClient.core "query") := ⟨rfl, sqliteQuery_yields⟩
    rw [hquery sqliteClient _ hfits (by rw [harguments]; rfl), FoundExport.types, harguments,
      houtputs]
    rfl
  · have harguments : found.arguments = [⟨"file", .string⟩, ⟨"flags", .s32⟩] :=
      (Except.ok.inj hopenArgs).symm
    have houtputs : found.outputTypes = [.s32] := (Except.ok.inj hopenOuts).symm
    have hyields : ∀ args : List IValue, args.length = found.arguments.length →
        Yields (fun values => values.length = found.outputTypes.length)
          (sqliteClient.imported found.descriptor args) := by
      rw [houtputs]
      exact fun args _ => sqliteOpen_yields args
    rw [hopen sqliteClient _ hyields (by rw [FoundImport.types, harguments]; rfl),
      FoundImport.types, harguments, houtputs]
    rfl

end Marine.Loader
