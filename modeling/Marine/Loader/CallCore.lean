import Marine.Loader.GeneratedSection

/-!
# call-core

The generator writes `call-core` with a number it computes while it goes; the
runtime numbers the functions of the finished section anew.
`call_core_agrees`: in every generated section the two mean the same function.
-/

namespace Marine.Loader

open Marine.Generator

/-! ## Calls of the default export API -/

/-- All calls are calls of the default export API. -/
def ApiCallsOnly (code : List Instruction) : Prop :=
  ∀ n, .callCore n ∈ code → ∃ d ∈ apiFuncs, d.id = n

namespace ApiCallsOnly

theorem append {code code' : List Instruction} (h : ApiCallsOnly code) (h' : ApiCallsOnly code') :
    ApiCallsOnly (code ++ code') :=
  fun n hn => (List.mem_append.mp hn).elim (h n) (h' n)

theorem flatten {codes : List (List Instruction)} (h : ∀ code ∈ codes, ApiCallsOnly code) :
    ApiCallsOnly codes.flatten := by
  intro n hn
  obtain ⟨code, hcode, hn⟩ := List.mem_flatten.mp hn
  exact h code hcode n hn

variable {deps : Externals} {r : ITResolver}

theorem exportArgInstructions {index : Nat} {ty : ParsedType} {code : List Instruction}
    (h : Generator.exportArgInstructions deps r index ty = .ok code) : ApiCallsOnly code := by
  intro n hn
  cases ty with
  | vector valueType =>
    obtain ⟨valueType, -, h⟩ := Fallible.bind_eq_ok_iff.mp h
    cases h
    simp at hn
  | record name =>
    obtain ⟨recordTypeId, -, h⟩ := Fallible.bind_eq_ok_iff.mp h
    cases h
    simp at hn
  | _ => cases h; simp_all [apiFuncs, allocateFunc]

theorem exportArgs {index : Nat} {args : List FnArgument} {code : List Instruction}
    (h : Generator.exportArgs deps r index args = .ok code) : ApiCallsOnly code := by
  induction args generalizing index code with
  | nil => cases h; nofun
  | cons arg args ih =>
    obtain ⟨instructions, harg, h⟩ := Fallible.bind_eq_ok_iff.mp h
    obtain ⟨rest, hrest, h⟩ := Fallible.bind_eq_ok_iff.mp h
    cases h
    exact (exportArgInstructions harg).append (ih hrest)

theorem exportOutputInstructions {ty : ParsedType} {code : List Instruction}
    (h : Generator.exportOutputInstructions r ty = .ok code) : ApiCallsOnly code := by
  have hlift (lift : Instruction) (hlift : ∀ n, lift ≠ .callCore n) : ApiCallsOnly
      [.callCore getResultPtrFunc.id, .callCore getResultSizeFunc.id, lift] := by
    intro n hn
    have hne := (hlift n).symm
    simp_all [apiFuncs, getResultPtrFunc, getResultSizeFunc]
    omega
  intro n hn
  cases ty with
  | utf8Str | utf8String => cases h; exact hlift .stringLiftMemory (by intro n h; cases h) n hn
  | vector valueType =>
    obtain ⟨valueType, -, h⟩ := Fallible.bind_eq_ok_iff.mp h
    split at h
    · cases h; exact hlift .byteArrayLiftMemory (by intro n h; cases h) n hn
    · cases h; exact hlift (.arrayLiftMemory valueType) (by intro n h; cases h) n hn
  | record name =>
    obtain ⟨recordTypeId, -, h⟩ := Fallible.bind_eq_ok_iff.mp h
    cases h
    simp_all [apiFuncs, getResultPtrFunc]
  | _ => cases h; simp at hn

theorem exportOutputs {types : List ParsedType} {code : List Instruction}
    (h : Generator.exportOutputs r types = .ok code) : ApiCallsOnly code := by
  obtain ⟨codes, hcodes, h⟩ := Fallible.bind_eq_ok_iff.mp h
  cases h
  refine flatten fun code hcode => ?_
  obtain ⟨ty, -, hty⟩ := Fallible.exists_of_mem_mapM hcodes hcode
  exact exportOutputInstructions hty

theorem importArgInstructions {index shift : Nat} {ty : ParsedType} {code : List Instruction}
    (h : Generator.importArgInstructions r index ty = .ok (code, shift)) : ApiCallsOnly code := by
  intro n hn
  cases ty with
  | vector valueType =>
    obtain ⟨valueType, -, h⟩ := Fallible.bind_eq_ok_iff.mp h
    split at h
    · cases h; simp at hn
    · cases h; simp at hn
  | record name =>
    obtain ⟨recordTypeId, -, h⟩ := Fallible.bind_eq_ok_iff.mp h
    cases h
    simp at hn
  | _ => cases h; simp at hn

theorem importArgs {index : Nat} {args : List FnArgument} {code : List Instruction}
    (h : Generator.importArgs r index args = .ok code) : ApiCallsOnly code := by
  induction args generalizing index code with
  | nil => cases h; nofun
  | cons arg args ih =>
    obtain ⟨⟨instructions, shift⟩, harg, h⟩ := Fallible.bind_eq_ok_iff.mp h
    obtain ⟨rest, hrest, h⟩ := Fallible.bind_eq_ok_iff.mp h
    cases h
    exact (importArgInstructions harg).append (ih hrest)

theorem importOutputInstructions {ty : ParsedType} {code : List Instruction}
    (h : Generator.importOutputInstructions deps r ty = .ok code) : ApiCallsOnly code := by
  intro n hn
  cases ty with
  | utf8Str | utf8String =>
    cases h
    simp_all [apiFuncs, allocateFunc, setResultSizeFunc, setResultPtrFunc]
    omega
  | vector valueType =>
    obtain ⟨valueType, -, h⟩ := Fallible.bind_eq_ok_iff.mp h
    cases h
    simp_all [apiFuncs, setResultSizeFunc, setResultPtrFunc]
    omega
  | record name =>
    obtain ⟨recordTypeId, -, h⟩ := Fallible.bind_eq_ok_iff.mp h
    cases h
    simp_all [apiFuncs, setResultPtrFunc]
  | _ => cases h; simp at hn

theorem importOutputs {types : List ParsedType} {code : List Instruction}
    (h : Generator.importOutputs deps r types = .ok code) : ApiCallsOnly code := by
  obtain ⟨codes, hcodes, h⟩ := Fallible.bind_eq_ok_iff.mp h
  cases h
  refine flatten fun code hcode => ?_
  obtain ⟨ty, -, hty⟩ := Fallible.exists_of_mem_mapM hcodes hcode
  exact importOutputInstructions hty

theorem releaseCall (deps : Externals) (types : List ParsedType) :
    ApiCallsOnly (Generator.releaseCall deps types) := by
  intro n hn
  unfold Generator.releaseCall at hn
  split at hn <;> simp_all [apiFuncs, releaseObjects]

end ApiCallsOnly

/-! ## What the calls of an adapter reach -/

/-- `call-core n` means `target`: it has that number, and an instance holds its
function under the number. -/
def Reaches (mit : MITInterfaces) (n : Nat) (target : CallTarget) : Prop :=
  (numbering mit)[n]? = some target ∧
    ∀ wasmInstance moduleName modules it,
      ITInstance.new wasmInstance moduleName mit modules = .ok it →
      ∃ func, targetFunc wasmInstance moduleName modules mit target = .ok func ∧
        it.funcs.lookup n = some func

/-- Every call reaches the function of the default export API with its id. -/
def ReachesApi (mit : MITInterfaces) (code : List Instruction) : Prop :=
  ∀ n, .callCore n ∈ code → ∃ d ∈ apiFuncs, d.id = n ∧ Reaches mit n (.export d.name)

/-- The adapter of an exported function calls that function and the API. -/
def ExportAdapter (deps : Externals) (r : ITResolver) (mit : MITInterfaces) (f : FnType)
    (adapterType : Nat) : Prop :=
  ∃ coreType callee argCode outCode,
    mit.exportsByType coreType = some [f.signature.name] ∧
    mit.adapterTypesByCoreType coreType = some [adapterType] ∧
    exportArgs deps r 0 f.signature.arguments = .ok argCode ∧
    exportOutputs r f.signature.outputTypes = .ok outCode ∧
    mit.adapterByType adapterType = some (argCode ++ [.callCore callee] ++ outCode ++
      releaseCall deps f.signature.outputTypes) ∧
    Reaches mit callee (.export f.signature.name) ∧ ReachesApi mit argCode ∧
    ReachesApi mit outCode ∧ ReachesApi mit (releaseCall deps f.signature.outputTypes)

/-- The adapter of an imported function calls its import and the API, and the
IT type of the function lies two places before the type of the import. -/
def ImportAdapter (deps : Externals) (r : ITResolver) (mit : MITInterfaces) (nameSpace : String)
    (g : ExternFnType) (adapterType : Nat) : Prop :=
  ∃ coreType callee argCode outCode arguments outputTypes,
    mit.adapterTypesByCoreType coreType = some [adapterType] ∧
    importArgs r 0 g.signature.arguments = .ok argCode ∧
    importOutputs deps r g.signature.outputTypes = .ok outCode ∧
    mit.adapterByType adapterType = some (argCode ++
      releaseCall deps (g.signature.arguments.map FnArgument.ty) ++ [.callCore callee] ++ outCode) ∧
    Reaches mit callee (.import ⟨nameSpace, ExternFnType.name g, coreType⟩) ∧
    generateItArgs r g.signature = .ok arguments ∧
    generateItOutputType r g.signature = .ok outputTypes ∧
    mit.typeByIdx (wrappingSub coreType 2) = some (.function arguments outputTypes) ∧
    ReachesApi mit argCode ∧
    ReachesApi mit (releaseCall deps (g.signature.arguments.map FnArgument.ty)) ∧
    ReachesApi mit outCode

theorem reaches_of_numbering {mit : MITInterfaces} {n : Nat} {target : CallTarget}
    (h : (numbering mit)[n]? = some target) : Reaches mit n target := by
  refine ⟨h, fun wasmInstance moduleName modules it hnew => ?_⟩
  obtain ⟨funcs, hfuncs, hlookup⟩ := funcs_eq hnew
  obtain ⟨func, hfunc, htarget⟩ := Fallible.getElem?_mapM hfuncs h
  exact ⟨func, htarget, (hlookup n).trans hfunc⟩

section Adapters

variable {deps : Externals} {r₀ : ITResolver} {functions : List FnType}
  {imports : List (String × ExternFnType)} {l : Layout}

theorem reachesApi_of_apiCallsOnly {code : List Instruction} (h : ApiCallsOnly code) :
    ReachesApi (MITInterfaces.new (l.interfaces deps)) code := by
  intro n hn
  obtain ⟨d, hd, rfl⟩ := h n hn
  refine ⟨d, hd, rfl, reaches_of_numbering ?_⟩
  have hapi : ∀ d ∈ apiFuncs, apiFuncs[d.id]? = some d := by decide
  have hlt : d.id < apiFuncs.length := (List.getElem?_eq_some_iff.mp (hapi d hd)).1
  rw [numbering_interfaces, List.append_assoc,
    List.getElem?_append_left (by rwa [List.length_map]), List.getElem?_map, hapi d hd]
  rfl

theorem numbering_fn {k : Nat} {e : FnEntry} (he : l.fns[k]? = some e) :
    (numbering (MITInterfaces.new (l.interfaces deps)))[Layout.fnCallee k]? =
      some (.export e.fn.signature.name) := by
  have hk : k < l.fns.length := (List.getElem?_eq_some_iff.mp he).1
  have hlen : Layout.fnCallee k - apiFuncs.length = k := by
    simp only [Layout.fnCallee]
    omega
  rw [numbering_interfaces, List.append_assoc, List.getElem?_append_right (by
    simp only [Layout.fnCallee, List.length_map]
    omega), List.length_map, hlen, List.getElem?_append_left (by rwa [List.length_map]),
    List.getElem?_map, he]
  rfl

theorem numbering_import {j : Nat} {e : ImportEntry} (he : l.imports[j]? = some e) :
    (numbering (MITInterfaces.new (l.interfaces deps)))[l.importCallee j]? =
      some (.import ⟨e.nameSpace, ExternFnType.name e.fn, l.importIdx j + 2⟩) := by
  rw [numbering_interfaces, List.getElem?_append_right (by
    simp only [Layout.importCallee, List.length_append, List.length_map]
    omega)]
  simp [Layout.importCallee, he]

theorem exportAdapter_fn (hof : l.Of deps r₀ functions imports) {k : Nat} {e : FnEntry}
    (he : l.fns[k]? = some e) :
    ExportAdapter deps r₀ (MITInterfaces.new (l.interfaces deps)) e.fn (l.fnIdx k) := by
  have hmade := hof.fnsMade e (List.mem_of_getElem? he)
  have hexport : ⟨e.fn.signature.name, l.fnIdx k + 1⟩ ∈ (l.interfaces deps).exports :=
    List.mem_append_right _ (Maps.mem_mapIdx_iff.mpr ⟨k, e, he, rfl⟩)
  have himpl : ⟨l.fnIdx k + 1, l.fnIdx k⟩ ∈ (l.interfaces deps).implementations :=
    List.mem_append_left _ (Maps.mem_mapIdx_iff.mpr ⟨k, e, he, rfl⟩)
  have hapi : apiFuncs.length ≤ l.base.length := by
    rw [hof.base]
    exact hof.api
  exact ⟨l.fnIdx k + 1, Layout.fnCallee k, e.argCode, e.outCode,
    exportsByType_of_mem hapi hexport, adapterTypesByCoreType_of_mem himpl, hmade.argCode,
    hmade.outCode, adapterByType_iff.mpr (.inl ⟨k, e, he, rfl, rfl⟩),
    reaches_of_numbering (numbering_fn he),
    reachesApi_of_apiCallsOnly (ApiCallsOnly.exportArgs hmade.argCode),
    reachesApi_of_apiCallsOnly (ApiCallsOnly.exportOutputs hmade.outCode),
    reachesApi_of_apiCallsOnly (ApiCallsOnly.releaseCall _ _)⟩

theorem importAdapter_import (hof : l.Of deps r₀ functions imports) {j : Nat} {e : ImportEntry}
    (he : l.imports[j]? = some e) :
    ImportAdapter deps r₀ (MITInterfaces.new (l.interfaces deps)) e.nameSpace e.fn
      (l.importIdx j + 1) := by
  have hmade := hof.importsMade e (List.mem_of_getElem? he)
  have himpl : ⟨l.importIdx j + 2, l.importIdx j + 1⟩ ∈ (l.interfaces deps).implementations :=
    List.mem_append_right _ (Maps.mem_mapIdx_iff.mpr ⟨j, e, he, rfl⟩)
  have htype : (l.interfaces deps).types[l.importIdx j]? = some e.itType := types_import he
  exact ⟨l.importIdx j + 2, l.importCallee j, e.argCode, e.outCode, e.arguments, e.outputTypes,
    adapterTypesByCoreType_of_mem himpl, hmade.argCode, hmade.outCode,
    adapterByType_iff.mpr (.inr ⟨j, e, he, rfl, rfl⟩), reaches_of_numbering (numbering_import he),
    hmade.arguments, hmade.outputTypes, htype,
    reachesApi_of_apiCallsOnly (ApiCallsOnly.importArgs hmade.argCode),
    reachesApi_of_apiCallsOnly (ApiCallsOnly.releaseCall _ _),
    reachesApi_of_apiCallsOnly (ApiCallsOnly.importOutputs hmade.outCode)⟩

/-- No adapter has a number out of range. -/
theorem ExportAdapter.calls {mit : MITInterfaces} {f : FnType} {t : Nat}
    (h : ExportAdapter deps r₀ mit f t) {code : List Instruction}
    (hcode : mit.adapterByType t = some code) {n : Nat} (hn : .callCore n ∈ code) :
    ∃ target, Reaches mit n target := by
  obtain ⟨core, callee, argCode, outCode, -, -, -, -, hadapter, hown, harg, hout, hrelease⟩ := h
  rw [hadapter, Option.some.injEq] at hcode
  subst hcode
  simp only [List.mem_append, List.mem_singleton, Instruction.callCore.injEq] at hn
  rcases hn with ((hn | rfl) | hn) | hn
  · obtain ⟨d, -, -, hd⟩ := harg n hn
    exact ⟨_, hd⟩
  · exact ⟨_, hown⟩
  · obtain ⟨d, -, -, hd⟩ := hout n hn
    exact ⟨_, hd⟩
  · obtain ⟨d, -, -, hd⟩ := hrelease n hn
    exact ⟨_, hd⟩

theorem ImportAdapter.calls {mit : MITInterfaces} {nameSpace : String} {g : ExternFnType} {t : Nat}
    (h : ImportAdapter deps r₀ mit nameSpace g t) {code : List Instruction}
    (hcode : mit.adapterByType t = some code) {n : Nat} (hn : .callCore n ∈ code) :
    ∃ target, Reaches mit n target := by
  obtain ⟨core, callee, argCode, outCode, arguments, outputTypes, -, -, -, hadapter, hown, -, -, -,
    harg, hrelease, hout⟩ := h
  rw [hadapter, Option.some.injEq] at hcode
  subst hcode
  simp only [List.mem_append, List.mem_singleton, Instruction.callCore.injEq] at hn
  rcases hn with ((hn | hn) | rfl) | hn
  · obtain ⟨d, -, -, hd⟩ := harg n hn
    exact ⟨_, hd⟩
  · obtain ⟨d, -, -, hd⟩ := hrelease n hn
    exact ⟨_, hd⟩
  · exact ⟨_, hown⟩
  · obtain ⟨d, -, -, hd⟩ := hout n hn
    exact ⟨_, hd⟩

end Adapters

/-- **call-core means the same to the generator and to the runtime.**  Every
exported and every imported function has its adapter, there are no others, and
every call in an adapter reaches what the generator meant. -/
theorem call_core_agrees {deps : Externals} {moduleAst : ModuleAST} {I : Interfaces}
    (h : generateInterfaces deps moduleAst = .ok I) :
    ∃ r, moduleAst.records.foldlM (generateRecord deps) apiResolver = .ok r ∧
      (∀ f ∈ moduleAst.functions, ∃ t, ExportAdapter deps r (MITInterfaces.new I) f t) ∧
      (∀ m ∈ moduleAst.externMods, ¬ isHostImport m.nameSpace → ∀ g ∈ m.imports,
        ∃ t, ImportAdapter deps r (MITInterfaces.new I) m.nameSpace g t) ∧
      ∀ t code, (MITInterfaces.new I).adapterByType t = some code →
        ((∃ f ∈ moduleAst.functions, ExportAdapter deps r (MITInterfaces.new I) f t) ∨
          ∃ m ∈ moduleAst.externMods, ¬ isHostImport m.nameSpace ∧ ∃ g ∈ m.imports,
            ImportAdapter deps r (MITInterfaces.new I) m.nameSpace g t) ∧
        ∀ n, .callCore n ∈ code → ∃ target, Reaches (MITInterfaces.new I) n target := by
  obtain ⟨r, l, hrecords, -, hof, rfl⟩ := generateInterfaces_layout h
  refine ⟨r, hrecords, fun f hf => ?_, fun m hm hhost g hg => ?_, fun t code hcode => ?_⟩
  · rw [← hof.fns] at hf
    obtain ⟨e, he, rfl⟩ := List.mem_map.mp hf
    obtain ⟨k, hk⟩ := List.mem_iff_getElem?.mp he
    exact ⟨_, exportAdapter_fn hof hk⟩
  · have hpair := mem_nonHostImports.mpr ⟨m, hm, hhost, rfl, hg⟩
    rw [← hof.imports] at hpair
    obtain ⟨e, he, heq⟩ := List.mem_map.mp hpair
    obtain ⟨j, hj⟩ := List.mem_iff_getElem?.mp he
    obtain ⟨hname, rfl⟩ := Prod.mk.inj heq
    rw [← hname]
    exact ⟨_, importAdapter_import hof hj⟩
  · rcases adapterByType_iff.mp hcode with ⟨k, e, he, rfl, -⟩ | ⟨j, e, he, rfl, -⟩
    · have hadapter := exportAdapter_fn hof he
      refine ⟨.inl ⟨e.fn, ?_, hadapter⟩, fun n hn => hadapter.calls hcode hn⟩
      rw [← hof.fns]
      exact List.mem_map_of_mem (List.mem_of_getElem? he)
    · have hadapter := importAdapter_import hof he
      refine ⟨.inr ?_, fun n hn => hadapter.calls hcode hn⟩
      have hpair : (e.nameSpace, e.fn) ∈ nonHostImports moduleAst.externMods := by
        rw [← hof.imports]
        exact List.mem_map_of_mem (List.mem_of_getElem? he)
      obtain ⟨m, hm, hhost, hname, hg⟩ := mem_nonHostImports.mp hpair
      rw [← hname] at hadapter
      exact ⟨m, hm, hhost, e.fn, hg, hadapter⟩

/-- One record, two exported functions, a host module and a module with a link name. -/
def sqliteAst : ModuleAST where
  records := [⟨"Row", .named [⟨some "id", .i64⟩, ⟨some "blob", .vector .u8⟩]⟩]
  functions := [⟨"query", [⟨"sql", .utf8String⟩], [.vector (.record "Row")]⟩,
    ⟨"count", [⟨"row", .record "Row"⟩], [.u32]⟩].map .mk
  externMods := [⟨"host", [⟨none, ⟨"log_utf8_string", [⟨"text", .utf8Str⟩], []⟩⟩]⟩,
    ⟨"sqlite3", [⟨some "sqlite3_open", ⟨"open", [⟨"file", .utf8Str⟩, ⟨"flags", .i32⟩], [.i32]⟩⟩,
      ⟨none, ⟨"close", [], []⟩⟩]⟩]

theorem call_core_agrees_sqlite : ∃ I, generateInterfaces crateExternals sqliteAst = .ok I ∧
    ∃ r t, ImportAdapter crateExternals r (MITInterfaces.new I) "sqlite3"
      ⟨some "sqlite3_open", ⟨"open", [⟨"file", .utf8Str⟩, ⟨"flags", .i32⟩], [.i32]⟩⟩ t := by
  have hgenerate : ∃ I, generateInterfaces crateExternals sqliteAst = .ok I :=
    ⟨_, Fallible.bind_eq_ok_iff.mpr ⟨_, rfl,
      Fallible.bind_eq_ok_iff.mpr ⟨(), validateRecords_flat rfl (by decide), rfl⟩⟩⟩
  obtain ⟨I, hI⟩ := hgenerate
  obtain ⟨r, -, -, himports, -⟩ := call_core_agrees hI
  obtain ⟨t, ht⟩ := himports _ (.tail _ (.head _)) (by decide) _ (.head _)
  exact ⟨I, hI, r, t, ht⟩

end Marine.Loader
