import Marine.Generator.Interfaces
import Marine.Lib.Fallible
import Marine.Lib.Slices

/-!
# The layout of a generated section

The generator computes every index from the lengths its lists have at that
moment.  `Layout.interfaces` writes the finished section down directly, with
every index as a function of the position of the function it is for, and
`generateInterfaces_layout` shows that the generator makes exactly that.  The
results about generated sections start from here.
-/

namespace Marine.Generator

/-- What the generator makes of one exported function. -/
structure FnEntry where
  fn : FnType
  arguments : List FunctionArg
  outputTypes : List IType
  argCode : List Instruction
  outCode : List Instruction

/-- What the generator makes of one function of another module. -/
structure ImportEntry where
  nameSpace : String
  fn : ExternFnType
  arguments : List FunctionArg
  outputTypes : List IType
  argCode : List Instruction
  outCode : List Instruction

/-- The entry is made with the record names of `r`. -/
structure FnEntry.MadeBy (deps : Externals) (r : ITResolver) (e : FnEntry) : Prop where
  arguments : generateItArgs r e.fn.signature = .ok e.arguments
  outputTypes : generateItOutputType r e.fn.signature = .ok e.outputTypes
  argCode : exportArgs deps r 0 e.fn.signature.arguments = .ok e.argCode
  outCode : exportOutputs r e.fn.signature.outputTypes = .ok e.outCode

structure ImportEntry.MadeBy (deps : Externals) (r : ITResolver) (e : ImportEntry) : Prop where
  arguments : generateItArgs r e.fn.signature = .ok e.arguments
  outputTypes : generateItOutputType r e.fn.signature = .ok e.outputTypes
  argCode : importArgs r 0 e.fn.signature.arguments = .ok e.argCode
  outCode : importOutputs deps r e.fn.signature.outputTypes = .ok e.outCode

/-- The function determines its entry. -/
theorem FnEntry.MadeBy.unique {deps : Externals} {r : ITResolver} {e e' : FnEntry}
    (he : e.MadeBy deps r) (he' : e'.MadeBy deps r) (h : e.fn = e'.fn) : e = e' := by
  cases e with
  | mk fn arguments outputTypes argCode outCode =>
    cases h
    cases he.arguments.symm.trans he'.arguments
    cases he.outputTypes.symm.trans he'.outputTypes
    cases he.argCode.symm.trans he'.argCode
    cases he.outCode.symm.trans he'.outCode
    rfl

theorem ImportEntry.MadeBy.unique {deps : Externals} {r : ITResolver} {e e' : ImportEntry}
    (he : e.MadeBy deps r) (he' : e'.MadeBy deps r)
    (h : (e.nameSpace, e.fn) = (e'.nameSpace, e'.fn)) : e = e' := by
  cases e with
  | mk nameSpace fn arguments outputTypes argCode outCode =>
    obtain ⟨rfl, rfl⟩ := Prod.mk.inj h
    cases he.arguments.symm.trans he'.arguments
    cases he.outputTypes.symm.trans he'.outputTypes
    cases he.argCode.symm.trans he'.argCode
    cases he.outCode.symm.trans he'.outCode
    rfl

def FnEntry.itType (e : FnEntry) : AstType := .function e.arguments e.outputTypes

def FnEntry.code (deps : Externals) (e : FnEntry) (callee : Nat) : List Instruction :=
  e.argCode ++ [.callCore callee] ++ e.outCode ++ releaseCall deps e.fn.signature.outputTypes

def ImportEntry.itType (e : ImportEntry) : AstType := .function e.arguments e.outputTypes

def ImportEntry.rawType (e : ImportEntry) : AstType :=
  .function (generateRawArgs e.fn.signature) (generateRawOutputType e.fn.signature)

def ImportEntry.release (deps : Externals) (e : ImportEntry) : List Instruction :=
  releaseCall deps (e.fn.signature.arguments.map FnArgument.ty)

def ImportEntry.code (deps : Externals) (e : ImportEntry) (callee : Nat) : List Instruction :=
  e.argCode ++ e.release deps ++ [.callCore callee] ++ e.outCode

/-- The section with one more exported function. -/
def FnEntry.addTo (deps : Externals) (e : FnEntry) (i : Interfaces) : Interfaces where
  types := i.types ++ [e.itType, e.itType]
  imports := i.imports
  adapters := i.adapters ++ [⟨i.types.length, e.code deps i.exports.length⟩]
  exports := i.exports ++ [⟨e.fn.signature.name, i.types.length + 1⟩]
  implementations := i.implementations ++ [⟨i.types.length + 1, i.types.length⟩]

/-- The section with one more imported function. -/
def ImportEntry.addTo (deps : Externals) (e : ImportEntry) (i : Interfaces) : Interfaces where
  types := i.types ++ [e.itType, e.rawType, e.rawType]
  imports := i.imports ++ [⟨e.nameSpace, ExternFnType.name e.fn, i.types.length⟩,
    ⟨e.nameSpace, ExternFnType.name e.fn, i.types.length + 2⟩]
  adapters := i.adapters ++
    [⟨i.types.length + 1, e.code deps (i.exports.length + i.imports.length / 2)⟩]
  exports := i.exports
  implementations := i.implementations ++ [⟨i.types.length + 2, i.types.length + 1⟩]

/-- `base` are the types of the default export API and the records. -/
structure Layout where
  base : List AstType
  fns : List FnEntry
  imports : List ImportEntry

namespace Layout

/-- Type and adapter of exported function `k`; its export has the type behind it. -/
def fnIdx (l : Layout) (k : Nat) : Nat := l.base.length + 2 * k

/-- IT type of imported function `j`; adapter and raw import have the two types behind it. -/
def importIdx (l : Layout) (j : Nat) : Nat := l.base.length + 2 * l.fns.length + 3 * j

/-- The number under which `call-core` reaches exported function `k`. -/
def fnCallee (k : Nat) : Nat := apiFuncs.length + k

/-- The number under which `call-core` reaches imported function `j`. -/
def importCallee (l : Layout) (j : Nat) : Nat := apiFuncs.length + l.fns.length + j

def importPair (l : Layout) (j : Nat) (e : ImportEntry) : List Import :=
  [⟨e.nameSpace, ExternFnType.name e.fn, l.importIdx j⟩,
    ⟨e.nameSpace, ExternFnType.name e.fn, l.importIdx j + 2⟩]

def interfaces (deps : Externals) (l : Layout) : Interfaces where
  types := l.base ++ l.fns.flatMap (fun e => [e.itType, e.itType]) ++
    l.imports.flatMap fun e => [e.itType, e.rawType, e.rawType]
  imports := l.imports.zipIdx.flatMap fun p => l.importPair p.2 p.1
  adapters := (l.fns.mapIdx fun k e => ⟨l.fnIdx k, e.code deps (fnCallee k)⟩) ++
    l.imports.mapIdx fun j e => ⟨l.importIdx j + 1, e.code deps (l.importCallee j)⟩
  exports := apiFuncs.map (fun d => ⟨d.name, d.id⟩) ++
    l.fns.mapIdx fun k e => ⟨e.fn.signature.name, l.fnIdx k + 1⟩
  implementations := (l.fns.mapIdx fun k _ => ⟨l.fnIdx k + 1, l.fnIdx k⟩) ++
    l.imports.mapIdx fun j _ => ⟨l.importIdx j + 2, l.importIdx j + 1⟩

@[simp] theorem length_types (deps : Externals) (l : Layout) :
    (l.interfaces deps).types.length = l.importIdx l.imports.length := by
  have hfns := Blocks.length_flatMap (f := fun e : FnEntry => [e.itType, e.itType]) (n := 2)
    (fun _ => rfl) l.fns
  have himports := Blocks.length_flatMap
    (f := fun e : ImportEntry => [e.itType, e.rawType, e.rawType]) (n := 3) (fun _ => rfl) l.imports
  simp only [interfaces, List.length_append, hfns, himports, importIdx]

@[simp] theorem length_imports (deps : Externals) (l : Layout) :
    (l.interfaces deps).imports.length = 2 * l.imports.length := by
  have hpairs := Blocks.length_flatMap (f := fun p : ImportEntry × Nat => l.importPair p.2 p.1)
    (n := 2) (fun _ => rfl) l.imports.zipIdx
  rwa [List.length_zipIdx] at hpairs

@[simp] theorem length_exports (deps : Externals) (l : Layout) :
    (l.interfaces deps).exports.length = apiFuncs.length + l.fns.length := by
  simp only [interfaces, List.length_append, List.length_map, List.length_mapIdx]

def addFn (l : Layout) (e : FnEntry) : Layout := { l with fns := l.fns ++ [e] }

def addImport (l : Layout) (e : ImportEntry) : Layout := { l with imports := l.imports ++ [e] }

/-- Exported functions come before the imports. -/
@[simp] theorem interfaces_addFn (deps : Externals) {l : Layout} (h : l.imports = [])
    (e : FnEntry) : (l.addFn e).interfaces deps = e.addTo deps (l.interfaces deps) := by
  have hlen : (l.interfaces deps).types.length = l.fnIdx l.fns.length := by
    rw [length_types, importIdx, fnIdx, h]
    rfl
  rw [FnEntry.addTo, hlen, length_exports]
  simp [interfaces, addFn, h, List.mapIdx_append, fnIdx, fnCallee]

@[simp] theorem interfaces_addImport (deps : Externals) (l : Layout) (e : ImportEntry) :
    (l.addImport e).interfaces deps = e.addTo deps (l.interfaces deps) := by
  rw [ImportEntry.addTo, length_types, length_exports, length_imports]
  simp [interfaces, addImport, List.mapIdx_append, List.zipIdx_append, fnIdx, importIdx,
    importPair, importCallee]

end Layout

/-- The types of the arguments, in order. -/
theorem generateItArgs_types {r : ITResolver} {s : FnSignature} {arguments : List FunctionArg}
    (h : generateItArgs r s = .ok arguments) :
    List.Forall₂ (fun arg t => ptypeToItypeChecked r arg.ty = .ok t) s.arguments
      (arguments.map FunctionArg.ty) := by
  rw [List.forall₂_map_right_iff]
  refine (Fallible.mapM_eq_ok_iff.mp h).imp fun arg a harg => ?_
  obtain ⟨ty, hty, ha⟩ := Fallible.bind_eq_ok_iff.mp harg
  cases ha
  exact hty

/-! ## Only the names of the records matter -/

section Names

variable {r r' : ITResolver} (h : r.types = r'.types)
include h

theorem getRecordTypeId_congr (name : String) :
    r.getRecordTypeId name = r'.getRecordTypeId name := by
  simp only [ITResolver.getRecordTypeId, h]

theorem ptypeToItypeChecked_congr (ty : ParsedType) :
    ptypeToItypeChecked r ty = ptypeToItypeChecked r' ty := by
  induction ty with
  | vector elem ih => simp only [ptypeToItypeChecked, ih]
  | record name => simp only [ptypeToItypeChecked, getRecordTypeId_congr h]
  | _ => rfl

theorem generateItArgs_congr (s : FnSignature) : generateItArgs r s = generateItArgs r' s := by
  simp only [generateItArgs, ptypeToItypeChecked_congr h]

theorem generateItOutputType_congr (s : FnSignature) :
    generateItOutputType r s = generateItOutputType r' s := by
  simp only [generateItOutputType, funext (ptypeToItypeChecked_congr h)]

theorem exportArgs_congr (deps : Externals) (index : Nat) (args : List FnArgument) :
    exportArgs deps r index args = exportArgs deps r' index args := by
  have harg (index : Nat) (ty : ParsedType) :
      exportArgInstructions deps r index ty = exportArgInstructions deps r' index ty := by
    cases ty <;>
      simp only [exportArgInstructions, ptypeToItypeChecked_congr h, getRecordTypeId_congr h]
  induction args generalizing index with
  | nil => rfl
  | cons arg args ih => simp only [exportArgs, harg, ih]

theorem exportOutputs_congr (types : List ParsedType) :
    exportOutputs r types = exportOutputs r' types := by
  have hout (ty : ParsedType) : exportOutputInstructions r ty = exportOutputInstructions r' ty := by
    cases ty <;>
      simp only [exportOutputInstructions, ptypeToItypeChecked_congr h, getRecordTypeId_congr h]
  simp only [exportOutputs, funext hout]

theorem importArgs_congr (index : Nat) (args : List FnArgument) :
    importArgs r index args = importArgs r' index args := by
  have harg (index : Nat) (ty : ParsedType) :
      importArgInstructions r index ty = importArgInstructions r' index ty := by
    cases ty <;>
      simp only [importArgInstructions, ptypeToItypeChecked_congr h, getRecordTypeId_congr h]
  induction args generalizing index with
  | nil => rfl
  | cons arg args ih => simp only [importArgs, harg, ih]

theorem importOutputs_congr (deps : Externals) (types : List ParsedType) :
    importOutputs deps r types = importOutputs deps r' types := by
  have hout (ty : ParsedType) :
      importOutputInstructions deps r ty = importOutputInstructions deps r' ty := by
    cases ty <;>
      simp only [importOutputInstructions, ptypeToItypeChecked_congr h, getRecordTypeId_congr h]
  simp only [importOutputs, funext hout]

theorem FnEntry.MadeBy.congr {deps : Externals} {e : FnEntry} (he : e.MadeBy deps r) :
    e.MadeBy deps r' where
  arguments := (generateItArgs_congr h _).symm.trans he.arguments
  outputTypes := (generateItOutputType_congr h _).symm.trans he.outputTypes
  argCode := (exportArgs_congr h ..).symm.trans he.argCode
  outCode := (exportOutputs_congr h _).symm.trans he.outCode

theorem ImportEntry.MadeBy.congr {deps : Externals} {e : ImportEntry} (he : e.MadeBy deps r) :
    e.MadeBy deps r' where
  arguments := (generateItArgs_congr h _).symm.trans he.arguments
  outputTypes := (generateItOutputType_congr h _).symm.trans he.outputTypes
  argCode := (importArgs_congr h ..).symm.trans he.argCode
  outCode := (importOutputs_congr h ..).symm.trans he.outCode

end Names

/-! ## Steps of the generator -/

section Steps

variable {deps : Externals} {r r' : ITResolver}

/-- **Spec of `FnType::generate_it`.** -/
theorem generateIt_spec {f : FnType} (h : FnType.generateIt deps r f = .ok r') :
    ∃ e : FnEntry, e.fn = f ∧ e.MadeBy deps r ∧ r'.types = r.types ∧
      r'.interfaces = e.addTo deps r.interfaces := by
  obtain ⟨r₁, htypes, h⟩ := Fallible.bind_eq_ok_iff.mp h
  obtain ⟨arguments, hargs, htypes⟩ := Fallible.bind_eq_ok_iff.mp htypes
  obtain ⟨outputTypes, houts, htypes⟩ := Fallible.bind_eq_ok_iff.mp htypes
  have hr₁ := Except.ok.inj htypes
  have hnames : r.types = r₁.types := by rw [← hr₁]; rfl
  obtain ⟨argCode, hargCode, h⟩ := Fallible.bind_eq_ok_iff.mp h
  obtain ⟨outCode, houtCode, h⟩ := Fallible.bind_eq_ok_iff.mp h
  cases h
  refine ⟨⟨f, arguments, outputTypes, argCode, outCode⟩, rfl, ⟨hargs, houts,
    (exportArgs_congr hnames ..).trans hargCode, (exportOutputs_congr hnames _).trans houtCode⟩,
    hnames.symm, ?_⟩
  subst hr₁
  simp [ITResolver.addExport, ITResolver.addFnType, ITResolver.addAdapter,
    ITResolver.addImplementation, ITResolver.pushType, FnEntry.addTo, FnEntry.itType, FnEntry.code]

theorem generateIt_total {e : FnEntry} (he : e.MadeBy deps r) :
    ∃ r', FnType.generateIt deps r e.fn = .ok r' ∧ r'.interfaces = e.addTo deps r.interfaces := by
  obtain ⟨r₁, htypes, hnames⟩ :
      ∃ r₁, FnType.generateItTypes r e.fn = .ok r₁ ∧ r.types = r₁.types :=
    ⟨_, Fallible.bind_eq_ok_iff.mpr ⟨_, he.arguments,
      Fallible.bind_eq_ok_iff.mpr ⟨_, he.outputTypes, rfl⟩⟩, rfl⟩
  have he₁ := he.congr hnames
  obtain ⟨r', h⟩ : ∃ r', FnType.generateIt deps r e.fn = .ok r' :=
    ⟨_, Fallible.bind_eq_ok_iff.mpr ⟨r₁, htypes, Fallible.bind_eq_ok_iff.mpr ⟨_, he₁.argCode,
      Fallible.bind_eq_ok_iff.mpr ⟨_, he₁.outCode, rfl⟩⟩⟩⟩
  obtain ⟨e', hfn, he', -, hi⟩ := generateIt_spec h
  obtain rfl := he'.unique he hfn
  exact ⟨r', h, hi⟩

/-- **Spec of `generate_it_for_import`.** -/
theorem generateItForImport_spec {nameSpace : String} {f : ExternFnType}
    (h : ExternFnType.generateItForImport deps nameSpace r f = .ok r') :
    ∃ e : ImportEntry, (e.nameSpace, e.fn) = (nameSpace, f) ∧ e.MadeBy deps r ∧
      r'.types = r.types ∧ r'.interfaces = e.addTo deps r.interfaces := by
  obtain ⟨r₁, htypes, h⟩ := Fallible.bind_eq_ok_iff.mp h
  obtain ⟨arguments, hargs, htypes⟩ := Fallible.bind_eq_ok_iff.mp htypes
  obtain ⟨outputTypes, houts, htypes⟩ := Fallible.bind_eq_ok_iff.mp htypes
  have hr₁ := Except.ok.inj htypes
  have hnames : r.types = r₁.types := by rw [← hr₁]; rfl
  obtain ⟨argCode, hargCode, h⟩ := Fallible.bind_eq_ok_iff.mp h
  obtain ⟨outCode, houtCode, h⟩ := Fallible.bind_eq_ok_iff.mp h
  cases h
  refine ⟨⟨nameSpace, f, arguments, outputTypes, argCode, outCode⟩, rfl, ⟨hargs, houts,
    (importArgs_congr hnames ..).trans hargCode, (importOutputs_congr hnames ..).trans houtCode⟩,
    hnames.symm, ?_⟩
  subst hr₁
  simp [ITResolver.addImport, ITResolver.addFnType, ITResolver.addAdapter,
    ITResolver.addImplementation, ITResolver.pushType, ImportEntry.addTo, ImportEntry.itType,
    ImportEntry.rawType, ImportEntry.release, ImportEntry.code]

theorem generateItForImport_total {e : ImportEntry} (he : e.MadeBy deps r) :
    ∃ r', ExternFnType.generateItForImport deps e.nameSpace r e.fn = .ok r' ∧
      r'.interfaces = e.addTo deps r.interfaces := by
  obtain ⟨r₁, htypes, hnames⟩ :
      ∃ r₁, ExternFnType.generateItTypes r e.nameSpace e.fn = .ok r₁ ∧ r.types = r₁.types :=
    ⟨_, Fallible.bind_eq_ok_iff.mpr ⟨_, he.arguments,
      Fallible.bind_eq_ok_iff.mpr ⟨_, he.outputTypes, rfl⟩⟩, rfl⟩
  have he₁ := he.congr hnames
  obtain ⟨r', h⟩ : ∃ r', ExternFnType.generateItForImport deps e.nameSpace r e.fn = .ok r' :=
    ⟨_, Fallible.bind_eq_ok_iff.mpr ⟨r₁, htypes, Fallible.bind_eq_ok_iff.mpr ⟨_, he₁.argCode,
      Fallible.bind_eq_ok_iff.mpr ⟨_, he₁.outCode, rfl⟩⟩⟩⟩
  obtain ⟨e', hfn, he', -, hi⟩ := generateItForImport_spec h
  obtain rfl := he'.unique he hfn
  exact ⟨r', h, hi⟩

end Steps

/-! ## Runs of the generator -/

/-- The functions the generator imports, with their modules. -/
def nonHostImports (externMods : List ExternModType) : List (String × ExternFnType) :=
  externMods.flatMap fun m =>
    if isHostImport m.nameSpace then [] else m.imports.map fun f => (m.nameSpace, f)

theorem mem_nonHostImports {externMods : List ExternModType} {nameSpace : String}
    {f : ExternFnType} : (nameSpace, f) ∈ nonHostImports externMods ↔
      ∃ m ∈ externMods, ¬ isHostImport m.nameSpace ∧ m.nameSpace = nameSpace ∧ f ∈ m.imports := by
  rw [nonHostImports, List.mem_flatMap]
  refine exists_congr fun m => and_congr_right fun _ => ?_
  by_cases hhost : isHostImport m.nameSpace
  · simp [hhost]
  · simp [hhost, and_comm]

/-- `l` is the layout made of the given functions behind the records of `r₀`. -/
structure Layout.Of (deps : Externals) (r₀ : ITResolver) (functions : List FnType)
    (imports : List (String × ExternFnType)) (l : Layout) : Prop where
  base : l.base = r₀.interfaces.types
  api : apiFuncs.length ≤ r₀.interfaces.types.length
  fns : l.fns.map FnEntry.fn = functions
  imports : l.imports.map (fun e => (e.nameSpace, e.fn)) = imports
  fnsMade : ∀ e ∈ l.fns, e.MadeBy deps r₀
  importsMade : ∀ e ∈ l.imports, e.MadeBy deps r₀

namespace Layout.Of

variable {deps : Externals} {r₀ : ITResolver} {functions : List FnType}
  {imports : List (String × ExternFnType)} {l : Layout}

theorem addFn (h : l.Of deps r₀ functions imports) {e : FnEntry} (he : e.MadeBy deps r₀) :
    (l.addFn e).Of deps r₀ (functions ++ [e.fn]) imports where
  base := h.base
  api := h.api
  fns := by rw [Layout.addFn, List.map_append, h.fns]; rfl
  imports := h.imports
  fnsMade := fun e' he' => (List.mem_append.mp he').elim (h.fnsMade e') fun hnew => by
    rw [List.mem_singleton.mp hnew]
    exact he
  importsMade := h.importsMade

theorem addImport (h : l.Of deps r₀ functions imports) {e : ImportEntry}
    (he : e.MadeBy deps r₀) :
    (l.addImport e).Of deps r₀ functions (imports ++ [(e.nameSpace, e.fn)]) where
  base := h.base
  api := h.api
  fns := h.fns
  imports := by rw [Layout.addImport, List.map_append, h.imports]; rfl
  fnsMade := h.fnsMade
  importsMade := fun e' he' => (List.mem_append.mp he').elim (h.importsMade e') fun hnew => by
    rw [List.mem_singleton.mp hnew]
    exact he

end Layout.Of

/-- What holds of a resolver while functions are added: it has the names of `r₀`
and the section of a layout. -/
def Generated (deps : Externals) (r₀ : ITResolver) (functions : List FnType)
    (imports : List (String × ExternFnType)) (r : ITResolver) : Prop :=
  ∃ l : Layout, l.Of deps r₀ functions imports ∧ r.types = r₀.types ∧
    r.interfaces = l.interfaces deps

section Runs

variable {deps : Externals} {r₀ r r' : ITResolver}

/-- **Run lemma, exported functions.** -/
theorem generateIt_functions {functions : List FnType}
    (hr : Generated deps r₀ [] [] r) (h : functions.foldlM (FnType.generateIt deps) r = .ok r') :
    Generated deps r₀ functions [] r' := by
  have hstep : ∀ done f s s', Generated deps r₀ done [] s → FnType.generateIt deps s f = .ok s' →
      Generated deps r₀ (done ++ [f]) [] s' := by
    rintro done f s s' ⟨l, hof, hnames, hl⟩ hs
    have hno : l.imports = [] := List.map_eq_nil_iff.mp hof.imports
    obtain ⟨e, rfl, he, hnames', hl'⟩ := generateIt_spec hs
    refine ⟨l.addFn e, hof.addFn (he.congr hnames), hnames'.trans hnames, ?_⟩
    rw [hl', hl, Layout.interfaces_addFn deps hno]
  exact Fallible.foldlM_invariant (I := fun done s => Generated deps r₀ done [] s) hstep hr h

/-- **Run lemma, one other module.** -/
theorem generateItForImport_imports {functions : List FnType}
    {before : List (String × ExternFnType)} {nameSpace : String} {fns : List ExternFnType}
    (hr : Generated deps r₀ functions before r)
    (h : fns.foldlM (ExternFnType.generateItForImport deps nameSpace) r = .ok r') :
    Generated deps r₀ functions (before ++ fns.map fun f => (nameSpace, f)) r' := by
  have hstep : ∀ done f s s',
      Generated deps r₀ functions (before ++ done.map fun f => (nameSpace, f)) s →
      ExternFnType.generateItForImport deps nameSpace s f = .ok s' →
      Generated deps r₀ functions (before ++ (done ++ [f]).map fun f => (nameSpace, f)) s' := by
    rintro done f s s' ⟨l, hof, hnames, hl⟩ hs
    obtain ⟨e, hpair, he, hnames', hl'⟩ := generateItForImport_spec hs
    have hof' := hof.addImport (he.congr hnames)
    rw [hpair, List.append_assoc] at hof'
    refine ⟨l.addImport e, by rwa [List.map_append], hnames'.trans hnames, ?_⟩
    rw [hl', hl, Layout.interfaces_addImport]
  have hnone : before ++ [].map (fun f : ExternFnType => (nameSpace, f)) = before :=
    List.append_nil before
  rw [← hnone] at hr
  exact Fallible.foldlM_invariant
    (I := fun done s => Generated deps r₀ functions (before ++ done.map fun f => (nameSpace, f)) s)
    hstep hr h

/-- **Run lemma, other modules.**  Host modules are skipped. -/
theorem generateIt_externMods {functions : List FnType} {externMods : List ExternModType}
    (hr : Generated deps r₀ functions [] r)
    (h : externMods.foldlM (ExternModType.generateIt deps) r = .ok r') :
    Generated deps r₀ functions (nonHostImports externMods) r' := by
  have hstep : ∀ done m s s', Generated deps r₀ functions (nonHostImports done) s →
      ExternModType.generateIt deps s m = .ok s' →
      Generated deps r₀ functions (nonHostImports (done ++ [m])) s' := by
    intro done m s s' hs hm
    have hsplit : nonHostImports (done ++ [m]) = nonHostImports done ++
        if isHostImport m.nameSpace then [] else m.imports.map fun f => (m.nameSpace, f) := by
      simp only [nonHostImports, List.flatMap_append, List.flatMap_singleton]
    rw [hsplit]
    unfold ExternModType.generateIt at hm
    by_cases hhost : isHostImport m.nameSpace
    · rw [if_pos hhost] at hm
      cases hm
      rwa [if_pos hhost, List.append_nil]
    · rw [if_neg hhost] at hm
      rw [if_neg hhost]
      exact generateItForImport_imports hs hm
  exact Fallible.foldlM_invariant (d := [])
    (I := fun done s => Generated deps r₀ functions (nonHostImports done) s) hstep hr h

end Runs

/-! ## Records add types only -/

/-- From `r` to `r'` nothing but the types of the section changes, and none is removed. -/
structure AddsTypes (r r' : ITResolver) : Prop where
  interfaces : r'.interfaces = { r.interfaces with types := r'.interfaces.types }
  length_le : r.interfaces.types.length ≤ r'.interfaces.types.length

namespace AddsTypes

theorem refl (r : ITResolver) : AddsTypes r r := ⟨rfl, Nat.le_refl _⟩

theorem trans {r₁ r₂ r₃ : ITResolver} (h : AddsTypes r₁ r₂) (h' : AddsTypes r₂ r₃) :
    AddsTypes r₁ r₃ := by
  refine ⟨?_, Nat.le_trans h.length_le h'.length_le⟩
  have hlast := h'.interfaces
  rwa [h.interfaces] at hlast

theorem ptypeToItypeUnchecked (deps : Externals) (r : ITResolver) (ty : ParsedType) :
    AddsTypes r (Generator.ptypeToItypeUnchecked deps r ty).2 := by
  rcases ptypeToItypeUnchecked_cases deps r ty with hsame | ⟨name, -, hstub⟩
  · rw [hsame]
    exact refl r
  · rw [hstub]
    exact ⟨rfl, by simp [ITResolver.pushType]⟩

theorem generateFields (deps : Externals) (r : ITResolver) (fields : List RecordField) :
    AddsTypes r (Generator.generateFields deps r fields).2 := by
  induction fields generalizing r with
  | nil => exact refl r
  | cons field fields ih => exact (ptypeToItypeUnchecked deps r field.ty).trans (ih _)

theorem insertRecordType (r : ITResolver) (record : IRecordType) :
    AddsTypes r (r.insertRecordType record) := by
  unfold ITResolver.insertRecordType
  cases r.types.lookup record.name with
  | none => exact ⟨rfl, by simp [ITResolver.pushType]⟩
  | some pos => exact ⟨rfl, by simp⟩

theorem generateRecord {deps : Externals} {r r' : ITResolver} {record : RecordType}
    (h : Generator.generateRecord deps r record = .ok r') : AddsTypes r r' := by
  unfold Generator.generateRecord at h
  cases hlist : RecordFields.list record.fields with
  | none => rw [hlist] at h; cases h; exact refl r
  | some fields =>
    rw [hlist] at h
    dsimp only at h
    split at h
    · cases h
    · cases h
      exact (generateFields deps r fields).trans (insertRecordType ..)

/-- **Run lemma, records.** -/
theorem records {deps : Externals} {l : List RecordType} {r r' : ITResolver}
    (h : l.foldlM (Generator.generateRecord deps) r = .ok r') : AddsTypes r r' :=
  Fallible.foldlM_invariant (d := []) (I := fun _ s => AddsTypes r s)
    (fun _ _ _ _ hs hstep => hs.trans (generateRecord hstep)) (refl r) h

end AddsTypes

/-- The resolver after the records has an empty layout. -/
theorem generated_records {deps : Externals} {records : List RecordType} {r₀ : ITResolver}
    (h : records.foldlM (generateRecord deps) apiResolver = .ok r₀) :
    Generated deps r₀ [] [] r₀ := by
  have hadds := AddsTypes.records h
  refine ⟨⟨r₀.interfaces.types, [], []⟩, ⟨rfl, hadds.length_le, rfl, rfl, nofun, nofun⟩,
    rfl, ?_⟩
  rw [hadds.interfaces]
  simp [Layout.interfaces, apiResolver, generateDefaultExportApi, apiFuncs,
    ApiExportFuncDescriptor.updateInterfaces, ITResolver.empty]

/-- **The layout of a generated section.** -/
theorem generateInterfaces_layout {deps : Externals} {moduleAst : ModuleAST} {I : Interfaces}
    (h : generateInterfaces deps moduleAst = .ok I) :
    ∃ (r₀ : ITResolver) (l : Layout),
      moduleAst.records.foldlM (generateRecord deps) apiResolver = .ok r₀ ∧
      validateRecords r₀ = .ok () ∧
      l.Of deps r₀ moduleAst.functions (nonHostImports moduleAst.externMods) ∧
      I = l.interfaces deps := by
  obtain ⟨r₀, hrecords, h⟩ := Fallible.bind_eq_ok_iff.mp h
  obtain ⟨⟨⟩, hvalid, h⟩ := Fallible.bind_eq_ok_iff.mp h
  obtain ⟨r₁, hfunctions, h⟩ := Fallible.bind_eq_ok_iff.mp h
  obtain ⟨r₂, hmods, h⟩ := Fallible.bind_eq_ok_iff.mp h
  cases h
  have h₁ := generateIt_functions (generated_records hrecords) hfunctions
  obtain ⟨l, hof, -, hl⟩ := generateIt_externMods h₁ hmods
  exact ⟨r₀, l, hrecords, hvalid, hof, hl⟩

end Marine.Generator
