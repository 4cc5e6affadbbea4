import Marine.Lib.Fallible
import Marine.Lib.Maps
import Marine.Loader.ItInstance

/-!
# What a backend reads out of a module

The engine of a browser does not tell the signatures of exports, so the JS backend reads
the module a second time (`crates/js-backend/src/module_info.rs`); the custom sections
are read by both backends.  `wasmparser` gives a list of payloads.

* `parse_eq_ok_iff`: what is collected from a readable module.
* `moduleInfo_exact`: when a module is accepted, which functions an instance has and
  with which signatures, and that the backends find the same custom sections.
-/

namespace Marine.Backend

open Loader Fallible

/-! ## Modules -/

/-- `wasmparser::ValType`. -/
inductive ValType
  | i32 | i64 | f32 | f64 | v128
  | ref
  deriving DecidableEq, Repr

inductive StructuralType
  | func (params results : List ValType)
  | other
  deriving DecidableEq, Repr

inductive ExternalKind
  | func | table | memory | global | tag
  deriving DecidableEq, Repr

structure WasmExport where
  name : String
  kind : ExternalKind
  index : Nat
  deriving DecidableEq, Repr

/-- The type of an import. -/
inductive TypeRef
  | func (index : Nat)
  | other
  deriving DecidableEq, Repr

/-- A section and what its reader yields, an error if one of its items is malformed. -/
inductive Payload
  | typeSection (types : Except String (List StructuralType))
  | importSection (imports : Except String (List TypeRef))
  | functionSection (functions : Except String (List Nat))
  | exportSection (exports : Except String (List WasmExport))
  | customSection (name : String) (data : List UInt8)
  | other

/-! ## The readers -/

inductive ModuleCreationError
  | failedToCompileWasm (text : String)
  | failedToExtractCustomSections (text : String)
  | other (text : String)
  deriving DecidableEq, Repr

inductive ModuleExport
  | function (signature : ExportFunction)
  | memory | table | global
  deriving DecidableEq, Repr

structure ModuleInfo where
  customSections : AList fun _ : String => List (List UInt8)
  exports : AList fun _ : String => ModuleExport

def wtypeFromWasmparserVal : ValType → WType
  | .i32 => .i32
  | .i64 => .i64
  | .f32 => .f32
  | .f64 => .f64
  | .v128 => .v128
  | .ref => .externRef

def sigFromWasmparserTy (params results : List ValType) : ExportFunction :=
  ⟨params.map wtypeFromWasmparserVal, results.map wtypeFromWasmparserVal⟩

def StructuralType.sig : StructuralType → Option ExportFunction
  | .func params results => some (sigFromWasmparserTy params results)
  | .other => none

def TypeRef.func? : TypeRef → Option Nat
  | .func index => some index
  | .other => none

structure ModuleInfoParser where
  types : List (Option ExportFunction)
  functions : List Nat
  exports : List WasmExport
  customSections : List (String × List UInt8)

def nonFunctionExport : ModuleCreationError :=
  .other "Function export references non-function type, or the module is malformed"

def unknownExternType : ModuleCreationError := .other "unknown extern type: Tag"

namespace ModuleInfoParser

def new : ModuleInfoParser := ⟨[], [], [], []⟩

def parsePayload (p : ModuleInfoParser) (payload : Except String Payload) :
    Except ModuleCreationError ModuleInfoParser := do
  match ← payload.mapError .other with
  | .typeSection types =>
    let types ← types.mapError .other
    return { p with types := p.types ++ types.map StructuralType.sig }
  | .importSection imports =>
    let imports ← imports.mapError .other
    return { p with functions := p.functions ++ imports.filterMap TypeRef.func? }
  | .functionSection functions =>
    let functions ← functions.mapError .other
    return { p with functions := p.functions ++ functions }
  | .exportSection exports =>
    let exports ← exports.mapError .other
    return { p with exports := p.exports ++ exports }
  | .customSection name data =>
    return { p with customSections := p.customSections ++ [(name, data)] }
  | .other => return p

def parse (payloads : List (Except String Payload)) :
    Except ModuleCreationError ModuleInfoParser :=
  payloads.foldlM parsePayload new

def functionSignature (p : ModuleInfoParser) (index : Nat) : Option ExportFunction :=
  ((p.functions[index]?).bind fun tyIndex => p.types[tyIndex]?).bind id

def extractExport (p : ModuleInfoParser) (e : WasmExport) :
    Except ModuleCreationError (String × ModuleExport) :=
  match e.kind with
  | .func =>
    match p.functionSignature e.index with
    | some signature => .ok (e.name, .function signature)
    | none => .error nonFunctionExport
  | .table => .ok (e.name, .table)
  | .memory => .ok (e.name, .memory)
  | .global => .ok (e.name, .global)
  | .tag => .error unknownExternType

def intoModuleInfo (p : ModuleInfoParser) : Except ModuleCreationError ModuleInfo := do
  let exports ← p.exports.mapM p.extractExport
  return ⟨Maps.collectAll p.customSections, Maps.collect exports⟩

end ModuleInfoParser

def ModuleInfo.fromBytes (payloads : List (Except String Payload)) :
    Except ModuleCreationError ModuleInfo := do
  let parser ← ModuleInfoParser.parse payloads
  parser.intoModuleInfo

/-- `custom_sections` of a module of the JS backend. -/
def ModuleInfo.customSectionsOf (info : ModuleInfo) (name : String) : List (List UInt8) :=
  (info.customSections.lookup name).getD []

def Payload.custom? : Payload → Option (String × List UInt8)
  | .customSection name data => some (name, data)
  | _ => none

/-- `impl_utils::custom_sections`, and `custom_sections` of a Wasmtime module over it. -/
def wasmtimeCustomSections (payloads : List (Except String Payload)) :
    Except String (String → List (List UInt8)) := do
  let payloads ← payloads.mapM id
  let sections := Maps.collectAll (payloads.filterMap Payload.custom?)
  return fun name => (sections.lookup name).getD []

inductive ResolveError
  | exportNotFound (name : String)
  | exportTypeMismatch (expected actual : String)
  deriving DecidableEq, Repr

/-- `JsInstance::get_function`: its exports are those of the module. -/
def ModuleInfo.getFunction (info : ModuleInfo) (name : String) :
    Except ResolveError ExportFunction :=
  match info.exports.lookup name with
  | none => .error (.exportNotFound name)
  | some (.function signature) => .ok signature
  | some .memory => .error (.exportTypeMismatch "function" "memory")
  | some _ => .error (.exportTypeMismatch "function" "other(funcref or externref)")

/-! ## Readable modules -/

/-- A section whose items can be read. -/
inductive Section
  | types (types : List StructuralType)
  | imports (imports : List TypeRef)
  | functions (functions : List Nat)
  | exports (exports : List WasmExport)
  | custom (name : String) (data : List UInt8)
  | other

namespace Section

def read : Section → Payload
  | types l => .typeSection (.ok l)
  | imports l => .importSection (.ok l)
  | functions l => .functionSection (.ok l)
  | exports l => .exportSection (.ok l)
  | custom name data => .customSection name data
  | other => .other

def payload (s : Section) : Except String Payload := .ok s.read

def typeList : Section → List StructuralType
  | types l => l
  | _ => []

def importList : Section → List TypeRef
  | imports l => l
  | _ => []

def functionList : Section → List Nat
  | functions l => l
  | _ => []

def exportList : Section → List WasmExport
  | exports l => l
  | _ => []

def customList : Section → List (String × List UInt8)
  | custom name data => [(name, data)]
  | _ => []

end Section

/-- What a module declares: its types, its functions, first those that it imports, its
exports and its custom sections. -/
structure WasmModule where
  types : List StructuralType
  imported : List Nat
  defined : List Nat
  exports : List WasmExport
  customs : List (String × List UInt8)

namespace WasmModule

def ofSections (sections : List Section) : WasmModule where
  types := sections.flatMap Section.typeList
  imported := (sections.flatMap Section.importList).filterMap TypeRef.func?
  defined := sections.flatMap Section.functionList
  exports := sections.flatMap Section.exportList
  customs := sections.flatMap Section.customList

/-- The signature of a function of the index space. -/
def signature (m : WasmModule) (index : Nat) : Option ExportFunction :=
  (((m.imported ++ m.defined)[index]?).bind fun tyIndex => m.types[tyIndex]?).bind
    StructuralType.sig

end WasmModule

/-- The order of the binary format, as far as functions are concerned: imports are
declared before the functions of the module. -/
def ImportsFirst (sections : List Section) : Prop :=
  sections.Pairwise fun s t => s.functionList = [] ∨ t.importList = []

instance (sections : List Section) : Decidable (ImportsFirst sections) :=
  inferInstanceAs (Decidable (List.Pairwise _ _))

namespace ModuleInfoParser

theorem parsePayload_ok {p p' : ModuleInfoParser} {payload : Except String Payload}
    (h : p.parsePayload payload = .ok p') : ∃ s : Section, payload = s.payload := by
  obtain ⟨section_, hsection, h⟩ := bind_eq_ok_iff.mp h
  rw [mapError_eq_ok_iff.mp hsection]
  cases section_ with
  | typeSection types =>
    obtain ⟨l, hl, -⟩ := bind_eq_ok_iff.mp h
    exact ⟨.types l, by rw [mapError_eq_ok_iff.mp hl]; rfl⟩
  | importSection imports =>
    obtain ⟨l, hl, -⟩ := bind_eq_ok_iff.mp h
    exact ⟨.imports l, by rw [mapError_eq_ok_iff.mp hl]; rfl⟩
  | functionSection functions =>
    obtain ⟨l, hl, -⟩ := bind_eq_ok_iff.mp h
    exact ⟨.functions l, by rw [mapError_eq_ok_iff.mp hl]; rfl⟩
  | exportSection exports =>
    obtain ⟨l, hl, -⟩ := bind_eq_ok_iff.mp h
    exact ⟨.exports l, by rw [mapError_eq_ok_iff.mp hl]; rfl⟩
  | customSection name data => exact ⟨.custom name data, rfl⟩
  | other => exact ⟨.other, rfl⟩

/-- **Spec of one section.** -/
theorem parsePayload_payload (p : ModuleInfoParser) (s : Section) :
    p.parsePayload s.payload = .ok {
      types := p.types ++ s.typeList.map StructuralType.sig
      functions := p.functions ++ (s.importList.filterMap TypeRef.func? ++ s.functionList)
      exports := p.exports ++ s.exportList
      customSections := p.customSections ++ s.customList } := by
  cases s <;> simp [parsePayload, Section.payload, Section.read, Section.typeList,
    Section.importList, Section.functionList, Section.exportList, Section.customList,
    Except.mapError, bind, Except.bind, pure, Except.pure]

/-- The parser after readable sections. -/
def after (p : ModuleInfoParser) (sections : List Section) : ModuleInfoParser where
  types := p.types ++ (sections.flatMap Section.typeList).map StructuralType.sig
  functions := p.functions ++ sections.flatMap fun s =>
    s.importList.filterMap TypeRef.func? ++ s.functionList
  exports := p.exports ++ sections.flatMap Section.exportList
  customSections := p.customSections ++ sections.flatMap Section.customList

theorem foldlM_payloads (p : ModuleInfoParser) (sections : List Section) :
    (sections.map Section.payload).foldlM parsePayload p = .ok (p.after sections) := by
  induction sections generalizing p with
  | nil => simp [after, pure, Except.pure]
  | cons s sections ih =>
    rw [List.map_cons, List.foldlM_cons, parsePayload_payload]
    show (sections.map Section.payload).foldlM parsePayload _ = _
    rw [ih]
    simp [after, List.append_assoc]

/-- **Spec of `parse`.**  It fails on modules that cannot be read, and collects the others
section by section. -/
theorem parse_eq_ok_iff {payloads : List (Except String Payload)} {p : ModuleInfoParser} :
    parse payloads = .ok p ↔
      ∃ sections : List Section, payloads = sections.map Section.payload ∧
        p = new.after sections := by
  constructor
  · intro h
    have hreadable : ∃ sections : List Section, payloads = sections.map Section.payload := by
      unfold parse at h
      generalize new = start at h
      induction payloads generalizing start with
      | nil => exact ⟨[], rfl⟩
      | cons payload payloads ih =>
        rw [List.foldlM_cons] at h
        obtain ⟨next, hnext, hrest⟩ := bind_eq_ok_iff.mp h
        obtain ⟨s, rfl⟩ := parsePayload_ok hnext
        obtain ⟨sections, rfl⟩ := ih next hrest
        exact ⟨s :: sections, rfl⟩
    obtain ⟨sections, rfl⟩ := hreadable
    rw [parse, foldlM_payloads] at h
    cases h
    exact ⟨sections, rfl, rfl⟩
  · rintro ⟨sections, rfl, rfl⟩
    exact foldlM_payloads new sections

/-! ## The index space -/

theorem flatMap_append_of_first {α β : Type} {f g : α → List β} {l : List α}
    (h : l.Pairwise fun a b => g a = [] ∨ f b = []) :
    (l.flatMap fun a => f a ++ g a) = l.flatMap f ++ l.flatMap g := by
  induction l with
  | nil => rfl
  | cons a l ih =>
    obtain ⟨hfirst, hrest⟩ := List.pairwise_cons.mp h
    have hcommute : g a ++ l.flatMap f = l.flatMap f ++ g a := by
      by_cases hg : g a = []
      · rw [hg, List.nil_append, List.append_nil]
      · have hnone : l.flatMap f = [] := by
          rw [List.flatMap_eq_nil_iff]
          exact fun b hb => (hfirst b hb).resolve_left hg
        rw [hnone, List.nil_append, List.append_nil]
    rw [List.flatMap_cons, List.flatMap_cons, List.flatMap_cons, ih hrest, List.append_assoc,
      ← List.append_assoc (g a), hcommute]
    simp only [List.append_assoc]

variable {sections : List Section}

theorem functions_after (h : ImportsFirst sections) :
    (new.after sections).functions =
      (WasmModule.ofSections sections).imported ++ (WasmModule.ofSections sections).defined := by
  have hfirst : sections.Pairwise fun s t =>
      s.functionList = [] ∨ t.importList.filterMap TypeRef.func? = [] :=
    h.imp fun hst => hst.imp_right fun ht => by rw [ht]; rfl
  show [] ++ _ = _
  rw [List.nil_append, flatMap_append_of_first hfirst, WasmModule.ofSections,
    List.filterMap_flatMap]

theorem functionSignature_after (h : ImportsFirst sections) (index : Nat) :
    (new.after sections).functionSignature index =
      (WasmModule.ofSections sections).signature index := by
  have htypes : (new.after sections).types =
      (WasmModule.ofSections sections).types.map StructuralType.sig := rfl
  rw [functionSignature, WasmModule.signature, functions_after h, htypes, Option.bind_assoc,
    Option.bind_assoc]
  congr 1
  funext tyIndex
  rw [List.getElem?_map]
  cases (WasmModule.ofSections sections).types[tyIndex]? with
  | none => rfl
  | some ty => rfl

/-- **Spec of one export.** -/
theorem extractExport_eq_ok_iff {p : ModuleInfoParser} {e : WasmExport}
    {found : String × ModuleExport} :
    p.extractExport e = .ok found ↔ found.1 = e.name ∧
      ((e.kind = .func ∧ ∃ signature, p.functionSignature e.index = some signature ∧
          found.2 = .function signature) ∨
        (e.kind = .table ∧ found.2 = .table) ∨ (e.kind = .memory ∧ found.2 = .memory) ∨
        (e.kind = .global ∧ found.2 = .global)) := by
  obtain ⟨name, export_⟩ := found
  unfold extractExport
  cases hkind : e.kind with
  | func =>
    cases hsignature : p.functionSignature e.index with
    | none => simp
    | some signature => simp [eq_comm]
  | tag => simp
  | _ => simp [eq_comm]

end ModuleInfoParser

/-! ## The module of a backend -/

namespace ModuleInfo

variable {sections : List Section}

/-- What one export makes, in the index space of the module. -/
def Makes (m : WasmModule) (e : WasmExport) (export_ : ModuleExport) : Prop :=
  (e.kind = .func ∧ ∃ signature, m.signature e.index = some signature ∧
      export_ = .function signature) ∨
    (e.kind = .table ∧ export_ = .table) ∨ (e.kind = .memory ∧ export_ = .memory) ∨
    (e.kind = .global ∧ export_ = .global)

theorem exists_makes_iff {m : WasmModule} {e : WasmExport} :
    (∃ export_, Makes m e export_) ↔
      e.kind ≠ .tag ∧ (e.kind = .func → (m.signature e.index).isSome) := by
  unfold Makes
  cases e.kind with
  | func => simp [Option.isSome_iff_exists, exists_comm]
  | _ => simp

theorem extractExport_eq_ok_iff (h : ImportsFirst sections) {e : WasmExport}
    {found : String × ModuleExport} :
    (ModuleInfoParser.new.after sections).extractExport e = .ok found ↔
      found.1 = e.name ∧ Makes (WasmModule.ofSections sections) e found.2 := by
  rw [ModuleInfoParser.extractExport_eq_ok_iff, Makes,
    ModuleInfoParser.functionSignature_after h]

theorem fromBytes_payloads (sections : List Section) :
    fromBytes (sections.map Section.payload) =
      (ModuleInfoParser.new.after sections).intoModuleInfo := by
  rw [fromBytes, ModuleInfoParser.parse_eq_ok_iff.mpr ⟨sections, rfl, rfl⟩]
  rfl

theorem fromBytes_isOk_iff (h : ImportsFirst sections) :
    (∃ info, fromBytes (sections.map Section.payload) = .ok info) ↔
      ∀ e ∈ (WasmModule.ofSections sections).exports,
        e.kind ≠ .tag ∧ (e.kind = .func →
          ((WasmModule.ofSections sections).signature e.index).isSome) := by
  rw [fromBytes_payloads]
  constructor
  · rintro ⟨info, hinfo⟩ e he
    obtain ⟨exports, hexports, -⟩ := bind_eq_ok_iff.mp hinfo
    obtain ⟨found, -, hfound⟩ := exists_right_of_mem (mapM_eq_ok_iff.mp hexports) he
    exact exists_makes_iff.mp ⟨found.2, ((extractExport_eq_ok_iff h).mp hfound).2⟩
  · intro hall
    obtain ⟨exports, hexports⟩ := exists_mapM_ok (f :=
        (ModuleInfoParser.new.after sections).extractExport)
      (l := (ModuleInfoParser.new.after sections).exports) fun e he => by
        obtain ⟨export_, hmakes⟩ := exists_makes_iff.mpr (hall e he)
        exact ⟨(e.name, export_), (extractExport_eq_ok_iff h).mpr ⟨rfl, hmakes⟩⟩
    exact ⟨_, bind_eq_ok_iff.mpr ⟨exports, hexports, rfl⟩⟩

/-- **What the map of exports holds.** -/
theorem lookup_exports (h : ImportsFirst sections)
    (hnames : ((WasmModule.ofSections sections).exports.map WasmExport.name).Nodup)
    {info : ModuleInfo} (hinfo : fromBytes (sections.map Section.payload) = .ok info)
    {name : String} {export_ : ModuleExport} :
    info.exports.lookup name = some export_ ↔
      ∃ e ∈ (WasmModule.ofSections sections).exports, e.name = name ∧
        Makes (WasmModule.ofSections sections) e export_ := by
  rw [fromBytes_payloads] at hinfo
  obtain ⟨exports, hexports, hinfo⟩ := bind_eq_ok_iff.mp hinfo
  cases hinfo
  have hall := mapM_eq_ok_iff.mp hexports
  have hkeys : exports.map Prod.fst =
      (WasmModule.ofSections sections).exports.map WasmExport.name := by
    rw [← List.forall₂_eq_eq_eq, List.forall₂_map_left_iff, List.forall₂_map_right_iff]
    exact hall.flip.imp fun _ _ hfound => ((extractExport_eq_ok_iff h).mp hfound).1
  rw [Maps.lookup_collect_eq_some_iff (hkeys ▸ hnames)]
  constructor
  · intro hmem
    obtain ⟨e, he, hfound⟩ := exists_of_mem_mapM hexports hmem
    obtain ⟨hname, hmakes⟩ := (extractExport_eq_ok_iff h).mp hfound
    exact ⟨e, he, hname.symm, hmakes⟩
  · rintro ⟨e, he, rfl, hmakes⟩
    obtain ⟨found, hmem, hfound⟩ := exists_right_of_mem hall he
    have hsame := (extractExport_eq_ok_iff h).mpr
      (show (e.name, export_).1 = e.name ∧ _ from ⟨rfl, hmakes⟩)
    cases hfound.symm.trans hsame
    exact hmem

theorem getFunction_eq_ok_iff {info : ModuleInfo} {name : String} {signature : ExportFunction} :
    info.getFunction name = .ok signature ↔
      info.exports.lookup name = some (.function signature) := by
  unfold getFunction
  cases info.exports.lookup name with
  | none => simp
  | some export_ => cases export_ <;> simp

theorem custom_read (sections : List Section) :
    (sections.map Section.read).filterMap Payload.custom? =
      (WasmModule.ofSections sections).customs := by
  show _ = sections.flatMap Section.customList
  induction sections with
  | nil => rfl
  | cons s sections ih =>
    rw [List.map_cons, List.flatMap_cons, ← ih]
    cases s <;> rfl

/-- The custom sections of the two backends. -/
theorem customSections_agree {info : ModuleInfo}
    (hinfo : fromBytes (sections.map Section.payload) = .ok info) :
    ∃ found, wasmtimeCustomSections (sections.map Section.payload) = .ok found ∧
      ∀ name, found name = Maps.valuesOf (WasmModule.ofSections sections).customs name ∧
        info.customSectionsOf name = found name := by
  have hread : (sections.map Section.payload).mapM id = .ok (sections.map Section.read) := by
    rw [mapM_eq_ok_iff, List.forall₂_map_left_iff, List.forall₂_map_right_iff]
    exact List.forall₂_same.mpr fun s _ => rfl
  have hvalues : ∀ name, ((Maps.collectAll (WasmModule.ofSections sections).customs).lookup
      name).getD [] = Maps.valuesOf (WasmModule.ofSections sections).customs name := by
    intro name
    rw [Maps.lookup_collectAll]
    split
    · rename_i hnil
      rw [hnil]
      rfl
    · rfl
  rw [fromBytes_payloads] at hinfo
  obtain ⟨exports, -, hinfo⟩ := bind_eq_ok_iff.mp hinfo
  cases hinfo
  refine ⟨_, bind_eq_ok_iff.mpr ⟨_, hread, rfl⟩, fun name => ⟨?_, ?_⟩⟩
  · rw [custom_read]
    exact hvalues name
  · rw [custom_read]
    rfl

end ModuleInfo

open Backend.ModuleInfo

/-- **What the JS backend reads** of a module whose imports are declared before its
functions and whose exports have different names, as the engine has checked.  It is
accepted if no tag is exported and exported functions have function types.  Then exactly
the exported functions are found, with the signatures that they have in the index space,
and the custom sections are those that the Wasmtime backend finds, in their order. -/
theorem moduleInfo_exact {sections : List Section} (hordered : ImportsFirst sections)
    (hnames : ((WasmModule.ofSections sections).exports.map WasmExport.name).Nodup) :
    ((∃ info, fromBytes (sections.map Section.payload) = .ok info) ↔
      ∀ e ∈ (WasmModule.ofSections sections).exports,
        e.kind ≠ .tag ∧ (e.kind = .func →
          ((WasmModule.ofSections sections).signature e.index).isSome)) ∧
    ∀ info, fromBytes (sections.map Section.payload) = .ok info →
      (∀ name signature, info.getFunction name = .ok signature ↔
        ∃ e ∈ (WasmModule.ofSections sections).exports, e.name = name ∧ e.kind = .func ∧
          (WasmModule.ofSections sections).signature e.index = some signature) ∧
      ∃ found, wasmtimeCustomSections (sections.map Section.payload) = .ok found ∧
        ∀ name, found name = Maps.valuesOf (WasmModule.ofSections sections).customs name ∧
          info.customSectionsOf name = found name := by
  refine ⟨fromBytes_isOk_iff hordered, fun info hinfo =>
    ⟨fun name signature => ?_, customSections_agree hinfo⟩⟩
  rw [getFunction_eq_ok_iff, lookup_exports hordered hnames hinfo]
  simp [Makes]

/-- A module that imports a function of type 1 and exports its own, of type 0. -/
def importingSections : List Section :=
  [.custom "version" [1], .types [.func [.i32] [], .func [] [.i64]], .imports [.other, .func 1],
    .functions [0], .exports [⟨"memory", .memory, 0⟩, ⟨"run", .func, 1⟩], .custom "version" [2]]

theorem moduleInfo_exact_importing : ∃ info,
    fromBytes (importingSections.map Section.payload) = .ok info ∧
    info.getFunction "run" = .ok ⟨[.i32], []⟩ ∧
    info.customSectionsOf "version" = [[1], [2]] := by
  have hordered : ImportsFirst importingSections := by decide
  obtain ⟨hok, hinfo⟩ := moduleInfo_exact hordered (by decide)
  obtain ⟨info, hread⟩ := hok.mpr (by decide)
  obtain ⟨hfunctions, found, -, hfound⟩ := hinfo info hread
  refine ⟨info, hread, (hfunctions "run" _).mpr ⟨⟨"run", .func, 1⟩, by decide, rfl, rfl, rfl⟩, ?_⟩
  obtain ⟨hvalues, hagree⟩ := hfound "version"
  rw [hagree, hvalues]
  rfl

end Marine.Backend
