import Marine.Generator.Interfaces
import Marine.ModuleInfo.CustomSections
import Mathlib.Logic.Encodable.Basic
import Mathlib.Logic.Equiv.List

/-!
# The command line tools

The commands of `tools/cli` that write Wasm files.  `marine build` generates the
interface types out of the sections that the macros of the SDK have left in the module;
`marine set it` and `marine set version` embed what they are given.

* `Carries`: what a module carries for its readers, and `carries_build`, `carries_setIt`,
  `carries_setVersion`: what each command makes of it.
* `commands_readBack`: what is read after any commands that follow a build.
-/

namespace Marine.Cli

open Generator CustomSections Collections Fallible

/-! ## Sections -/

/-- What one of the macros has described. -/
inductive SDKAst
  | record (record : RecordType)
  | function (function : FnType)
  | externMod (externMod : ExternModType)

def startsWith (name start : String) : Bool := start.toList.isPrefixOf name.toList

/-- The sections of the SDK: what their names start with, and `serde_json` for what is in
them.  The sections of the tools have other names. -/
structure Sdk (Version : Type) extends SemVer Version where
  generatedSectionPrefix : String
  generatedSectionPrefixFce : String
  fromSlice : List UInt8 → Except String SDKAst
  version_ne_it : versionSectionName ≠ itSectionName
  it_apart : startsWith itSectionName generatedSectionPrefix = false ∧
    startsWith itSectionName generatedSectionPrefixFce = false
  version_apart : startsWith versionSectionName generatedSectionPrefix = false ∧
    startsWith versionSectionName generatedSectionPrefixFce = false

/-- Interface types and the version that is written with them. -/
structure ItSection (Version : Type) where
  version : Version
  interfaces : Interfaces

inductive CLIError
  | itGeneratorError (e : ITGeneratorError)
  | itParserError (e : ITParserError)

/-- `itVersion` is the version of new interface types. -/
structure Tools (C Id Version : Type) [DecidableEq Id] where
  coll : Collection C Id CustomSection
  codec : ItCodec (ItSection Version) Version
  sdk : Sdk Version
  deps : Externals
  itVersion : Version

inductive Command (Version : Type)
  | build (sdkVersion : Version)
  | setIt (it : String)
  | setVersion (version : Version)

def ModuleAST.push (moduleAst : ModuleAST) : SDKAst → ModuleAST
  | .record record => { moduleAst with records := moduleAst.records ++ [record] }
  | .function function => { moduleAst with functions := moduleAst.functions ++ [function] }
  | .externMod externMod => { moduleAst with externMods := moduleAst.externMods ++ [externMod] }

variable {C Id Version : Type} [DecidableEq Id]

namespace Tools

variable (tools : Tools C Id Version)

def isGenerated (name : String) : Bool :=
  startsWith name tools.sdk.generatedSectionPrefix ||
    startsWith name tools.sdk.generatedSectionPrefixFce

def pushSection (moduleAst : ModuleAST) (section_ : CustomSection) :
    Except ITGeneratorError ModuleAST := do
  let decodedJson ← (tools.sdk.fromSlice section_.data).mapError .deserializationError
  return ModuleAST.push moduleAst decodedJson

def wasmAstExtractor (wasmModule : C) : Except ITGeneratorError ModuleAST :=
  ((tools.coll.items wasmModule).filter fun section_ => tools.isGenerated section_.name).foldlM
    tools.pushSection ⟨[], [], []⟩

/-- `embed_it` of the generator. -/
def embedGenerated (wasmModule : C) : Except ITGeneratorError C := do
  let moduleAst ← tools.wasmAstExtractor wasmModule
  let interfaces ← generateInterfaces tools.deps moduleAst
  return generatorEmbedIt tools.coll tools.codec wasmModule ⟨tools.itVersion, interfaces⟩

def embedVersion (wasmModule : C) (version : Version) : C :=
  embedFromModule tools.coll tools.sdk.toSemVer wasmModule version

/-- A command on the file of one module. -/
def run (wasmModule : C) : Command Version → Except CLIError C
  | .build sdkVersion => do
    let wasmModule ← (tools.embedGenerated wasmModule).mapError .itGeneratorError
    return tools.embedVersion wasmModule sdkVersion
  | .setIt it => (embedTextIt tools.coll tools.codec wasmModule it).mapError .itParserError
  | .setVersion version => .ok (tools.embedVersion wasmModule version)

/-- A command that fails writes nothing. -/
def step (wasmModule : C) (command : Command Version) : C :=
  match tools.run wasmModule command with
  | .ok wasmModule => wasmModule
  | .error _ => wasmModule

/-! ## What readers find -/

def its (wasmModule : C) : List (List UInt8) :=
  customSections tools.coll wasmModule itSectionName

def versions (wasmModule : C) : List (List UInt8) :=
  customSections tools.coll wasmModule tools.sdk.versionSectionName

/-- The sections that no command writes. -/
def kept (wasmModule : C) : List CustomSection :=
  (tools.coll.items wasmModule).filter fun section_ =>
    section_.name ≠ itSectionName ∧ section_.name ≠ tools.sdk.versionSectionName

end Tools

/-- Sections of another name. -/
theorem customSections_of_other {coll : Collection C Id CustomSection} {m m' : C}
    {name name' : String} (hne : name' ≠ name)
    (h : otherSections coll m' name = otherSections coll m name) :
    customSections coll m' name' = customSections coll m name' := by
  have hfilter : ∀ wasmModule : C, customSections coll wasmModule name' =
      ((otherSections coll wasmModule name).filter fun section_ =>
        section_.name = name').map (·.data) := by
    intro wasmModule
    rw [customSections, otherSections, List.filter_filter]
    congr 1
    apply List.filter_congr
    intro section_ _
    by_cases hname : section_.name = name'
    · simp [hname, hne]
    · simp [hname]
  rw [hfilter, hfilter, h]

namespace Tools

variable {tools : Tools C Id Version} {m m' : C}

theorem kept_of_other {name : String}
    (hname : name = itSectionName ∨ name = tools.sdk.versionSectionName)
    (h : otherSections tools.coll m' name = otherSections tools.coll m name) :
    tools.kept m' = tools.kept m := by
  have hfilter : ∀ wasmModule : C, tools.kept wasmModule =
      (otherSections tools.coll wasmModule name).filter fun section_ =>
        section_.name ≠ itSectionName ∧ section_.name ≠ tools.sdk.versionSectionName := by
    intro wasmModule
    rw [kept, otherSections, List.filter_filter]
    apply List.filter_congr
    intro section_ _
    rcases hname with rfl | rfl
    · by_cases h : section_.name = itSectionName <;> simp [h]
    · by_cases h : section_.name = tools.sdk.versionSectionName <;> simp [h]
  rw [hfilter, hfilter, h]

/-- The description of the module is in sections that no command writes. -/
theorem wasmAstExtractor_congr (h : tools.kept m' = tools.kept m) :
    tools.wasmAstExtractor m' = tools.wasmAstExtractor m := by
  have hfilter : ∀ wasmModule : C,
      ((tools.coll.items wasmModule).filter fun section_ => tools.isGenerated section_.name) =
        (tools.kept wasmModule).filter fun section_ => tools.isGenerated section_.name := by
    intro wasmModule
    rw [kept, List.filter_filter]
    apply List.filter_congr
    intro section_ _
    by_cases hit : section_.name = itSectionName
    · simp [isGenerated, hit, tools.sdk.it_apart]
    · by_cases hversion : section_.name = tools.sdk.versionSectionName
      · simp [isGenerated, hversion, tools.sdk.version_apart]
      · simp [hit, hversion]
  rw [wasmAstExtractor, wasmAstExtractor, hfilter, hfilter, h]

/-- What a module carries for its readers. -/
structure Carries (tools : Tools C Id Version) (wasmModule : C) (kept : List CustomSection)
    (its : List (ItSection Version)) (version : Version) : Prop where
  kept : tools.kept wasmModule = kept
  its : tools.its wasmModule = its.map tools.codec.toBytes
  version : tools.versions wasmModule = [Utf8.encode (tools.sdk.print version)]

theorem embedVersion_sections (tools : Tools C Id Version) (m : C) (version : Version) :
    tools.kept (tools.embedVersion m version) = tools.kept m ∧
      tools.its (tools.embedVersion m version) = tools.its m ∧
      tools.versions (tools.embedVersion m version) =
        [Utf8.encode (tools.sdk.print version)] := by
  have hother := otherSections_embedFromModule tools.coll tools.sdk.toSemVer m version
  exact ⟨kept_of_other (.inr rfl) hother,
    customSections_of_other tools.sdk.version_ne_it.symm hother,
    customSections_embedFromModule tools.coll tools.sdk.toSemVer m version⟩

/-- **Spec of `marine build`.** -/
theorem carries_build {sdkVersion : Version} (h : tools.run m (.build sdkVersion) = .ok m') :
    ∃ moduleAst interfaces, tools.wasmAstExtractor m = .ok moduleAst ∧
      generateInterfaces tools.deps moduleAst = .ok interfaces ∧
      tools.Carries m' (tools.kept m) [⟨tools.itVersion, interfaces⟩] sdkVersion := by
  obtain ⟨embedded, hembedded, h⟩ := bind_eq_ok_iff.mp h
  cases h
  obtain ⟨moduleAst, hast, hembedded⟩ := bind_eq_ok_iff.mp (mapError_eq_ok_iff.mp hembedded)
  obtain ⟨interfaces, hgenerated, hembedded⟩ := bind_eq_ok_iff.mp hembedded
  cases hembedded
  have hother := otherSections_generatorEmbedIt tools.coll tools.codec m
    ⟨tools.itVersion, interfaces⟩
  obtain ⟨hkept, hits, hversion⟩ := tools.embedVersion_sections
    (generatorEmbedIt tools.coll tools.codec m ⟨tools.itVersion, interfaces⟩) sdkVersion
  refine ⟨moduleAst, interfaces, hast, hgenerated, ?_, ?_, hversion⟩
  · rw [hkept]
    exact kept_of_other (.inl rfl) hother
  · rw [hits]
    exact customSections_generatorEmbedIt tools.coll tools.codec m _

/-- A build fails on the description of the module alone. -/
theorem build_ok {sdkVersion : Version} {moduleAst : ModuleAST} {interfaces : Interfaces}
    (hast : tools.wasmAstExtractor m = .ok moduleAst)
    (hgenerated : generateInterfaces tools.deps moduleAst = .ok interfaces) :
    ∃ m', tools.run m (.build sdkVersion) = .ok m' := by
  have hembedded : tools.embedGenerated m = .ok (generatorEmbedIt tools.coll tools.codec m
      ⟨tools.itVersion, interfaces⟩) :=
    bind_eq_ok_iff.mpr ⟨moduleAst, hast, bind_eq_ok_iff.mpr ⟨interfaces, hgenerated, rfl⟩⟩
  exact ⟨_, bind_eq_ok_iff.mpr ⟨_, mapError_eq_ok_iff.mpr hembedded, rfl⟩⟩

theorem step_setIt_ok {m : C} {text : String} {it : ItSection Version}
    (hparse : tools.codec.parseText text = .ok it) :
    tools.step m (.setIt text) = CustomSections.embedIt tools.coll tools.codec m it := by
  simp only [step, run, embedTextIt, hparse]
  rfl

theorem step_setIt_error {m : C} {text e : String}
    (hparse : tools.codec.parseText text = .error e) : tools.step m (.setIt text) = m := by
  simp only [step, run, embedTextIt, hparse]
  rfl

theorem kept_step (m : C) (command : Command Version) :
    tools.kept (tools.step m command) = tools.kept m := by
  cases command with
  | build sdkVersion =>
    cases hrun : tools.run m (.build sdkVersion) with
    | error e => rw [step, hrun]
    | ok m' =>
      obtain ⟨_, _, -, -, hcarries⟩ := carries_build hrun
      rw [step, hrun, hcarries.kept]
  | setIt text =>
    cases hparse : tools.codec.parseText text with
    | error e => rw [step_setIt_error hparse]
    | ok it =>
      rw [step_setIt_ok hparse]
      exact kept_of_other (.inl rfl) (otherSections_embedIt tools.coll tools.codec m it)
  | setVersion version => exact (tools.embedVersion_sections m version).1

theorem kept_commands (m : C) (commands : List (Command Version)) :
    tools.kept (commands.foldl tools.step m) = tools.kept m := by
  induction commands generalizing m with
  | nil => rfl
  | cons command commands ih => rw [List.foldl_cons, ih, kept_step]

section Steps

variable {kept : List CustomSection} {its : List (ItSection Version)} {version : Version}

theorem carries_setVersion (h : tools.Carries m kept its version) (version' : Version) :
    tools.Carries (tools.step m (.setVersion version')) kept its version' := by
  obtain ⟨hkept, hits, hversion⟩ := tools.embedVersion_sections m version'
  exact ⟨hkept.trans h.kept, hits.trans h.its, hversion⟩

/-- The sections that `marine set it` finds stay. -/
theorem carries_setIt (h : tools.Carries m kept its version) (text : String) :
    tools.Carries (tools.step m (.setIt text)) kept
      (its ++ (tools.codec.parseText text).toOption.toList) version := by
  refine ⟨(kept_step m _).trans h.kept, ?_, ?_⟩
  · cases hparse : tools.codec.parseText text with
    | error e => simpa [step_setIt_error hparse, Except.toOption] using h.its
    | ok it =>
      have hadded := customSections_embedIt tools.coll tools.codec m it
      rw [← Tools.its, ← Tools.its, h.its] at hadded
      rw [step_setIt_ok hparse, hadded, List.map_append]
      rfl
  · cases hparse : tools.codec.parseText text with
    | error e =>
      rw [step_setIt_error hparse]
      exact h.version
    | ok it =>
      rw [step_setIt_ok hparse]
      exact (customSections_of_other tools.sdk.version_ne_it
        (otherSections_embedIt tools.coll tools.codec m it)).trans h.version

end Steps

/-! ## Runs -/

/-- The interface types that a command adds to those that are there. -/
def added (tools : Tools C Id Version) : Command Version → List (ItSection Version)
  | .setIt text => (tools.codec.parseText text).toOption.toList
  | _ => []

end Tools

def Command.IsBuild : Command Version → Prop
  | .build _ => True
  | _ => False

/-- The version that a command leaves. -/
def Command.leaves (version : Version) : Command Version → Version
  | .setIt _ => version
  | .build version' | .setVersion version' => version'

namespace Tools

variable {tools : Tools C Id Version} {m m' : C}

/-- **Run lemma.** -/
theorem carries_commands {kept : List CustomSection} {its : List (ItSection Version)}
    {version : Version} (h : tools.Carries m kept its version) {commands : List (Command Version)}
    (hno : ∀ command ∈ commands, ¬ command.IsBuild) :
    tools.Carries (commands.foldl tools.step m) kept (its ++ commands.flatMap tools.added)
      (commands.foldl Command.leaves version) := by
  induction commands generalizing m its version with
  | nil => simpa using h
  | cons command commands ih =>
    have hrest : ∀ command ∈ commands, ¬ command.IsBuild :=
      fun other hother => hno other (List.mem_cons_of_mem _ hother)
    rw [List.foldl_cons, List.foldl_cons, List.flatMap_cons, ← List.append_assoc]
    cases command with
    | build sdkVersion => exact absurd trivial (hno _ (List.mem_cons_self ..))
    | setIt text => exact ih (carries_setIt h text) hrest
    | setVersion version' =>
      have hnext := ih (carries_setVersion h version') hrest
      have hnone : tools.added (.setVersion version') = [] := rfl
      rwa [hnone, List.append_nil]

/-- What the readers make of it. -/
theorem Carries.readers {kept : List CustomSection} {it : ItSection Version}
    {its : List (ItSection Version)} {version : Version}
    (h : tools.Carries m kept (it :: its) version) :
    (ReadsIt tools.coll tools.codec m it ↔ its = []) ∧
      (its ≠ [] → extractItFromModule tools.coll tools.codec m = .error .multipleITSections) ∧
      ReadsVersion tools.coll tools.sdk.toSemVer m version := by
  have hsections : customSections tools.coll m itSectionName =
      (it :: its).map tools.codec.toBytes := h.its
  refine ⟨⟨fun hreads => ?_, ?_⟩, fun hne => ?_, ?_⟩
  · have hlen := length_customSections_of_extractItFromModule tools.coll tools.codec
      hreads.interfaces
    rw [hsections, List.length_map, List.length_cons] at hlen
    exact List.length_eq_zero_iff.mp (by omega)
  · rintro rfl
    exact readsIt_of_customSections tools.coll tools.codec hsections
  · obtain ⟨second, rest, rfl⟩ := List.exists_cons_of_ne_nil hne
    rw [extractItFromModule, hsections]
    rfl
  · exact readsVersion_of_customSections tools.coll tools.sdk.toSemVer h.version

end Tools

/-! ## An encoding of interface types

Interfaces can be counted, so as many zero bytes stand for them. -/

instance encodableString : Encodable String :=
  .ofLeftInverse (fun s => s.toList.map Char.toNat) (fun l => String.ofList (l.map Char.ofNat))
    fun s => by simp [Function.comp_def]

/-- The types with nothing inside. -/
def scalarTypes : List IType :=
  [.boolean, .s8, .s16, .s32, .s64, .u8, .u16, .u32, .u64, .f32, .f64, .string, .byteArray, .i32,
    .i64]

def encodeType : IType → List Nat
  | .array elem => 0 :: encodeType elem
  | .record id => [1, id]
  | ty => [2 + scalarTypes.idxOf ty]

def decodeType : List Nat → IType
  | 0 :: l => .array (decodeType l)
  | [1, id] => .record id
  | n :: _ => scalarTypes.getD (n - 2) .boolean
  | [] => .boolean

theorem decodeType_encodeType (ty : IType) : decodeType (encodeType ty) = ty := by
  induction ty with
  | array elem ih => rw [encodeType, decodeType, ih]
  | _ => rfl

instance encodableIType : Encodable IType :=
  .ofLeftInverse encodeType decodeType decodeType_encodeType

/-- The instructions without operands. -/
def plainInstructions : List Instruction :=
  [.boolFromI32, .s8FromI32, .s16FromI32, .s32FromI32, .s64FromI64, .i32FromBool, .i32FromS8,
    .i32FromS16, .i32FromS32, .i64FromS64, .u8FromI32, .u16FromI32, .u32FromI32, .u64FromI64,
    .i32FromU8, .i32FromU16, .i32FromU32, .i64FromU64, .stringLiftMemory, .stringLowerMemory,
    .stringSize, .byteArrayLiftMemory, .dup, .swap2]

def encodeInstruction : Instruction → Nat × Nat × IType
  | .argumentGet index => (0, index, .boolean)
  | .callCore functionIndex => (1, functionIndex, .boolean)
  | .arrayLiftMemory valueType => (2, 0, valueType)
  | .arrayLowerMemory valueType => (3, 0, valueType)
  | .recordLiftMemory id => (4, id, .boolean)
  | .recordLowerMemory id => (5, id, .boolean)
  | .pushI32 value => (6, value.toUInt32.toNat, .boolean)
  | instruction => (7 + plainInstructions.idxOf instruction, 0, .boolean)

def decodeInstruction : Nat × Nat × IType → Instruction
  | (0, index, _) => .argumentGet index
  | (1, functionIndex, _) => .callCore functionIndex
  | (2, _, valueType) => .arrayLiftMemory valueType
  | (3, _, valueType) => .arrayLowerMemory valueType
  | (4, id, _) => .recordLiftMemory id
  | (5, id, _) => .recordLowerMemory id
  | (6, value, _) => .pushI32 (UInt32.ofNat value).toInt32
  | (n, _, _) => plainInstructions.getD (n - 7) .dup

theorem decodeInstruction_encodeInstruction (i : Instruction) :
    decodeInstruction (encodeInstruction i) = i := by
  cases i with
  | pushI32 value => simp [encodeInstruction, decodeInstruction]
  | _ => rfl

instance encodableInstruction : Encodable Instruction :=
  .ofLeftInverse encodeInstruction decodeInstruction decodeInstruction_encodeInstruction

def encodeAstType : AstType →
    (List (String × IType) × List IType) ⊕ (String × List (String × IType))
  | .function arguments outputTypes => .inl (arguments.map fun a => (a.name, a.ty), outputTypes)
  | .record r => .inr (r.name, r.fields.map fun f => (f.name, f.ty))

def decodeAstType : (List (String × IType) × List IType) ⊕ (String × List (String × IType)) →
    AstType
  | .inl (arguments, outputTypes) => .function (arguments.map fun a => ⟨a.1, a.2⟩) outputTypes
  | .inr (name, fields) => .record ⟨name, fields.map fun f => ⟨f.1, f.2⟩⟩

theorem decodeAstType_encodeAstType (ty : AstType) : decodeAstType (encodeAstType ty) = ty := by
  cases ty with
  | function arguments outputTypes => simp [encodeAstType, decodeAstType, Function.comp_def]
  | record r => simp [encodeAstType, decodeAstType, Function.comp_def]

instance encodableAstType : Encodable AstType :=
  .ofLeftInverse encodeAstType decodeAstType decodeAstType_encodeAstType

instance encodableInterfaces : Encodable Interfaces :=
  .ofLeftInverse
    (fun I => (I.types, I.imports.map fun i => (i.nameSpace, i.name, i.functionType),
      I.adapters.map fun a => (a.functionType, a.instructions),
      I.exports.map fun e => (e.name, e.functionType),
      I.implementations.map fun i => (i.coreFunctionType, i.adapterFunctionType)))
    (fun (types, imports, adapters, exports, implementations) =>
      ⟨types, imports.map fun i => ⟨i.1, i.2.1, i.2.2⟩, adapters.map fun a => ⟨a.1, a.2⟩,
        exports.map fun e => ⟨e.1, e.2⟩, implementations.map fun i => ⟨i.1, i.2⟩⟩)
    fun I => by simp [Function.comp_def]

/-- Besides its version a text may declare the type of a function. -/
def parseFuncText (it : String) : Except String (ItSection String) :=
  match itVersionOf it with
  | none => .error "it_version is missing"
  | some version =>
    if "(@interface type (func))".toList.isSuffixOf it.toList then
      .ok ⟨version, ⟨[.function [] []], [], [], [], []⟩⟩
    else .ok ⟨version, ⟨[], [], [], [], []⟩⟩

/-- Interfaces are kept by their number. -/
def countingCodec : ItCodec (ItSection String) String where
  toBytes it := List.replicate (Encodable.encode (it.version, it.interfaces)) 0
  parseBytes bytes :=
    match (Encodable.decode bytes.length : Option (String × Interfaces)) with
    | some it => .ok ([], ⟨it.1, it.2⟩)
    | none => .error "not interface types"
  parseText := parseFuncText
  toText it := versionDirective ++ it.version ++ "\")"
  version it := it.version
  parseBytes_toBytes it := by simp

/-- The section of the function `greet`, as the SDK writes it. -/
def greetJson : String :=
  "\x7b\"ast_type\":\"Function\",\"signature\":\x7b\"name\":\"greet\"," ++
    "\"arguments\":[],\"output_types\":[]\x7d\x7d"

/-- The one section that is known describes the function `greet`. -/
def greetSdk : Sdk String where
  toSemVer := textSemVer
  generatedSectionPrefix := "__m_generated_section__"
  generatedSectionPrefixFce := "__fce_generated_section__"
  fromSlice bytes :=
    if bytes = Utf8.encode greetJson then .ok (.function ⟨⟨"greet", [], []⟩⟩)
    else .error "EOF while parsing a value"
  version_ne_it := by decide
  it_apart := by decide
  version_apart := by decide

def greetTools : Tools (List (Option CustomSection)) Nat String where
  coll := tombstones
  codec := countingCodec
  sdk := greetSdk
  deps := crateExternals
  itVersion := "0.26.1"

def greetWasm : List (Option CustomSection) :=
  [some ⟨"__m_generated_section__greet", Utf8.encode greetJson⟩, some ⟨"name", []⟩]

open Tools

/-- **What is read back.**  Whatever is done before a build and after it: the interface
types are those of the description in the module, which no command changes.  They are
read, with the last version, exactly if nothing was set after the build; otherwise no
reader accepts the module, until it is built again. -/
theorem commands_readBack {tools : Tools C Id Version} {m built : C}
    {before after : List (Command Version)} {sdkVersion : Version}
    (h : tools.run (before.foldl tools.step m) (.build sdkVersion) = .ok built)
    (hafter : ∀ command ∈ after, ¬ command.IsBuild) :
    ∃ moduleAst interfaces, tools.wasmAstExtractor m = .ok moduleAst ∧
      generateInterfaces tools.deps moduleAst = .ok interfaces ∧
      tools.kept (after.foldl tools.step built) = tools.kept m ∧
      (ReadsIt tools.coll tools.codec (after.foldl tools.step built)
        ⟨tools.itVersion, interfaces⟩ ↔ after.flatMap tools.added = []) ∧
      (after.flatMap tools.added ≠ [] → extractItFromModule tools.coll tools.codec
        (after.foldl tools.step built) = .error .multipleITSections) ∧
      ReadsVersion tools.coll tools.sdk.toSemVer (after.foldl tools.step built)
        (after.foldl Command.leaves sdkVersion) ∧
      ∀ sdkVersion', ∃ rebuilt,
        tools.run (after.foldl tools.step built) (.build sdkVersion') = .ok rebuilt := by
  obtain ⟨moduleAst, interfaces, hast, hgenerated, hbuilt⟩ := carries_build h
  have hcarries := carries_commands hbuilt hafter
  have hkept : tools.kept (after.foldl tools.step built) = tools.kept m :=
    hcarries.kept.trans (kept_commands m before)
  obtain ⟨hreads, hmany, hversion⟩ := hcarries.readers
  rw [wasmAstExtractor_congr (kept_commands m before)] at hast
  refine ⟨moduleAst, interfaces, hast, hgenerated, hkept, hreads, hmany, hversion, ?_⟩
  intro sdkVersion'
  exact build_ok ((wasmAstExtractor_congr hkept).trans hast) hgenerated

/-- The version can be set after a build; interface types cannot. -/
theorem commands_readBack_greet : ∃ built,
    greetTools.run greetWasm (.build "0.7.0") = .ok built ∧
    ReadsVersion tombstones textSemVer (greetTools.step built (.setVersion "0.8.0")) "0.8.0" ∧
    extractItFromModule tombstones countingCodec (greetTools.step built (.setIt funcText)) =
      .error .multipleITSections := by
  have hbuilt : ∃ built, greetTools.run greetWasm (.build "0.7.0") = .ok built := ⟨_, rfl⟩
  obtain ⟨built, hbuilt⟩ := hbuilt
  have hversion : ∀ command ∈ [Command.setVersion "0.8.0"], ¬ command.IsBuild := by
    simp [Command.IsBuild]
  have hit : ∀ command ∈ [(Command.setIt funcText : Command String)], ¬ command.IsBuild := by
    simp [Command.IsBuild]
  have hfirst : greetTools.run (([] : List (Command String)).foldl greetTools.step greetWasm)
      (.build "0.7.0") = .ok built := hbuilt
  obtain ⟨_, _, -, -, -, -, -, hreads, -⟩ := commands_readBack hfirst hversion
  obtain ⟨_, _, -, -, -, -, hmany, -⟩ := commands_readBack hfirst hit
  exact ⟨built, hbuilt, hreads, hmany (List.cons_ne_nil _ _)⟩

end Marine.Cli
