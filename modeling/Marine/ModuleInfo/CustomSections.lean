import Marine.Lib.Bytes
import Marine.Lib.Collections
import Marine.Lib.Fallible

/-!
# Custom sections

The writers and the readers of the two custom sections that the tools put into
a Wasm module: the interface types (`crates/it-parser`) and the version of the
SDK (`crates/module-info-parser`).  The custom sections of `walrus` are a
collection with identifiers; `wasmer_it` and `semver` enter as `ItCodec` and
`SemVer`.

* `customSections_add`, `customSections_replace`: what a writer leaves behind.
* `readsIt_iff`: the readers of the interface agree, and they want one section.
* `replaces_iff`: an embedding replaces what was there.
-/

namespace Marine.CustomSections

open Collections

structure CustomSection where
  name : String
  data : List UInt8
  deriving DecidableEq, Repr

/-- `IT_SECTION_NAME`. -/
def itSectionName : String := "interface-types"

inductive ITParserError
  | noITSection
  | multipleITSections
  | itRemainderNotEmpty
  | corruptedITSection (text : String)
  | corruptedITFile (text : String)
  deriving DecidableEq, Repr

inductive SDKVersionError
  | versionNotValidUtf8 (text : String)
  | versionCorrupted (text : String)
  deriving DecidableEq, Repr

inductive ModuleInfoError
  | noCustomSection (name : String)
  | multipleCustomSections (name : String) (count : Nat)
  | versionError (e : SDKVersionError)
  deriving DecidableEq, Repr

/-- The encoder, the decoder, the parser and the printer of `wasmer_it`; what is
encoded is decoded without a remainder. -/
structure ItCodec (It Version : Type) where
  toBytes : It → List UInt8
  parseBytes : List UInt8 → Except String (List UInt8 × It)
  parseText : String → Except String It
  toText : It → String
  version : It → Version
  parseBytes_toBytes : ∀ it, parseBytes (toBytes it) = .ok ([], it)

/-- Printing and parsing of `semver`, the text of a `Utf8Error` and
`VERSION_SECTION_NAME` of the SDK. -/
structure SemVer (Version : Type) where
  print : Version → String
  fromStr : String → Except String Version
  utf8Error : List UInt8 → String
  versionSectionName : String
  fromStr_print : ∀ v, fromStr (print v) = .ok v

section Model

variable {C Id It Version : Type} [DecidableEq Id]
variable (coll : Collection C Id CustomSection) (codec : ItCodec It Version)
variable (semver : SemVer Version)

/-! ## Writers -/

def deleteItSection (wasmModule : C) : C :=
  coll.deleteWhere (fun section_ => section_.name == itSectionName) wasmModule

def embedIt (wasmModule : C) (interfaces : It) : C :=
  coll.add wasmModule ⟨itSectionName, codec.toBytes interfaces⟩

/-- `embed_it` of the generator, for the interfaces it has generated. -/
def generatorEmbedIt (wasmModule : C) (interfaces : It) : C :=
  embedIt coll codec (deleteItSection coll wasmModule) interfaces

/-- Here no section is deleted. -/
def embedTextIt (wasmModule : C) (it : String) : Except ITParserError C := do
  let ast ← (codec.parseText it).mapError .corruptedITFile
  return embedIt coll codec wasmModule ast

def deleteVersionSections (wasmModule : C) : C :=
  coll.deleteWhere (fun section_ => section_.name == semver.versionSectionName) wasmModule

def embedFromModule (wasmModule : C) (version : Version) : C :=
  coll.add (deleteVersionSections coll semver wasmModule)
    ⟨semver.versionSectionName, Utf8.encode (semver.print version)⟩

/-! ## Readers -/

/-- The data of the sections of a name: of a `walrus::Module`, and of a compiled
module through `custom_sections` of a backend. -/
def customSections (wasmModule : C) (name : String) : List (List UInt8) :=
  ((coll.items wasmModule).filter fun section_ => section_.name = name).map (·.data)

def extractItFromBytes (witSectionBytes : List UInt8) : Except ITParserError It :=
  match codec.parseBytes witSectionBytes with
  | .ok ([], it) => .ok it
  | .ok _ => .error .itRemainderNotEmpty
  | .error e => .error (.corruptedITSection e)

def extractCustomSection (wasmModule : C) : Except ITParserError (List UInt8) :=
  match customSections coll wasmModule itSectionName with
  | [] => .error .noITSection
  | [data] => .ok data
  | _ => .error .multipleITSections

def extractTextIt (wasmModule : C) : Except ITParserError String := do
  let witSectionBytes ← extractCustomSection coll wasmModule
  let it ← extractItFromBytes codec witSectionBytes
  return codec.toText it

/-- The reader of the runtime, over the sections that the backend lists. -/
def extractItFromModule (wasmModule : C) : Except ITParserError It := do
  let itSection ← match customSections coll wasmModule itSectionName with
    | [] => .error .noITSection
    | [itSection] => .ok itSection
    | _ => .error .multipleITSections
  extractItFromBytes codec itSection

def extractVersionFromModule (wasmModule : C) : Except ITParserError Version := do
  let witSectionBytes ← extractCustomSection coll wasmModule
  let it ← extractItFromBytes codec witSectionBytes
  return codec.version it

def tryAsOneSection (sections : List (List UInt8)) (sectionName : String) :
    Except ModuleInfoError (List UInt8) :=
  match sections with
  | [] => .error (.noCustomSection sectionName)
  | [data] => .ok data
  | _ => .error (.multipleCustomSections sectionName sections.length)

def asSemver (versionAsBytes : List UInt8) : Except SDKVersionError Version :=
  match Utf8.decode versionAsBytes with
  | some s => (semver.fromStr s).mapError .versionCorrupted
  | none => .error (.versionNotValidUtf8 (semver.utf8Error versionAsBytes))

/-- The common part of `extract_from_module` and `extract_from_compiled_module`. -/
def extractVersion (sections : List (List UInt8)) : Except ModuleInfoError Version := do
  let data ← tryAsOneSection sections semver.versionSectionName
  (asSemver semver data).mapError .versionError

def extractFromModule (wasmModule : C) : Except ModuleInfoError Version :=
  extractVersion semver (customSections coll wasmModule semver.versionSectionName)

/-- The reader of the runtime, over the sections that the backend lists. -/
def extractFromCompiledModule (wasmModule : C) : Except ModuleInfoError Version :=
  extractVersion semver (customSections coll wasmModule semver.versionSectionName)

/-! ## What a reader sees -/

/-- The sections of all other names, in their order. -/
def otherSections (wasmModule : C) (name : String) : List CustomSection :=
  (coll.items wasmModule).filter fun section_ => section_.name ≠ name

theorem customSections_add (m : C) (section_ : CustomSection) :
    customSections coll (coll.add m section_) section_.name =
      customSections coll m section_.name ++ [section_.data] := by
  simp [customSections, coll.items_add]

theorem otherSections_add (m : C) (section_ : CustomSection) :
    otherSections coll (coll.add m section_) section_.name =
      otherSections coll m section_.name := by
  simp [otherSections, coll.items_add]

/-- A section that is added after all of its name were deleted is the only one. -/
theorem customSections_replace (m : C) (section_ : CustomSection) :
    customSections coll
        (coll.add (coll.deleteWhere (fun other => other.name == section_.name) m) section_)
        section_.name = [section_.data] := by
  have hnone : customSections coll
      (coll.deleteWhere (fun other => other.name == section_.name) m) section_.name = [] := by
    rw [customSections, coll.items_deleteWhere, List.filter_filter, List.map_eq_nil_iff,
      List.filter_eq_nil_iff]
    intro other _
    simp
  rw [customSections_add, hnone]
  rfl

theorem otherSections_replace (m : C) (section_ : CustomSection) :
    otherSections coll
        (coll.add (coll.deleteWhere (fun other => other.name == section_.name) m) section_)
        section_.name = otherSections coll m section_.name := by
  rw [otherSections_add, otherSections, coll.items_deleteWhere, List.filter_filter, otherSections]
  apply List.filter_congr
  intro other _
  by_cases hname : other.name = section_.name
  · simp [hname]
  · simp [hname]

theorem customSections_embedIt (m : C) (it : It) :
    customSections coll (embedIt coll codec m it) itSectionName =
      customSections coll m itSectionName ++ [codec.toBytes it] :=
  customSections_add coll m ⟨itSectionName, codec.toBytes it⟩

theorem otherSections_embedIt (m : C) (it : It) :
    otherSections coll (embedIt coll codec m it) itSectionName =
      otherSections coll m itSectionName :=
  otherSections_add coll m ⟨itSectionName, codec.toBytes it⟩

theorem customSections_generatorEmbedIt (m : C) (it : It) :
    customSections coll (generatorEmbedIt coll codec m it) itSectionName =
      [codec.toBytes it] :=
  customSections_replace coll m ⟨itSectionName, codec.toBytes it⟩

theorem otherSections_generatorEmbedIt (m : C) (it : It) :
    otherSections coll (generatorEmbedIt coll codec m it) itSectionName =
      otherSections coll m itSectionName :=
  otherSections_replace coll m ⟨itSectionName, codec.toBytes it⟩

theorem customSections_embedFromModule (m : C) (v : Version) :
    customSections coll (embedFromModule coll semver m v) semver.versionSectionName =
      [Utf8.encode (semver.print v)] :=
  customSections_replace coll m ⟨semver.versionSectionName, Utf8.encode (semver.print v)⟩

theorem otherSections_embedFromModule (m : C) (v : Version) :
    otherSections coll (embedFromModule coll semver m v) semver.versionSectionName =
      otherSections coll m semver.versionSectionName :=
  otherSections_replace coll m ⟨semver.versionSectionName, Utf8.encode (semver.print v)⟩

/-! ## Readers of the embedded values -/

/-- Every reader of the interface returns `it`. -/
structure ReadsIt (m : C) (it : It) : Prop where
  text : extractTextIt coll codec m = .ok (codec.toText it)
  interfaces : extractItFromModule coll codec m = .ok it
  version : extractVersionFromModule coll codec m = .ok (codec.version it)

theorem extractItFromBytes_toBytes (it : It) :
    extractItFromBytes codec (codec.toBytes it) = .ok it := by
  rw [extractItFromBytes, codec.parseBytes_toBytes]

theorem readsIt_of_customSections {m : C} {it : It}
    (h : customSections coll m itSectionName = [codec.toBytes it]) : ReadsIt coll codec m it := by
  have hdata : extractCustomSection coll m = .ok (codec.toBytes it) := by
    rw [extractCustomSection, h]
  have hit := extractItFromBytes_toBytes codec it
  refine ⟨?_, ?_, ?_⟩
  · rw [extractTextIt, hdata]
    show (extractItFromBytes codec (codec.toBytes it) >>= _) = _
    rw [hit]
    rfl
  · rw [extractItFromModule, h]
    exact hit
  · rw [extractVersionFromModule, hdata]
    show (extractItFromBytes codec (codec.toBytes it) >>= _) = _
    rw [hit]
    rfl

/-- A reader returns only on a module with one section. -/
theorem length_customSections_of_extractItFromModule {m : C} {it : It}
    (h : extractItFromModule coll codec m = .ok it) :
    (customSections coll m itSectionName).length = 1 := by
  rw [extractItFromModule] at h
  generalize customSections coll m itSectionName = sections at h
  match sections with
  | [] => cases h
  | [_] => rfl
  | _ :: _ :: _ => cases h

/-- **The readers of the interface** after an interface was embedded: they return
it exactly when the module had no such section before. -/
theorem readsIt_iff (m : C) (it : It) :
    ReadsIt coll codec (embedIt coll codec m it) it ↔ customSections coll m itSectionName = [] := by
  constructor
  · intro h
    have hlen := length_customSections_of_extractItFromModule coll codec h.interfaces
    rw [customSections_embedIt, List.length_append, List.length_singleton] at hlen
    apply List.length_eq_zero_iff.mp
    omega
  · intro h
    apply readsIt_of_customSections
    rw [customSections_embedIt, h]
    rfl

/-- Both readers of the version return `v`. -/
structure ReadsVersion (m : C) (v : Version) : Prop where
  module : extractFromModule coll semver m = .ok v
  compiledModule : extractFromCompiledModule coll semver m = .ok v

theorem extractVersion_print (v : Version) :
    extractVersion semver [Utf8.encode (semver.print v)] = .ok v := by
  show (asSemver semver (Utf8.encode (semver.print v))).mapError _ = _
  rw [asSemver, Utf8.decode_encode]
  show ((semver.fromStr (semver.print v)).mapError _).mapError _ = _
  rw [semver.fromStr_print]
  rfl

theorem readsVersion_of_customSections {m : C} {v : Version}
    (h : customSections coll m semver.versionSectionName = [Utf8.encode (semver.print v)]) :
    ReadsVersion coll semver m v := by
  have hv := extractVersion_print semver v
  rw [← h] at hv
  exact ⟨hv, hv⟩

/-! ## The three ways of embedding -/

inductive EmbeddingPath
  | itGenerator
  | setIt
  | setVersion
  deriving DecidableEq, Repr

/-- A value on its way into a module: generated interfaces, the text that is
given to `marine set it`, or the version that is given to `marine set version`. -/
inductive Embedding (It Version : Type)
  | generated (it : It)
  | text (it : String)
  | version (v : Version)

namespace Embedding

def path : Embedding It Version → EmbeddingPath
  | generated _ => .itGenerator
  | text _ => .setIt
  | version _ => .setVersion

def sectionName : Embedding It Version → String
  | generated _ | text _ => itSectionName
  | version _ => semver.versionSectionName

def run (m : C) : Embedding It Version → Except ITParserError C
  | generated it => .ok (generatorEmbedIt coll codec m it)
  | text it => embedTextIt coll codec m it
  | version v => .ok (embedFromModule coll semver m v)

/-- The readers return the embedded value. -/
def ReadBack (m : C) : Embedding It Version → Prop
  | generated it => ReadsIt coll codec m it
  | text s => ∃ it, codec.parseText s = .ok it ∧ ReadsIt coll codec m it
  | version v => ReadsVersion coll semver m v

/-- Whatever module comes out, extraction from it returns the embedded value, and
the sections of other names are those of before. -/
def Replaces (e : Embedding It Version) (m : C) : Prop :=
  ∀ m', e.run coll codec semver m = .ok m' → e.ReadBack coll codec semver m' ∧
    otherSections coll m' (e.sectionName semver) = otherSections coll m (e.sectionName semver)

/-- A text that `marine set it` accepts. -/
def AcceptedText (e : Embedding It Version) : Prop :=
  ∃ s it, e = .text s ∧ codec.parseText s = .ok it

variable {coll codec semver}

theorem replaces_generated (m : C) (it : It) :
    (generated it : Embedding It Version).Replaces coll codec semver m := by
  intro m' hrun
  cases hrun
  refine ⟨?_, otherSections_generatorEmbedIt coll codec m it⟩
  exact readsIt_of_customSections coll codec (customSections_generatorEmbedIt coll codec m it)

theorem replaces_version (m : C) (v : Version) :
    (version v : Embedding It Version).Replaces coll codec semver m := by
  intro m' hrun
  cases hrun
  refine ⟨?_, otherSections_embedFromModule coll semver m v⟩
  exact readsVersion_of_customSections coll semver
    (customSections_embedFromModule coll semver m v)

theorem run_text_eq_ok_iff {m m' : C} {s : String} :
    (text s : Embedding It Version).run coll codec semver m = .ok m' ↔
      ∃ it, codec.parseText s = .ok it ∧ m' = embedIt coll codec m it := by
  show embedTextIt coll codec m s = .ok m' ↔ _
  rw [embedTextIt]
  cases codec.parseText s with
  | error e =>
    constructor
    · intro h
      cases h
    · rintro ⟨_, hparse, _⟩
      cases hparse
  | ok it =>
    constructor
    · intro h
      cases h
      exact ⟨it, rfl, rfl⟩
    · rintro ⟨_, hparse, rfl⟩
      cases hparse
      rfl

theorem replaces_text_iff {m : C} {s : String} {it : It} (hparse : codec.parseText s = .ok it) :
    (text s : Embedding It Version).Replaces coll codec semver m ↔
      customSections coll m itSectionName = [] := by
  constructor
  · intro h
    obtain ⟨⟨it', hparse', hreads⟩, _⟩ := h _ (run_text_eq_ok_iff.mpr ⟨it, hparse, rfl⟩)
    have hsame : it = it' := by
      rw [hparse, Except.ok.injEq] at hparse'
      exact hparse'
    rw [← hsame] at hreads
    exact (readsIt_iff coll codec m it).mp hreads
  · intro hnone m' hrun
    obtain ⟨it', hparse', rfl⟩ := run_text_eq_ok_iff.mp hrun
    refine ⟨⟨it', hparse', ?_⟩, otherSections_embedIt coll codec m it'⟩
    exact (readsIt_iff coll codec m it').mpr hnone

/-- **One embedding** replaces what was there, unless `marine set it` meets a
section of interface types. -/
theorem replaces_iff (e : Embedding It Version) (m : C) :
    e.Replaces coll codec semver m ↔
      (e.AcceptedText codec → customSections coll m itSectionName = []) := by
  cases e with
  | generated it =>
    refine iff_of_true (replaces_generated m it) ?_
    rintro ⟨_, _, h, _⟩
    cases h
  | version v =>
    refine iff_of_true (replaces_version m v) ?_
    rintro ⟨_, _, h, _⟩
    cases h
  | text s =>
    cases hparse : codec.parseText s with
    | error err =>
      refine iff_of_true ?_ ?_
      · intro m' hrun
        obtain ⟨it, hit, _⟩ := run_text_eq_ok_iff.mp hrun
        rw [hparse] at hit
        cases hit
      · rintro ⟨_, it, h, hit⟩
        cases h
        rw [hparse] at hit
        cases hit
    | ok it =>
      rw [replaces_text_iff hparse]
      constructor
      · intro hnone _
        exact hnone
      · intro h
        exact h ⟨s, it, rfl, hparse⟩

/-- After `marine set it` the module has a section of interface types. -/
theorem customSections_ne_nil_of_run_text {m m' : C} {s : String}
    (h : (text s : Embedding It Version).run coll codec semver m = .ok m') :
    customSections coll m' itSectionName ≠ [] := by
  obtain ⟨it, _, rfl⟩ := run_text_eq_ok_iff.mp h
  rw [customSections_embedIt]
  simp

/-- **Two embeddings on one path.**  The first replaces what was there unless it is
`marine set it` on a module with a section of interface types; a second one does
so unless it is `marine set it`. -/
theorem embeddings_replace_iff (m : C) (e e' : Embedding It Version) :
    (e.Replaces coll codec semver m ↔
      (e.AcceptedText codec → customSections coll m itSectionName = [])) ∧
    ∀ m', e.run coll codec semver m = .ok m' → e'.path = e.path →
      (e'.Replaces coll codec semver m' ↔ ¬ e'.AcceptedText codec) := by
  refine ⟨replaces_iff e m, ?_⟩
  intro m' hrun hpath
  rw [replaces_iff e' m']
  constructor
  · intro hnone haccepted
    obtain ⟨s', it', rfl, hparse⟩ := haccepted
    cases e with
    | generated _ => cases hpath
    | version _ => cases hpath
    | text s =>
      exact customSections_ne_nil_of_run_text hrun (hnone ⟨s', it', rfl, hparse⟩)
  · intro hrefused haccepted
    exact absurd haccepted hrefused

end Embedding

end Model

/-- How a text of interface types begins. -/
def versionDirective : String := "(@interface it_version \""

/-- The version that a text gives, which comes first in it. -/
def itVersionOf (it : String) : Option String :=
  if versionDirective.toList.isPrefixOf it.toList then
    some (String.ofList ((it.toList.drop versionDirective.length).takeWhile (· != '"')))
  else none

/-- Interfaces that are kept as their text, which is refused if it gives no version. -/
def textCodec : ItCodec String String where
  toBytes it := Utf8.encode it
  parseBytes bytes :=
    match Utf8.decode bytes with
    | some it => .ok ([], it)
    | none => .error "not a text"
  parseText it := if (itVersionOf it).isSome then .ok it else .error "it_version is missing"
  toText it := it
  version it := (itVersionOf it).getD ""
  parseBytes_toBytes it := by rw [Utf8.decode_encode]

/-- A version and the type of one function. -/
def funcText : String := "(@interface it_version \"0.20.0\") (@interface type (func))"

/-- Versions that are kept as their text. -/
def textSemVer : SemVer String where
  print v := v
  fromStr s := .ok s
  utf8Error _ := "invalid utf-8"
  versionSectionName := "version"
  fromStr_print _ := rfl

/-- `marine set it` twice on a module without custom sections: the second time
leaves two sections of interface types, which no reader accepts. -/
theorem embedTextIt_twice :
    ∃ once twice : List (Option CustomSection),
      embedTextIt tombstones textCodec [] funcText = .ok once ∧
      extractVersionFromModule tombstones textCodec once = .ok "0.20.0" ∧
      embedTextIt tombstones textCodec once funcText = .ok twice ∧
      extractTextIt tombstones textCodec twice = .error .multipleITSections ∧
      extractItFromModule tombstones textCodec twice = .error .multipleITSections ∧
      ¬ (Embedding.text funcText : Embedding String String).Replaces
        tombstones textCodec textSemVer once := by
  have hversion : itVersionOf funcText = some "0.20.0" := by decide
  have hparse : textCodec.parseText funcText = .ok funcText := by simp [textCodec, hversion]
  have hembed : ∀ m, embedTextIt tombstones textCodec m funcText =
      .ok (embedIt tombstones textCodec m funcText) := by
    intro m
    rw [embedTextIt, hparse]
    rfl
  have hreads := (readsIt_iff tombstones textCodec [] funcText).mpr rfl
  refine ⟨_, _, hembed [], ?_, hembed _, rfl, rfl, ?_⟩
  · rw [hreads.version]
    show Except.ok ((itVersionOf funcText).getD "") = _
    rw [hversion]
    rfl
  · intro h
    obtain ⟨⟨it, _, hreads⟩, _⟩ := h _ (hembed _)
    cases hreads.interfaces

end Marine.CustomSections
