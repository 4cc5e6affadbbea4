import Marine.Lib.Maps
import Marine.Lib.Registration

/-!
# Linkers

The functions that a module can import are registered by namespace and name
(`crates/wasmtime-backend/src/imports.rs`, `crates/js-backend/src/imports.rs`).
Wasmtime has a linker, a parameter here, to which it adds the functions of WASI.  The
JS backend has a map of maps, and puts its namespaces over those of WASI when it
instantiates the module.

* `register_agrees`: the two register alike.
* `linking_agrees`: when they accept the imports of a module, and when they give it
  the same functions.
-/

namespace Marine.Backend

open Registration Fallible

/-- A namespace and a name, as `ImportError::DuplicateImport` has them. -/
abbrev ImportKey := String × String

/-! ## Wasmtime -/

/-- `wasmtime::Linker` over functions `F`: `define` fails for a name that is defined, as
shadowing is not allowed. -/
abbrev Linker (L : Type) (F : outParam Type) := Registry L ImportKey F

variable {L F : Type} [Linker L F]

namespace WasmtimeImports

/-- An error of `Linker::define` is a `DuplicateImport`. -/
def insert (linker : L) (module name : String) (func : F) : Except ImportKey L :=
  define linker ((module, name), func)

def register (linker : L) (module : String) (functions : List (String × F)) :
    Except ImportKey L :=
  functions.foldlM (fun linker f => insert linker module f.1 f.2) linker

end WasmtimeImports

/-! ## JS -/

structure JsImports (F : Type) where
  inner : AList fun _ : String => AList fun _ : String => F
  wasiCtx : Option Nat

namespace JsImports

def new : JsImports F := ⟨∅, none⟩

/-- `entry(module_name).or_default()`. -/
def getNamespace (imports : JsImports F) (moduleName : String) : AList fun _ : String => F :=
  (imports.inner.lookup moduleName).getD ∅

def addToNamespace (moduleName : String) (functions : AList fun _ : String => F)
    (f : String × F) : Except ImportKey (AList fun _ : String => F) :=
  if f.1 ∈ functions then .error (moduleName, f.1) else .ok (functions.insert f.1 f.2)

def register (imports : JsImports F) (moduleName : String) (functions : List (String × F)) :
    Except ImportKey (JsImports F) := do
  let registered ← functions.foldlM (addToNamespace moduleName) (imports.getNamespace moduleName)
  return { imports with inner := imports.inner.insert moduleName registered }

def addWasi (imports : JsImports F) (wasiContextId : Nat) : JsImports F :=
  { imports with wasiCtx := some wasiContextId }

/-- What an import finds in the object of `build_import_object`.  `wasi` are the
functions of the WASI object; a namespace of `inner` replaces one of WASI. -/
def resolve (imports : JsImports F) (wasi : List (ImportKey × F)) (module name : String) :
    Option F :=
  match imports.inner.lookup module with
  | some functions => functions.lookup name
  | none => if imports.wasiCtx.isSome then (Maps.collect wasi).lookup (module, name) else none

/-- The map of maps holds what the linker holds. -/
def Agrees (imports : JsImports F) (linker : L) : Prop :=
  ∀ module name, (imports.getNamespace module).lookup name = Registry.lookup linker (module, name)

end JsImports

open JsImports

theorem agrees_new : (JsImports.new : JsImports F).Agrees (Registry.empty : L) := by
  intro module name
  rw [Registry.lookup_empty]
  rfl

/-- One namespace while functions are added to it. -/
theorem foldlM_addToNamespace {module : String} (functions : List (String × F))
    {registered : AList fun _ : String => F} {linker : L}
    (h : ∀ name, registered.lookup name = Registry.lookup linker (module, name)) :
    SameOutcome (fun registered' (linker' : L) =>
        (∀ name, registered'.lookup name = Registry.lookup linker' (module, name)) ∧
          ∀ other name, other ≠ module →
            Registry.lookup linker' (other, name) = Registry.lookup linker (other, name))
      (functions.foldlM (addToNamespace module) registered)
      (WasmtimeImports.register linker module functions) := by
  refine SameOutcome.foldlM (fun f registered' linker' h' => ?_) functions
    ⟨h, fun other name _ => rfl⟩
  have hlookup : registered'.lookup f.1 = Registry.lookup linker' (module, f.1) := h'.1 f.1
  rw [addToNamespace, WasmtimeImports.insert]
  by_cases htaken : f.1 ∈ registered'
  · have hdefined : Registry.lookup linker' (module, f.1) ≠ none := by
      rw [← hlookup, ne_eq, AList.lookup_eq_none, not_not]
      exact htaken
    rw [if_pos htaken, define_of_taken (p := ((module, f.1), f.2)) hdefined]
    exact .error _
  · have hnew : Registry.lookup linker' (module, f.1) = none := by
      rw [← hlookup, AList.lookup_eq_none]
      exact htaken
    obtain ⟨linker'', hdefine⟩ := define_of_free (p := ((module, f.1), f.2)) hnew
    rw [if_neg htaken, hdefine]
    refine .ok ⟨fun name => ?_, fun other name hother => ?_⟩
    · by_cases hname : name = f.1
      · subst hname
        rw [AList.lookup_insert, lookup_define_self hdefine]
      · have hkey : (module, name) ≠ (module, f.1) := by simp [hname]
        rw [AList.lookup_insert_ne hname, lookup_define_ne hdefine hkey, h'.1]
    · have hkey : (other, name) ≠ (module, f.1) := by simp [hother]
      rw [lookup_define_ne hdefine hkey, h'.2 other name hother]

/-- **The backends register alike**: the same functions, or the same duplicate. -/
theorem register_agrees {imports : JsImports F} {linker : L}
    (h : imports.Agrees linker) (module : String) (functions : List (String × F)) :
    SameOutcome Agrees (imports.register module functions)
      (WasmtimeImports.register linker module functions) := by
  refine (foldlM_addToNamespace functions (h module)).mapLeft fun registered linker' hrelated => ?_
  intro other name
  by_cases hother : other = module
  · subst hother
    rw [getNamespace, AList.lookup_insert, Option.getD_some, hrelated.1]
  · rw [getNamespace, AList.lookup_insert_ne hother, ← getNamespace, h, hrelated.2 _ _ hother]

/-! ## The imports of a module -/

/-- Functions by namespace, in the order in which they are registered. -/
abbrev Namespaces (F : Type) := List (String × List (String × F))

def entriesOf (namespaces : Namespaces F) : List (ImportKey × F) :=
  namespaces.flatMap fun p => p.2.map fun f => ((p.1, f.1), f.2)

/-- `register` for each namespace. -/
def WasmtimeImports.registerAll (linker : L) (namespaces : Namespaces F) : Except ImportKey L :=
  namespaces.foldlM (fun linker p => WasmtimeImports.register linker p.1 p.2) linker

/-- `MModule::new`: the imports with an adapter, WASI and the host imports. -/
def WasmtimeImports.link (wit : Namespaces F) (wasi : List (ImportKey × F)) (host : Namespaces F) :
    Except ImportKey L := do
  let linker ← WasmtimeImports.registerAll Registry.empty wit
  let linker ← defineAll linker wasi
  WasmtimeImports.registerAll linker host

def JsImports.link (wit : Namespaces F) (wasiContextId : Nat) (host : Namespaces F) :
    Except ImportKey (JsImports F) := do
  let imports ← wit.foldlM (fun imports p => imports.register p.1 p.2) JsImports.new
  host.foldlM (fun imports p => imports.register p.1 p.2) (imports.addWasi wasiContextId)

theorem register_eq_defineAll (linker : L) (module : String)
    (functions : List (String × F)) :
    WasmtimeImports.register linker module functions =
      defineAll linker (functions.map fun f => ((module, f.1), f.2)) := by
  rw [defineAll, List.foldlM_map]
  rfl

theorem registerAll_eq_defineAll (linker : L) (namespaces : Namespaces F) :
    WasmtimeImports.registerAll linker namespaces =
      defineAll linker (entriesOf namespaces) := by
  induction namespaces generalizing linker with
  | nil => rfl
  | cons p namespaces ih =>
    rw [WasmtimeImports.registerAll, List.foldlM_cons, entriesOf, List.flatMap_cons,
      defineAll_append, register_eq_defineAll]
    exact bind_congr fun linker' => ih linker'

theorem wasmtimeLink_eq_defineAll (wit : Namespaces F) (wasi : List (ImportKey × F))
    (host : Namespaces F) :
    (WasmtimeImports.link wit wasi host : Except ImportKey L) =
      defineAll Registry.empty (entriesOf wit ++ (wasi ++ entriesOf host)) := by
  simp only [WasmtimeImports.link, registerAll_eq_defineAll, defineAll_append]

/-- What JS registers is what Wasmtime registers without WASI. -/
theorem jsLink_agrees (wit : Namespaces F) (wasiContextId : Nat) (host : Namespaces F) :
    SameOutcome Agrees (JsImports.link wit wasiContextId host)
      (defineAll (Registry.empty : L) (entriesOf wit ++ entriesOf host)) := by
  have hregister := fun (p : String × List (String × F)) (imports : JsImports F)
    (linker : L) (h : imports.Agrees linker) => register_agrees h p.1 p.2
  rw [defineAll_append]
  simp only [← registerAll_eq_defineAll]
  refine (SameOutcome.foldlM hregister wit agrees_new).bind fun imports linker h => ?_
  have hwasi : (imports.addWasi wasiContextId).Agrees linker := h
  exact SameOutcome.foldlM hregister host hwasi

theorem wasiCtx_register {imports imports' : JsImports F} {module : String}
    {functions : List (String × F)} (h : imports.register module functions = .ok imports') :
    imports'.wasiCtx = imports.wasiCtx := by
  obtain ⟨registered, -, h⟩ := bind_eq_ok_iff.mp h
  cases h
  rfl

theorem wasiCtx_registerAll {namespaces : Namespaces F} {imports imports' : JsImports F}
    (h : namespaces.foldlM (fun imports p => imports.register p.1 p.2) imports = .ok imports') :
    imports'.wasiCtx = imports.wasiCtx := by
  induction namespaces generalizing imports with
  | nil =>
    cases h
    rfl
  | cons p namespaces ih =>
    rw [List.foldlM_cons] at h
    obtain ⟨next, hregister, hrest⟩ := bind_eq_ok_iff.mp h
    rw [ih hrest, wasiCtx_register hregister]

theorem wasiCtx_link {wit host : Namespaces F} {wasiContextId : Nat} {imports : JsImports F}
    (h : JsImports.link wit wasiContextId host = .ok imports) :
    imports.wasiCtx = some wasiContextId := by
  obtain ⟨registered, -, h⟩ := bind_eq_ok_iff.mp h
  exact wasiCtx_registerAll h

theorem isOk_jsLink_iff {wit host : Namespaces F} {wasiContextId : Nat} :
    (∃ imports, JsImports.link wit wasiContextId host = .ok imports) ↔
      ((entriesOf wit ++ entriesOf host).map Prod.fst).Nodup := by
  have hagrees := jsLink_agrees (L := AList fun _ : ImportKey => F) wit wasiContextId host
  have haccepted : (∃ linker : AList fun _ : ImportKey => F,
      defineAll Registry.empty (entriesOf wit ++ entriesOf host) = .ok linker) ↔ _ :=
    isOk_defineAll_empty_iff
  rw [← haccepted]
  generalize JsImports.link wit wasiContextId host = x at hagrees
  generalize defineAll (Registry.empty : AList fun _ : ImportKey => F) _ = y at hagrees
  cases hagrees with
  | ok => exact ⟨fun _ => ⟨_, rfl⟩, fun _ => ⟨_, rfl⟩⟩
  | error => exact ⟨nofun, nofun⟩

theorem isOk_wasmtimeLink_iff {wit host : Namespaces F} {wasi : List (ImportKey × F)} :
    (∃ linker : L, WasmtimeImports.link wit wasi host = .ok linker) ↔
      ((entriesOf wit ++ (wasi ++ entriesOf host)).map Prod.fst).Nodup := by
  rw [wasmtimeLink_eq_defineAll, isOk_defineAll_empty_iff]

/-- What a JS linker holds, for entries that Wasmtime accepts. -/
theorem lookup_jsLink {wit host : Namespaces F} {wasiContextId : Nat} {imports : JsImports F}
    (h : JsImports.link wit wasiContextId host = .ok imports) {module name : String} {func : F} :
    (imports.getNamespace module).lookup name = some func ↔
      ((module, name), func) ∈ entriesOf wit ++ entriesOf host := by
  have hagrees := jsLink_agrees (L := AList fun _ : ImportKey => F) wit wasiContextId host
  rw [h] at hagrees
  generalize hy : defineAll (Registry.empty : AList fun _ : ImportKey => F)
    (entriesOf wit ++ entriesOf host) = y at hagrees
  cases hagrees with
  | ok hrelated => rw [hrelated, lookup_defineAll_empty hy]

theorem wasi_disjoint {wit wasi host : List (ImportKey × F)}
    (h : (wit.map Prod.fst ++ (wasi.map Prod.fst ++ host.map Prod.fst)).Nodup) {key : ImportKey}
    (hkey : key ∈ wasi.map Prod.fst) : key ∉ (wit ++ host).map Prod.fst := by
  obtain ⟨-, hrest, hwit⟩ := List.nodup_append.mp h
  obtain ⟨-, -, hhost⟩ := List.nodup_append.mp hrest
  rw [List.map_append, List.mem_append]
  rintro (hmem | hmem)
  · exact hwit key hmem key (List.mem_append_left _ hkey) rfl
  · exact hhost key hkey key hmem rfl

/-- **Linking agrees.**  Each backend accepts the imports of a module when no key is
used twice, for Wasmtime with the functions of WASI.  Where both accept them, they
give the module the same functions unless a namespace of WASI is used. -/
theorem linking_agrees (wit host : Namespaces F) (wasi : List (ImportKey × F))
    (wasiContextId : Nat) :
    ((∃ imports, JsImports.link wit wasiContextId host = .ok imports) ↔
      ((entriesOf wit ++ entriesOf host).map Prod.fst).Nodup) ∧
    ((∃ linker : L, WasmtimeImports.link wit wasi host = .ok linker) ↔
      ((entriesOf wit ++ (wasi ++ entriesOf host)).map Prod.fst).Nodup) ∧
    ∀ imports (linker : L), JsImports.link wit wasiContextId host = .ok imports →
      WasmtimeImports.link wit wasi host = .ok linker →
        ((∀ module name, imports.resolve wasi module name =
            Registry.lookup linker (module, name)) ↔
          ∀ key ∈ wasi.map Prod.fst, key.1 ∉ imports.inner) := by
  refine ⟨isOk_jsLink_iff, isOk_wasmtimeLink_iff, fun imports linker hjs hwasmtime => ?_⟩
  have hnodup := isOk_wasmtimeLink_iff.mp ⟨linker, hwasmtime⟩
  rw [List.map_append, List.map_append] at hnodup
  have hwasi : (wasi.map Prod.fst).Nodup :=
    (List.nodup_append.mp (List.nodup_append.mp hnodup).2.1).1
  rw [wasmtimeLink_eq_defineAll] at hwasmtime
  have hlinker {module name : String} {func : F} :
      Registry.lookup linker (module, name) = some func ↔
        ((module, name), func) ∈ wasi ∨ (imports.getNamespace module).lookup name = some func := by
    rw [lookup_defineAll_empty hwasmtime, lookup_jsLink hjs]
    simp only [List.mem_append]
    tauto
  constructor
  · intro hsame key hkey hmem
    obtain ⟨⟨⟨module, name⟩, func⟩, hfunc, rfl⟩ := List.mem_map.mp hkey
    obtain ⟨functions, hfunctions⟩ := Option.isSome_iff_exists.mp (AList.lookup_isSome.mpr hmem)
    have hfound := (hsame module name).trans (hlinker.mpr (.inl hfunc))
    have hregistered : (imports.getNamespace module).lookup name = some func := by
      rw [resolve, hfunctions] at hfound
      rwa [getNamespace, hfunctions]
    exact wasi_disjoint hnodup hkey (List.mem_map_of_mem ((lookup_jsLink hjs).mp hregistered))
  · intro hfree module name
    ext func
    rw [hlinker, resolve]
    cases hfunctions : imports.inner.lookup module with
    | some functions =>
      have hmem : module ∈ imports.inner := AList.lookup_isSome.mp (by rw [hfunctions]; rfl)
      rw [getNamespace, hfunctions, Option.getD_some]
      refine (or_iff_right fun hfunc => ?_).symm
      exact hfree (module, name) (List.mem_map_of_mem hfunc) hmem
    | none =>
      rw [getNamespace, hfunctions, wasiCtx_link hjs]
      simp only [Option.isSome_some, if_true, Maps.lookup_collect_eq_some_iff hwasi,
        Option.getD_none, AList.lookup_empty, reduceCtorEq, or_false]

end Marine.Backend
