import Marine.Loader.GeneratedSection

/-!
# Declared and extracted interface

What the loader reads out of a generated section is what the module declares.

* `nodup_adapterTypes`: no function is extracted twice.
* `getExportFuncs_perm`: the extracted functions, up to their order.
* `getExportFuncs_declared`: the same, function by function of the module, with
  the adapter that the generator added for it.
-/

namespace Marine.Loader

open Marine.Generator

/-! ## No function is extracted twice -/

section Lookups

variable {deps : Externals} {l : Layout}

theorem nodup_implementations (mit : MITInterfaces) :
    (mit.implementations.map Prod.fst).Nodup := by
  have hsub : List.Sublist (mit.implementations.map Prod.fst) mit.adapterTypeToCore.keys := by
    unfold MITInterfaces.implementations AList.keys List.keys
    induction mit.adapterTypeToCore.entries with
    | nil => exact .slnil
    | cons entry entries ih =>
      rw [List.filterMap_cons, List.map_cons]
      cases hhead : entry.2.head? with
      | none => exact ih.cons _
      | some core => exact ih.cons_cons _
  exact hsub.nodup mit.adapterTypeToCore.nodupKeys

/-- A type has at most one export. -/
theorem exportsByType_singleton (hapi : apiFuncs.length ≤ l.base.length) {core : Nat}
    {names : List String}
    (h : (MITInterfaces.new (l.interfaces deps)).exportsByType core = some names) :
    ∃ name, names = [name] := by
  have hsome : ((MITInterfaces.new (l.interfaces deps)).exportsByType core).isSome := by
    rw [h]
    rfl
  obtain ⟨name, hname⟩ := (Maps.lookup_collectAll_isSome _ core).mp hsome
  obtain ⟨⟨name', core'⟩, he, heq⟩ := List.mem_map.mp hname
  cases heq
  rw [exportsByType_of_mem hapi he] at h
  cases h
  exact ⟨name', rfl⟩

theorem nodup_descriptors (hapi : apiFuncs.length ≤ l.base.length) :
    ((getExportFuncsDescriptors (MITInterfaces.new (l.interfaces deps))).map
      ITExportFuncDescriptor.adapterFunctionType).Nodup := by
  have hsub : List.Sublist
      ((getExportFuncsDescriptors (MITInterfaces.new (l.interfaces deps))).map
        ITExportFuncDescriptor.adapterFunctionType)
      ((MITInterfaces.new (l.interfaces deps)).implementations.map Prod.fst) := by
    unfold getExportFuncsDescriptors
    induction (MITInterfaces.new (l.interfaces deps)).implementations with
    | nil => exact .slnil
    | cons i implementations ih =>
      rw [List.filterMap_cons, List.map_cons]
      cases hnames : (MITInterfaces.new (l.interfaces deps)).exportsByType i.2 with
      | none =>
        simp only [hnames, Option.map_none]
        exact ih.cons _
      | some names =>
        obtain ⟨name, rfl⟩ := exportsByType_singleton hapi hnames
        simp only [hnames, Option.map_some]
        exact ih.cons_cons _
  exact hsub.nodup (nodup_implementations _)

/-- A signature is extracted for the adapter type of its descriptor. -/
theorem exportSignature_adapterType {mit : MITInterfaces} {d : ITExportFuncDescriptor}
    {s : IFunctionSignature} (h : exportSignature mit d = .ok s) :
    s.adapterFunctionType = d.adapterFunctionType := by
  unfold exportSignature at h
  split at h
  · cases h
  · cases h
    rfl
  · cases h

theorem mapM_exportSignature_adapterTypes {mit : MITInterfaces} {ds : List ITExportFuncDescriptor}
    {signatures : List IFunctionSignature} (h : ds.mapM (exportSignature mit) = .ok signatures) :
    signatures.map IFunctionSignature.adapterFunctionType =
      ds.map ITExportFuncDescriptor.adapterFunctionType := by
  induction Fallible.mapM_eq_ok_iff.mp h with
  | nil => rfl
  | cons hd hds ih =>
    simp [exportSignature_adapterType hd, ih (Fallible.mapM_eq_ok_iff.mpr hds)]

theorem nodup_adapterTypes (hapi : apiFuncs.length ≤ l.base.length)
    {signatures : List IFunctionSignature}
    (h : getExportFuncs (MITInterfaces.new (l.interfaces deps)) = .ok signatures) :
    (signatures.map IFunctionSignature.adapterFunctionType).Nodup := by
  rw [mapM_exportSignature_adapterTypes h]
  exact nodup_descriptors hapi

/-! ## The extracted functions -/

/-- The signature under which exported function `k` is extracted. -/
def extracted (l : Layout) (k : Nat) (e : FnEntry) : IFunctionSignature :=
  ⟨e.fn.signature.name, e.arguments, e.outputTypes, l.fnIdx k⟩

theorem getExportFuncs_perm (hapi : apiFuncs.length ≤ l.base.length) :
    ∃ signatures, getExportFuncs (MITInterfaces.new (l.interfaces deps)) = .ok signatures ∧
      signatures.Perm (l.fns.mapIdx (extracted l)) := by
  obtain ⟨signatures, hok, hmem⟩ := @mem_getExportFuncs_iff deps l hapi
  have hleft : signatures.Nodup := (nodup_adapterTypes hapi hok).of_map _
  have hright : (l.fns.mapIdx (extracted l)).Nodup := by
    have hkeys := Maps.keys_mapIdx (c := l.fnIdx) (f := extracted l)
      IFunctionSignature.adapterFunctionType (fun _ _ => rfl) l.fns
    apply List.Nodup.of_map IFunctionSignature.adapterFunctionType
    rw [hkeys]
    exact List.nodup_range.map (fnIdx_injective l)
  refine ⟨signatures, hok, (List.perm_ext_iff_of_nodup hleft hright).mpr fun s => ?_⟩
  rw [hmem, Maps.mem_mapIdx_iff]
  simp only [extracted, eq_comm]

/-- Behind an extracted function there is no import and no function of the
default export API. -/
theorem extracted_core {k core : Nat} {e : FnEntry} (he : l.fns[k]? = some e)
    (hapi : apiFuncs.length ≤ l.base.length)
    (hcore : ⟨core, l.fnIdx k⟩ ∈ (l.interfaces deps).implementations) :
    apiFuncs.length ≤ core ∧ ∀ i ∈ (l.interfaces deps).imports, i.functionType ≠ core := by
  have hk : k < l.fns.length := (List.getElem?_eq_some_iff.mp he).1
  have hown : core = l.fnIdx k + 1 := by
    rw [Layout.interfaces, List.mem_append, Maps.mem_mapIdx_iff, Maps.mem_mapIdx_iff] at hcore
    rcases hcore with ⟨k', _, _, h⟩ | ⟨j, _, _, h⟩
    · simp only [Implementation.mk.injEq] at h
      omega
    · have hlt := fnIdx_lt_importIdx l hk j
      simp only [Implementation.mk.injEq] at h
      omega
  subst hown
  refine ⟨by simp only [Layout.fnIdx]; omega, fun i hi heq => ?_⟩
  obtain ⟨⟨e', j⟩, -, hpair⟩ := List.mem_flatMap.mp hi
  have hlt := fnIdx_lt_importIdx l hk j
  simp only [Layout.importPair, List.mem_cons, List.not_mem_nil, or_false] at hpair
  rcases hpair with rfl | rfl
  · dsimp only at heq
    omega
  · dsimp only at heq
    omega

end Lookups

/-! ## Function by function -/

/-- The resolver right before exported function `k` of a module is processed. -/
def resolverBefore (deps : Externals) (moduleAst : ModuleAST) (k : Nat) :
    Except ITGeneratorError ITResolver := do
  let r ← moduleAst.records.foldlM (generateRecord deps) apiResolver
  validateRecords r
  (moduleAst.functions.take k).foldlM (FnType.generateIt deps) r

/-- `s` is what function `f` declares, where `f` takes the generator from `r` to
`r'`: its name, its arguments and outputs under the types they have in `r`, and
the one adapter that is new in `r'`. -/
structure Declares (r r' : ITResolver) (mit : MITInterfaces) (f : FnType)
    (s : IFunctionSignature) : Prop where
  name : s.name = f.signature.name
  arguments : List.Forall₂
    (fun arg a => a.name = arg.name ∧ ptypeToItypeChecked r arg.ty = .ok a.ty)
    f.signature.arguments s.arguments
  outputs : List.Forall₂ (fun ty t => ptypeToItypeChecked r ty = .ok t)
    f.signature.outputTypes s.outputs
  adapter : ∃ adapter, r'.interfaces.adapters = r.interfaces.adapters ++ [adapter] ∧
    s.adapterFunctionType = adapter.functionType ∧
    mit.adapterByType s.adapterFunctionType = some adapter.instructions

/-- Arguments keep their names and their order. -/
theorem generateItArgs_forall₂ {r : ITResolver} {s : FnSignature} {arguments : List FunctionArg}
    (h : generateItArgs r s = .ok arguments) :
    List.Forall₂ (fun arg a => a.name = arg.name ∧ ptypeToItypeChecked r arg.ty = .ok a.ty)
      s.arguments arguments := by
  refine (Fallible.mapM_eq_ok_iff.mp h).imp fun arg a harg => ?_
  obtain ⟨ty, hty, ha⟩ := Fallible.bind_eq_ok_iff.mp harg
  cases ha
  exact ⟨rfl, hty⟩

section Prefix

variable {deps : Externals} {r₀ : ITResolver} {functions : List FnType}

/-- A run over all functions passes through the state before each of them. -/
theorem generateIt_take {r : ITResolver} {k : Nat} {f : FnType}
    (h : functions.foldlM (FnType.generateIt deps) r₀ = .ok r) (hf : functions[k]? = some f) :
    ∃ r₁ r₂, (functions.take k).foldlM (FnType.generateIt deps) r₀ = .ok r₁ ∧
      FnType.generateIt deps r₁ f = .ok r₂ := by
  obtain ⟨hk, rfl⟩ := List.getElem?_eq_some_iff.mp hf
  have hsplit : functions = functions.take k ++ [functions[k]] ++ functions.drop (k + 1) := by
    rw [List.append_assoc, List.singleton_append, ← List.drop_eq_getElem_cons hk,
      List.take_append_drop]
  rw [hsplit, List.foldlM_append] at h
  obtain ⟨r₂, h, -⟩ := Fallible.bind_eq_ok_iff.mp h
  obtain ⟨r₁, h₁, h₂⟩ := Fallible.foldlM_concat_eq_ok_iff.mp h
  exact ⟨r₁, r₂, h₁, h₂⟩

/-- **Step lemma.**  What is generated for function `k` is what is extracted
under its place. -/
theorem extracted_declares {imports : List (String × ExternFnType)} {l : Layout}
    (hl : l.Of deps r₀ functions imports) {r₁ r₂ : ITResolver} {k : Nat} {f : FnType} {e : FnEntry}
    (hr₁ : Generated deps r₀ (functions.take k) [] r₁)
    (hr₂ : FnType.generateIt deps r₁ f = .ok r₂) (hf : functions[k]? = some f)
    (he : l.fns[k]? = some e) :
    Declares r₁ r₂ (MITInterfaces.new (l.interfaces deps)) f (extracted l k e) := by
  obtain ⟨e', rfl, hmade, -, hadd⟩ := generateIt_spec hr₂
  obtain ⟨l₁, hl₁, hnames, hinter⟩ := hr₁
  have hsame : e' = e := by
    refine (hmade.congr hnames).unique (hl.fnsMade e (List.mem_of_getElem? he)) ?_
    have hfn := congrArg (fun fns => fns[k]?) hl.fns
    simp only [List.getElem?_map, he, hf, Option.map_some, Option.some.injEq] at hfn
    exact hfn.symm
  subst hsame
  have hk : k < functions.length := (List.getElem?_eq_some_iff.mp hf).1
  have hfns : l₁.fns.length = k := by
    have hlen := congrArg List.length hl₁.fns
    simp only [List.length_map, List.length_take] at hlen
    omega
  have himports : l₁.imports = [] := List.map_eq_nil_iff.mp hl₁.imports
  have htypes : r₁.interfaces.types.length = l.fnIdx k := by
    rw [hinter, Layout.length_types, himports, Layout.importIdx, Layout.fnIdx, hl₁.base, hl.base,
      hfns]
    rfl
  have hexports : r₁.interfaces.exports.length = Layout.fnCallee k := by
    rw [hinter, Layout.length_exports, hfns, Layout.fnCallee]
  refine ⟨rfl, generateItArgs_forall₂ hmade.arguments,
    Fallible.mapM_eq_ok_iff.mp hmade.outputTypes,
    ⟨l.fnIdx k, e'.code deps (Layout.fnCallee k)⟩, ?_, rfl,
    adapterByType_iff.mpr (.inl ⟨k, e', he, rfl, rfl⟩)⟩
  rw [hadd, FnEntry.addTo, htypes, hexports]

end Prefix

/-- **Declared and extracted.**  The extracted signatures are, up to their
order, those that the functions of the module declare, each with the adapter
generated for it.  Behind none of them there is an import or a function of the
default export API. -/
theorem getExportFuncs_declared {deps : Externals} {moduleAst : ModuleAST} {I : Interfaces}
    (h : generateInterfaces deps moduleAst = .ok I) :
    ∃ signatures declared, getExportFuncs (MITInterfaces.new I) = .ok signatures ∧
      signatures.Perm declared ∧ declared.length = moduleAst.functions.length ∧
      (∀ k f s, moduleAst.functions[k]? = some f → declared[k]? = some s →
        ∃ r r', resolverBefore deps moduleAst k = .ok r ∧ FnType.generateIt deps r f = .ok r' ∧
          Declares r r' (MITInterfaces.new I) f s) ∧
      ∀ s ∈ signatures, ∀ core, ⟨core, s.adapterFunctionType⟩ ∈ I.implementations →
        apiFuncs.length ≤ core ∧ ∀ i ∈ I.imports, i.functionType ≠ core := by
  obtain ⟨r₀, l, hrecords, hvalid, hl, rfl⟩ := generateInterfaces_layout h
  obtain ⟨r₀', hrecords', h⟩ := Fallible.bind_eq_ok_iff.mp h
  obtain ⟨⟨⟩, -, h⟩ := Fallible.bind_eq_ok_iff.mp h
  obtain ⟨r, hfunctions, -⟩ := Fallible.bind_eq_ok_iff.mp h
  cases hrecords.symm.trans hrecords'
  have hapi : apiFuncs.length ≤ l.base.length := by
    rw [hl.base]
    exact hl.api
  obtain ⟨signatures, hok, hperm⟩ := @getExportFuncs_perm deps l hapi
  refine ⟨signatures, l.fns.mapIdx (extracted l), hok, hperm, ?_, fun k f s hf hs => ?_,
    fun s hs core hcore => ?_⟩
  · rw [List.length_mapIdx, ← hl.fns, List.length_map]
  · rw [List.getElem?_mapIdx, Option.map_eq_some_iff] at hs
    obtain ⟨e, he, rfl⟩ := hs
    obtain ⟨r₁, r₂, h₁, h₂⟩ := generateIt_take hfunctions hf
    have hbefore : resolverBefore deps moduleAst k = .ok r₁ :=
      Fallible.bind_eq_ok_iff.mpr ⟨r₀, hrecords, Fallible.bind_eq_ok_iff.mpr ⟨(), hvalid, h₁⟩⟩
    exact ⟨r₁, r₂, hbefore, h₂, extracted_declares hl
      (generateIt_functions (generated_records hrecords) h₁) h₂ hf he⟩
  · obtain ⟨k, e, he, rfl⟩ := Maps.mem_mapIdx_iff.mp (hperm.mem_iff.mp hs)
    exact extracted_core he hapi hcore

/-- `fn put(pair: Pair) -> bool` and `fn len() -> u64` for
`struct Pair { key: String, value: Vec<u8> }`, with `put` of module `disk` behind them. -/
def storeAst : ModuleAST where
  records := [⟨"Pair", .named [⟨some "key", .utf8String⟩, ⟨some "value", .vector .u8⟩]⟩]
  functions := [⟨⟨"put", [⟨"pair", .record "Pair"⟩], [.boolean]⟩⟩, ⟨⟨"len", [], [.u64]⟩⟩]
  externMods := [⟨"disk", [⟨none, ⟨"put", [⟨"bytes", .vector .u8⟩], [.boolean]⟩⟩]⟩]

/-- Of the nine functions of this section two are extracted. -/
theorem getExportFuncs_store : ∃ I signatures, generateInterfaces crateExternals storeAst = .ok I ∧
    getExportFuncs (MITInterfaces.new I) = .ok signatures ∧ signatures.length = 2 := by
  have hgenerate : ∃ I, generateInterfaces crateExternals storeAst = .ok I :=
    ⟨_, Fallible.bind_eq_ok_iff.mpr ⟨_, rfl,
      Fallible.bind_eq_ok_iff.mpr ⟨(), validateRecords_flat rfl (by decide), rfl⟩⟩⟩
  obtain ⟨I, hI⟩ := hgenerate
  obtain ⟨signatures, declared, hok, hperm, hlen, -⟩ := getExportFuncs_declared hI
  exact ⟨I, signatures, hI, hok, hperm.length_eq.trans hlen⟩

end Marine.Loader
