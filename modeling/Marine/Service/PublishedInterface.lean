import Marine.Loader.LinkedCalls
import Marine.Service.ServiceInterface

/-!
# One interface, described twice

`marine interface` reads the interface of a file and publishes its records in order
(`crates/module-interface`); a service describes the module that was loaded from the file
(`crates/fluence-app-service/src/service_interface.rs`).  Types become texts by the same
function, but each walks through the maps of the file for itself, in an order of its own.

* `getInterface_reordered`: what the order of the implementations leaves as it is.
* `mem_published_iff`, `mem_described_iff`: the records of both.
* `described_asPublished`: the two descriptions agree.
-/

namespace Marine.Service

open Marine.Interface (InterfaceFailure IterationOrder itypeTextView
  RecordsTransformer.convertRecord)
open Marine.Loader Marine.Runtime Fallible

/-! ## Orders -/

section Orders

variable {mit : MITInterfaces} {iface : IModuleInterface}
  {implementations : AList fun _ : Nat => List Nat}

theorem mem_descriptors_reordered
    (hperm : implementations.entries.Perm mit.adapterTypeToCore.entries)
    (d : ITExportFuncDescriptor) :
    d ∈ getExportFuncsDescriptors (mit.reordered implementations) ↔
      d ∈ getExportFuncsDescriptors mit := by
  simp only [mem_exportDescriptors, (MITInterfaces.implementations_reordered hperm).mem_iff]
  rfl

theorem getExportFuncs_reordered
    (hperm : implementations.entries.Perm mit.adapterTypeToCore.entries)
    {signatures : List IFunctionSignature} (h : getExportFuncs mit = .ok signatures) :
    ∃ signatures', getExportFuncs (mit.reordered implementations) = .ok signatures' ∧
      ∀ s, s ∈ signatures' ↔ s ∈ signatures := by
  have hmem := mem_descriptors_reordered hperm
  have hextracted : ∀ d ∈ getExportFuncsDescriptors (mit.reordered implementations),
      ∃ s, exportSignature (mit.reordered implementations) d = .ok s := by
    intro d hd
    obtain ⟨s, -, hs⟩ := exists_right_of_mem (mapM_eq_ok_iff.mp h) ((hmem d).mp hd)
    exact ⟨s, hs⟩
  obtain ⟨signatures', h'⟩ := exists_mapM_ok hextracted
  refine ⟨signatures', h', fun s => ?_⟩
  rw [mem_mapM_iff h', mem_mapM_iff h]
  exact exists_congr fun d => and_congr_left fun _ => hmem d

/-- **What the order leaves.**  The interface has the same functions and the same records. -/
theorem getInterface_reordered
    (hperm : implementations.entries.Perm mit.adapterTypeToCore.entries)
    (h : getInterface mit = .ok iface) :
    ∃ iface', getInterface (mit.reordered implementations) = .ok iface' ∧
      (∀ s, s ∈ iface'.functionSignatures ↔ s ∈ iface.functionSignatures) ∧
      ∀ id, iface'.exportRecordTypes.lookup id = iface.exportRecordTypes.lookup id := by
  obtain ⟨signatures, hsignatures, hrest⟩ := bind_eq_ok_iff.mp h
  have hsame : iface.functionSignatures = signatures := by
    obtain ⟨full, -, hrest⟩ := bind_eq_ok_iff.mp hrest
    cases hrest
    rfl
  obtain ⟨signatures', hsignatures', hfunctions⟩ := getExportFuncs_reordered hperm hsignatures
  rw [← hsame] at hfunctions
  -- the level check is passed by each type alone
  have hchecked : ∀ ty ∈ signatures'.flatMap IFunctionSignature.itypes, ∀ n inner,
      Walks.Path (innerTypes (getAllRecords mit)) ty n inner →
        0 + n ≤ typeResolveRecursionLimit ∧ IsKnown (getAllRecords mit) inner := by
    intro ty hty n inner hpath
    obtain ⟨s, hs, hty⟩ := List.mem_flatMap.mp hty
    obtain ⟨hlevel, hknown⟩ :=
      handleItype_of_getInterface h ((hfunctions s).mp hs) hty n inner hpath
    exact ⟨by omega, hknown⟩
  obtain ⟨exported, hexported⟩ := isOk_iff_exists.mp
    ((foldlM_isOk_iff (fun ty _ s => handleItype_isOk_iff (getAllRecords mit) s ty 0) ∅).mpr
      hchecked)
  have hrecords : getRecordTypes (mit.reordered implementations) signatures' =
      .ok ⟨getAllRecords mit, exported⟩ :=
    bind_eq_ok_iff.mpr ⟨exported, hexported, rfl⟩
  have hread : getInterface (mit.reordered implementations) =
      .ok ⟨exported, getAllRecords mit, signatures'⟩ :=
    bind_eq_ok_iff.mpr ⟨signatures', hsignatures', bind_eq_ok_iff.mpr ⟨_, hrecords, rfl⟩⟩
  refine ⟨_, hread, hfunctions, fun id => ?_⟩
  have hreached : ReachedByInterface (mit.reordered implementations)
      ⟨exported, getAllRecords mit, signatures'⟩ id ↔ ReachedByInterface mit iface id :=
    exists_congr fun s => and_congr_left fun _ => hfunctions s
  have hleft := exportRecordTypes_collects hread id
  have hright := exportRecordTypes_collects h id
  by_cases hid : ReachedByInterface mit iface id
  · exact (hleft.1 (hreached.mpr hid)).trans (hright.1 hid).symm
  · exact (hleft.2 fun hno => hid (hreached.mp hno)).trans (hright.2 hid).symm

/-- A text depends on what the records are, not on how they are stored. -/
theorem itypeTextView_congr {recordTypes recordTypes' : RecordTypes}
    (h : ∀ id, recordTypes'.lookup id = recordTypes.lookup id) :
    itypeTextView recordTypes' = itypeTextView recordTypes := by
  funext ty
  induction ty with
  | record id => rw [itypeTextView, itypeTextView, h]
  | array elem ih => rw [itypeTextView, itypeTextView, ih]
  | _ => rfl

end Orders

/-! ## Serialization -/

def RecordType.ofPublished (r : Interface.RecordType) : RecordType :=
  ⟨r.name, r.id, r.fields.map fun field => (field.name, field.ty)⟩

def FunctionSignature.ofPublished (s : Interface.FunctionSignature) : FunctionSignature :=
  ⟨s.name, s.arguments, s.outputTypes⟩

theorem RecordType.ofPublished_injective : Function.Injective RecordType.ofPublished := by
  rintro ⟨name, id, fields⟩ ⟨name', id', fields'⟩ h
  obtain ⟨rfl, rfl, hfields⟩ := RecordType.mk.inj h
  have hpair : Function.Injective fun field : Interface.RecordField => (field.name, field.ty) := by
    rintro ⟨_, _⟩ ⟨_, _⟩ h
    cases h
    rfl
  cases List.map_injective_iff.mpr hpair hfields
  rfl

section Serialization

variable {recordTypes : RecordTypes}

theorem serializeRecordType_eq (id : Nat) (record : IRecordType) :
    serializeRecordType recordTypes id record =
      (RecordsTransformer.convertRecord id record recordTypes).map .ofPublished := by
  have hfield : (fun field : IRecordFieldType => textView recordTypes field.name field.ty) =
      fun field => (itypeTextView recordTypes field.ty >>= fun ty =>
        (pure ⟨field.name, ty⟩ : Except InterfaceFailure Interface.RecordField)).map
          fun f => (f.name, f.ty) := by
    funext field
    rw [textView]
    cases itypeTextView recordTypes field.ty with
    | error e => rfl
    | ok text => rfl
  rw [serializeRecordType, hfield, mapM_map, RecordsTransformer.convertRecord]
  cases record.fields.mapM fun field => itypeTextView recordTypes field.ty >>= fun ty =>
      (pure ⟨field.name, ty⟩ : Except InterfaceFailure Interface.RecordField) with
  | error e => rfl
  | ok fields => rfl

theorem serializeFunctionSignature_congr {recordTypes' : RecordTypes}
    (h : ∀ id, recordTypes'.lookup id = recordTypes.lookup id) :
    serializeFunctionSignature recordTypes' = serializeFunctionSignature recordTypes := by
  funext s
  simp only [serializeFunctionSignature, textView, itypeTextView_congr h]

theorem serializeFunctionSignature_eq (s : IFunctionSignature) :
    serializeFunctionSignature recordTypes ⟨s.name, s.arguments, s.outputs⟩ =
      (Interface.serializeFunctionSignature recordTypes s).map .ofPublished := by
  simp only [serializeFunctionSignature, Interface.serializeFunctionSignature, textView]
  cases s.arguments.mapM fun arg => itypeTextView recordTypes arg.ty >>= fun text =>
      (pure (arg.name, text) : Except InterfaceFailure (String × String)) with
  | error e => rfl
  | ok arguments =>
    cases s.outputs.mapM (itypeTextView recordTypes) with
    | error e => rfl
    | ok outputs => rfl

end Serialization

/-! ## Records -/

section Records

variable {mit : MITInterfaces} {iface : IModuleInterface}

/-- **The published records.** -/
theorem mem_published_iff {order : IterationOrder} {published : Interface.ModuleInterface}
    (h : Interface.getInterface order mit = .ok published)
    (hread : getInterface mit = .ok iface) (r : Interface.RecordType) :
    r ∈ published.recordTypes ↔ ∃ record, iface.exportRecordTypes.lookup r.id = some record ∧
      RecordsTransformer.convertRecord r.id record iface.exportRecordTypes = .ok r := by
  obtain ⟨iface', hread', -, hids, hconverted, -⟩ := Interface.published_sorted order h
  cases hread.symm.trans hread'
  constructor
  · intro hr
    obtain ⟨i, hi⟩ := List.mem_iff_getElem?.mp hr
    obtain ⟨record, hrecord, hconvert, -⟩ := hconverted i r hi
    exact ⟨record, hrecord, hconvert⟩
  · rintro ⟨record, hrecord, hconvert⟩
    have hsome : (iface.exportRecordTypes.lookup r.id).isSome := by
      rw [hrecord]
      rfl
    obtain ⟨r', hr', hid⟩ := List.mem_map.mp ((hids r.id).mpr hsome)
    obtain ⟨i, hi⟩ := List.mem_iff_getElem?.mp hr'
    obtain ⟨record', hrecord', hconvert', -⟩ := hconverted i r' hi
    rw [hid] at hrecord' hconvert'
    cases hrecord.symm.trans hrecord'
    cases hconvert.symm.trans hconvert'
    exact hr'

end Records

/-! ## Descriptions -/

section Described

variable {marineInterface : MModuleInterface} {described : ServiceInterface}

theorem intoServiceInterface_parts (h : intoServiceInterface marineInterface = .ok described) :
    marineInterface.functionSignatures.mapM
        (serializeFunctionSignature marineInterface.recordTypes) =
      .ok described.functionSignatures ∧
    (marineInterface.recordTypes.entries.mapM fun e =>
      serializeRecordType marineInterface.recordTypes e.1 e.2) = .ok described.recordTypes := by
  obtain ⟨functionSignatures, hsignatures, h⟩ := bind_eq_ok_iff.mp h
  obtain ⟨records, hrecords, h⟩ := bind_eq_ok_iff.mp h
  cases h
  exact ⟨hsignatures, hrecords⟩

theorem serializeRecordType_id {recordTypes : RecordTypes} {id : Nat} {record : IRecordType}
    {r : RecordType} (h : serializeRecordType recordTypes id record = .ok r) : r.id = id := by
  obtain ⟨fields, -, h⟩ := bind_eq_ok_iff.mp h
  cases h
  rfl

/-- **The records of a description.** -/
theorem mem_described_iff (h : intoServiceInterface marineInterface = .ok described)
    (r : RecordType) :
    r ∈ described.recordTypes ↔ ∃ record, marineInterface.recordTypes.lookup r.id = some record ∧
      serializeRecordType marineInterface.recordTypes r.id record = .ok r := by
  rw [mem_mapM_iff (intoServiceInterface_parts h).2]
  constructor
  · rintro ⟨⟨id, record⟩, he, hserialized⟩
    cases serializeRecordType_id hserialized
    exact ⟨record, AList.mem_lookup_iff.mpr he, hserialized⟩
  · rintro ⟨record, hrecord, hserialized⟩
    exact ⟨⟨r.id, record⟩, AList.mem_lookup_iff.mp hrecord, hserialized⟩

theorem described_ids (h : intoServiceInterface marineInterface = .ok described) :
    described.recordTypes.map RecordType.id = marineInterface.recordTypes.keys := by
  obtain ⟨-, hrecords⟩ := intoServiceInterface_parts h
  rw [← List.forall₂_eq_eq_eq, AList.keys, List.keys, List.forall₂_map_left_iff,
    List.forall₂_map_right_iff]
  exact (mapM_eq_ok_iff.mp hrecords).flip.imp fun _ _ => serializeRecordType_id

/-- The functions of a description. -/
theorem mem_described_functions (h : intoServiceInterface marineInterface = .ok described)
    (s : FunctionSignature) :
    s ∈ described.functionSignatures ↔ ∃ signature ∈ marineInterface.functionSignatures,
      serializeFunctionSignature marineInterface.recordTypes signature = .ok s :=
  mem_mapM_iff (intoServiceInterface_parts h).1

end Described

/-! ## Functions -/

section Functions

variable {recordTypes : RecordTypes} {signatures : List IFunctionSignature}
  {published : List Interface.FunctionSignature}

theorem published_functions {order : IterationOrder} {mit : MITInterfaces}
    {iface : IModuleInterface} {published : Interface.ModuleInterface}
    (hread : getInterface mit = .ok iface)
    (h : Interface.getInterface order mit = .ok published) :
    iface.functionSignatures.mapM (Interface.serializeFunctionSignature iface.exportRecordTypes) =
      .ok published.functionSignatures := by
  rw [Interface.getInterface, hread] at h
  obtain ⟨signatures, hsignatures, h⟩ := bind_eq_ok_iff.mp h
  obtain ⟨records, -, h⟩ := bind_eq_ok_iff.mp h
  cases h
  exact hsignatures

theorem published_names
    (h : signatures.mapM (Interface.serializeFunctionSignature recordTypes) = .ok published) :
    published.map Interface.FunctionSignature.name =
      signatures.map IFunctionSignature.name := by
  rw [← List.forall₂_eq_eq_eq, List.forall₂_map_left_iff, List.forall₂_map_right_iff]
  refine (mapM_eq_ok_iff.mp h).flip.imp fun signature s hsignature => ?_
  obtain ⟨_, -, hsignature⟩ := bind_eq_ok_iff.mp hsignature
  obtain ⟨_, -, hsignature⟩ := bind_eq_ok_iff.mp hsignature
  cases hsignature
  rfl

/-- A function of the section is published as it is described. -/
theorem published_of_serialized
    (h : signatures.mapM (Interface.serializeFunctionSignature recordTypes) = .ok published)
    {signature : IFunctionSignature} (hmem : signature ∈ signatures) {s : FunctionSignature}
    (hs : serializeFunctionSignature recordTypes
      ⟨signature.name, signature.arguments, signature.outputs⟩ = .ok s) :
    s ∈ published.map .ofPublished := by
  obtain ⟨p, hp, hserialized⟩ := exists_right_of_mem (mapM_eq_ok_iff.mp h) hmem
  rw [serializeFunctionSignature_eq, hserialized] at hs
  cases hs
  exact List.mem_map_of_mem hp

end Functions

/-! ## The two descriptions -/

section Agreement

variable {module : MModule} {mit : MITInterfaces} {iface : IModuleInterface}
  {order : IterationOrder} {published : Interface.ModuleInterface} {described : ServiceInterface}

theorem described_records_perm (hread : getInterface mit = .ok iface)
    (hpublished : Interface.getInterface order mit = .ok published)
    (hdescribed : intoServiceInterface (MarineCore.getModuleInterface module) = .ok described)
    (hrecords : ∀ id,
      module.exportRecordTypes.lookup id = iface.exportRecordTypes.lookup id) :
    described.recordTypes.Perm (published.recordTypes.map .ofPublished) := by
  have hids : (published.recordTypes.map Interface.RecordType.id).Nodup := by
    obtain ⟨-, -, hids, -⟩ := Interface.published_sorted order hpublished
    exact hids
  have hdistinct : (described.recordTypes.map RecordType.id).Nodup := by
    rw [described_ids hdescribed]
    exact AList.keys_nodup _
  have hsame : ∀ id record, serializeRecordType module.exportRecordTypes id record =
      (RecordsTransformer.convertRecord id record iface.exportRecordTypes).map .ofPublished := by
    intro id record
    rw [serializeRecordType_eq, RecordsTransformer.convertRecord, itypeTextView_congr hrecords]
    rfl
  apply (List.perm_ext_iff_of_nodup hdistinct.of_map
    (hids.of_map.map RecordType.ofPublished_injective)).mpr
  intro r
  rw [mem_described_iff hdescribed, List.mem_map]
  constructor
  · rintro ⟨record, hrecord, hserialized⟩
    obtain ⟨p, hconvert, rfl⟩ := map_eq_ok_iff.mp ((hsame _ _).symm.trans hserialized)
    exact ⟨p, (mem_published_iff hpublished hread p).mpr
      ⟨record, (hrecords _).symm.trans hrecord, hconvert⟩, rfl⟩
  · rintro ⟨p, hp, rfl⟩
    obtain ⟨record, hrecord, hconvert⟩ := (mem_published_iff hpublished hread p).mp hp
    exact ⟨record, (hrecords _).trans hrecord,
      (hsame _ _).trans (map_eq_ok_iff.mpr ⟨p, hconvert, rfl⟩)⟩

/-- Functions of different names are the same if they are the same by name. -/
theorem described_functions_perm
    (hnames : (described.functionSignatures.map FunctionSignature.name).Nodup)
    (hiff : ∀ name, name ∈ described.functionSignatures.map FunctionSignature.name ↔
      name ∈ published.functionSignatures.map Interface.FunctionSignature.name)
    (hsub : ∀ s ∈ described.functionSignatures,
      s ∈ published.functionSignatures.map .ofPublished)
    (hnodup : (published.functionSignatures.map Interface.FunctionSignature.name).Nodup) :
    described.functionSignatures.Perm (published.functionSignatures.map .ofPublished) := by
  have hother : ((published.functionSignatures.map FunctionSignature.ofPublished).map
      FunctionSignature.name).Nodup := by
    rw [List.map_map]
    exact hnodup
  apply (List.perm_ext_iff_of_nodup hnames.of_map hother.of_map).mpr
  refine fun s => ⟨hsub s, fun hs => ?_⟩
  obtain ⟨p, hp, rfl⟩ := List.mem_map.mp hs
  obtain ⟨s', hs', hname⟩ := List.mem_map.mp ((hiff p.name).mpr (List.mem_map_of_mem hp))
  have heq : s' = .ofPublished p :=
    List.inj_on_of_nodup_map hother (hsub s' hs') hs hname
  rwa [← heq]

end Agreement

/-- **One interface.**  For every module that is loaded, and in whatever orders the loader
and the reader of the file walk through their maps, `marine interface` publishes the
interface of the file and a service describes the module: with the same records, and with
one of the published functions for each of their names, so with the same functions if the
names are different. -/
theorem described_asPublished (order : IterationOrder) {tables : Interfaces → MITInterfaces}
    {checks : Bool} {run : ModuleRun} {name : String}
    {modules : AList fun _ : String => MModule} {module : MModule}
    (h : newModuleFrom tables checks run name modules = .ok module) {it : Interfaces}
    (hit : run.extractIt = .ok it) {loaded read : AList fun _ : Nat => List Nat}
    (hloaded : loaded.entries.Perm (MITInterfaces.new it).adapterTypeToCore.entries)
    (htables : tables it = (MITInterfaces.new it).reordered loaded)
    (hread : read.entries.Perm (MITInterfaces.new it).adapterTypeToCore.entries) :
    ∃ published described,
      Interface.getInterface order ((MITInterfaces.new it).reordered read) = .ok published ∧
      intoServiceInterface (MarineCore.getModuleInterface module) = .ok described ∧
      described.recordTypes.Perm (published.recordTypes.map .ofPublished) ∧
      (described.functionSignatures.map FunctionSignature.name).Nodup ∧
      (∀ name, name ∈ described.functionSignatures.map FunctionSignature.name ↔
        name ∈ published.functionSignatures.map Interface.FunctionSignature.name) ∧
      (∀ s ∈ described.functionSignatures,
        s ∈ published.functionSignatures.map .ofPublished) ∧
      ((published.functionSignatures.map Interface.FunctionSignature.name).Nodup →
        described.functionSignatures.Perm
          (published.functionSignatures.map .ofPublished)) := by
  obtain ⟨it', hit', hexports⟩ := newModule_exports h
  cases hit.symm.trans hit'
  rw [htables] at hexports
  obtain ⟨iface, hiface, hrecordTypes, hnames, hfuncs⟩ := instantiateExports_ok hexports
  obtain ⟨described, hdescribed⟩ := isOk_iff_exists.mp
    ((intoServiceInterface_isOk_iff _).mpr (newModule_selfContained h))
  obtain ⟨iface', hread', hfunctions, hrecords⟩ :=
    getInterface_reordered (hread.trans hloaded.symm) hiface
  have hread' : getInterface ((MITInterfaces.new it).reordered read) = .ok iface' := hread'
  obtain ⟨published, hpublished⟩ := Interface.itToModuleInterface_returns order hread'
  have hinterface : Interface.getInterface order ((MITInterfaces.new it).reordered read) =
      .ok published := by
    rw [Interface.getInterface, hread']
    exact hpublished
  have hstored : ∀ id,
      module.exportRecordTypes.lookup id = iface'.exportRecordTypes.lookup id := by
    intro id
    rw [hrecordTypes, hrecords]
  have hpublishedFunctions := published_functions hread' hinterface
  have hkeys : described.functionSignatures.map FunctionSignature.name =
      module.exportFuncs.keys := by
    rw [intoServiceInterface_names hdescribed]
    exact List.map_map ..
  have hiff : ∀ name, name ∈ described.functionSignatures.map FunctionSignature.name ↔
      name ∈ published.functionSignatures.map Interface.FunctionSignature.name := by
    intro name
    rw [hkeys, ← AList.mem_keys, hnames, published_names hpublishedFunctions, List.mem_map]
    exact exists_congr fun s => and_congr_left fun _ => (hfunctions s).symm
  have hsub : ∀ s ∈ described.functionSignatures,
      s ∈ published.functionSignatures.map .ofPublished := by
    intro s hs
    obtain ⟨signature, hsignature, hserialized⟩ := (mem_described_functions hdescribed s).mp hs
    obtain ⟨e, he, rfl⟩ := List.mem_map.mp hsignature
    obtain ⟨s₀, hs₀, hname, hargs, houts⟩ := hfuncs e.1 e.2 (AList.mem_lookup_iff.mpr he)
    rw [← hname, ← hargs, ← houts] at hserialized
    refine published_of_serialized hpublishedFunctions ((hfunctions s₀).mpr hs₀) ?_
    rw [← serializeFunctionSignature_congr hstored]
    exact hserialized
  have hdistinct : (described.functionSignatures.map FunctionSignature.name).Nodup := by
    rw [hkeys]
    exact module.exportFuncs.keys_nodup
  exact ⟨published, described, hinterface, hdescribed,
    described_records_perm hread' hinterface hdescribed hstored, hdistinct, hiff, hsub,
    described_functions_perm hdistinct hiff hsub⟩

/-- The section of `fn store(row: Row)`. -/
def rowInterfaces : Interfaces where
  types := [.record ⟨"Row", [⟨"cells", .array (.record 1)⟩]⟩, .record ⟨"Cell", [⟨"id", .u64⟩]⟩,
    .function [⟨"row", .record 0⟩] [], .function [⟨"row", .record 0⟩] []]
  imports := []
  adapters := [⟨2, []⟩]
  exports := [⟨"store", 3⟩]
  implementations := [⟨3, 2⟩]

theorem rowModule_loaded :
    ∃ module, newModule false (smoothRun rowInterfaces) "rows" ∅ = .ok module := by
  obtain ⟨iface, hread⟩ := Interface.rowSection_read
  have hread' : getInterface (MITInterfaces.new rowInterfaces) = .ok iface := hread
  obtain ⟨signatures, hsignatures, hrest⟩ := bind_eq_ok_iff.mp hread'
  obtain ⟨full, -, hrest⟩ := bind_eq_ok_iff.mp hrest
  cases hrest
  cases hsignatures
  have hexports : instantiateExports (fun _ => true) (MITInterfaces.new rowInterfaces) =
      .ok (Maps.collect [("store", ⟨[⟨"row", .record 0⟩], []⟩)], full.exportRecordTypes) := by
    rw [instantiateExports, hread']
    rfl
  have hprocess : processInterfaces false (smoothRun rowInterfaces) "rows" ∅ rowInterfaces =
      orError (instantiateExports (fun _ => true) (MITInterfaces.new rowInterfaces)) >>=
        fun exports => .ok (⟨fun _ => .ok ⟨[], []⟩, [0], fun _ => none⟩, exports) := rfl
  rw [hexports] at hprocess
  exact ⟨_, bind_eq_ok_iff.mpr ⟨(), rfl, bind_eq_ok_iff.mpr ⟨(), rfl, bind_eq_ok_iff.mpr
    ⟨rowInterfaces, rfl, bind_eq_ok_iff.mpr ⟨(), rfl, bind_eq_ok_iff.mpr
      ⟨_, hprocess, rfl⟩⟩⟩⟩⟩⟩

theorem described_asPublished_row : ∃ module published described,
    newModule false (smoothRun rowInterfaces) "rows" ∅ = .ok module ∧
    Interface.getInterface Interface.tableOrder (.new rowInterfaces) = .ok published ∧
    intoServiceInterface (MarineCore.getModuleInterface module) = .ok described ∧
    described.recordTypes.Perm (published.recordTypes.map .ofPublished) := by
  obtain ⟨module, hmodule⟩ := rowModule_loaded
  have hit : (smoothRun rowInterfaces).extractIt = .ok rowInterfaces := rfl
  obtain ⟨published, described, hpublished, hdescribed, hrecords, -⟩ :=
    described_asPublished Interface.tableOrder hmodule hit (.refl _) rfl (.refl _)
  exact ⟨module, published, described, hmodule, hpublished, hdescribed, hrecords⟩

end Marine.Service
