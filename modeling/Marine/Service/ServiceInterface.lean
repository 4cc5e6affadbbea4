import Marine.Interface.PublishedRecords
import Marine.Loader.ModuleLoading

/-!
# The interface of a service

`into_service_interface` of `crates/fluence-app-service/src/service_interface.rs`: the
interface of the facade with its types as texts.  It panics where a record is missing.

* `intoServiceInterface_isOk_iff`: when there is an interface.
* `newModule_selfContained`: a module that was made has one.
-/

namespace Marine.Service

open Marine.Interface (InterfaceFailure itypeTextView itypeTextView_isOk_iff)
open Marine.Loader Marine.Runtime Fallible

structure FunctionSignature where
  name : String
  arguments : List (String × String)
  outputTypes : List String
  deriving DecidableEq, Repr

structure RecordType where
  name : String
  id : Nat
  fields : List (String × String)
  deriving DecidableEq, Repr

structure ServiceInterface where
  functionSignatures : List FunctionSignature
  recordTypes : List RecordType
  deriving DecidableEq, Repr

/-- A name with its type as a text. -/
def textView (recordTypes : RecordTypes) (name : String) (ty : IType) :
    Except InterfaceFailure (String × String) := do
  let text ← itypeTextView recordTypes ty
  return (name, text)

def serializeFunctionSignature (recordTypes : RecordTypes) (signature : MFunctionSignature) :
    Except InterfaceFailure FunctionSignature := do
  let arguments ← signature.arguments.mapM fun arg => textView recordTypes arg.name arg.ty
  let outputTypes ← signature.outputs.mapM (itypeTextView recordTypes)
  return ⟨signature.name, arguments, outputTypes⟩

def serializeRecordType (recordTypes : RecordTypes) (id : Nat) (record : IRecordType) :
    Except InterfaceFailure RecordType := do
  let fields ← record.fields.mapM fun field => textView recordTypes field.name field.ty
  return ⟨record.name, id, fields⟩

def intoServiceInterface (marineInterface : MModuleInterface) :
    Except InterfaceFailure ServiceInterface := do
  let recordTypes := marineInterface.recordTypes
  let functionSignatures ←
    marineInterface.functionSignatures.mapM (serializeFunctionSignature recordTypes)
  let records ← recordTypes.entries.mapM fun e => serializeRecordType recordTypes e.1 e.2
  return ⟨functionSignatures, records⟩

/-! ## When there is an interface -/

/-- The records that a type mentions are known. -/
def Known (recordTypes : RecordTypes) (ty : IType) : Prop :=
  ∀ id, ty.mentioned = some id → (recordTypes.lookup id).isSome

/-- All mentioned records are there. -/
structure SelfContained (marineInterface : MModuleInterface) : Prop where
  signatures : ∀ s ∈ marineInterface.functionSignatures,
    (∀ arg ∈ s.arguments, Known marineInterface.recordTypes arg.ty) ∧
      ∀ ty ∈ s.outputs, Known marineInterface.recordTypes ty
  records : ∀ id record, marineInterface.recordTypes.lookup id = some record →
    ∀ field ∈ record.fields, Known marineInterface.recordTypes field.ty

theorem isOk_itypeTextView (recordTypes : RecordTypes) (ty : IType) :
    (itypeTextView recordTypes ty).isOk ↔ Known recordTypes ty := by
  rw [isOk_iff_exists]
  exact itypeTextView_isOk_iff recordTypes ty

theorem isOk_textView (recordTypes : RecordTypes) (name : String) (ty : IType) :
    (textView recordTypes name ty).isOk ↔ Known recordTypes ty := by
  rw [textView, isOk_bind_pure, isOk_itypeTextView]

theorem isOk_serializeFunctionSignature (recordTypes : RecordTypes) (s : MFunctionSignature) :
    (serializeFunctionSignature recordTypes s).isOk ↔
      (∀ arg ∈ s.arguments, Known recordTypes arg.ty) ∧ ∀ ty ∈ s.outputs, Known recordTypes ty := by
  have harguments := mapM_isOk_iff (f := fun arg => textView recordTypes arg.name arg.ty)
    (l := s.arguments) fun arg => isOk_textView recordTypes arg.name arg.ty
  have houtputs := mapM_isOk_iff (f := itypeTextView recordTypes) (l := s.outputs)
    (isOk_itypeTextView recordTypes)
  rw [← harguments, ← houtputs]
  simp only [isOk_iff_exists, serializeFunctionSignature, bind_eq_ok_iff]
  constructor
  · rintro ⟨_, arguments, h, outputs, h', -⟩
    exact ⟨⟨arguments, h⟩, outputs, h'⟩
  · rintro ⟨⟨arguments, h⟩, outputs, h'⟩
    exact ⟨_, arguments, h, outputs, h', rfl⟩

theorem isOk_serializeRecordType (recordTypes : RecordTypes) (id : Nat) (record : IRecordType) :
    (serializeRecordType recordTypes id record).isOk ↔
      ∀ field ∈ record.fields, Known recordTypes field.ty := by
  rw [serializeRecordType, isOk_bind_pure]
  exact mapM_isOk_iff fun field => isOk_textView recordTypes field.name field.ty

/-- **When a service can describe itself**: all mentioned records are there. -/
theorem intoServiceInterface_isOk_iff (marineInterface : MModuleInterface) :
    (intoServiceInterface marineInterface).isOk ↔ SelfContained marineInterface := by
  have hsignatures := mapM_isOk_iff (l := marineInterface.functionSignatures)
    (isOk_serializeFunctionSignature marineInterface.recordTypes)
  have hrecords := mapM_isOk_iff (l := marineInterface.recordTypes.entries)
    fun e => isOk_serializeRecordType marineInterface.recordTypes e.1 e.2
  have hparts : (intoServiceInterface marineInterface).isOk ↔
      (marineInterface.functionSignatures.mapM
        (serializeFunctionSignature marineInterface.recordTypes)).isOk ∧
      (marineInterface.recordTypes.entries.mapM fun e =>
        serializeRecordType marineInterface.recordTypes e.1 e.2).isOk := by
    simp only [isOk_iff_exists, intoServiceInterface, bind_eq_ok_iff]
    constructor
    · rintro ⟨_, signatures, h, records, h', -⟩
      exact ⟨⟨signatures, h⟩, records, h'⟩
    · rintro ⟨⟨signatures, h⟩, records, h'⟩
      exact ⟨_, signatures, h, records, h', rfl⟩
  rw [hparts, hsignatures, hrecords]
  constructor
  · rintro ⟨h, h'⟩
    exact ⟨h, fun id record hrecord => h' ⟨id, record⟩ (AList.mem_lookup_iff.mp hrecord)⟩
  · rintro ⟨h, h'⟩
    exact ⟨h, fun e he => h' e.1 e.2 (AList.mem_lookup_iff.mpr he)⟩

/-- The functions of the interface, by name. -/
theorem intoServiceInterface_names {marineInterface : MModuleInterface}
    {published : ServiceInterface} (h : intoServiceInterface marineInterface = .ok published) :
    published.functionSignatures.map FunctionSignature.name =
      marineInterface.functionSignatures.map MFunctionSignature.name := by
  obtain ⟨functionSignatures, hsignatures, h⟩ := bind_eq_ok_iff.mp h
  obtain ⟨records, -, h⟩ := bind_eq_ok_iff.mp h
  cases h
  rw [← List.forall₂_eq_eq_eq, List.forall₂_map_left_iff, List.forall₂_map_right_iff]
  refine (mapM_eq_ok_iff.mp hsignatures).flip.imp fun signature s hsignature => ?_
  obtain ⟨arguments, -, hsignature⟩ := bind_eq_ok_iff.mp hsignature
  obtain ⟨outputTypes, -, hsignature⟩ := bind_eq_ok_iff.mp hsignature
  cases hsignature
  rfl

/-! ## New modules -/

/-- An exported function under its name. -/
def named (sign : IFunctionSignature) : String × Callable :=
  (sign.name, ⟨sign.arguments, sign.outputs⟩)

theorem exportFunc_ok {parses : List Instruction → Bool} {wit : MITInterfaces}
    {sign : IFunctionSignature} {p : String × Callable} (h : exportFunc parses wit sign = .ok p) :
    p = named sign := by
  unfold exportFunc at h
  split at h
  · cases h
  · split at h
    · cases h
      rfl
    · cases h

/-- **Spec of `instantiate_exports`.**  Exports are those of the section, the last one of
each name. -/
theorem instantiateExports_collect {parses : List Instruction → Bool} {wit : MITInterfaces}
    {exportFuncs : AList fun _ : String => Callable} {exportRecordTypes : RecordTypes}
    (h : instantiateExports parses wit = .ok (exportFuncs, exportRecordTypes)) :
    ∃ iface, getInterface wit = .ok iface ∧ exportRecordTypes = iface.exportRecordTypes ∧
      exportFuncs = Maps.collect (iface.functionSignatures.map named) := by
  unfold instantiateExports at h
  cases hiface : getInterface wit with
  | error e =>
    rw [hiface] at h
    cases h
  | ok iface =>
    rw [hiface] at h
    obtain ⟨funcs, hfuncs, h⟩ := bind_eq_ok_iff.mp h
    cases h
    have hall : List.Forall₂ (fun s p => named s = p) iface.functionSignatures funcs :=
      (mapM_eq_ok_iff.mp hfuncs).imp fun _ _ hp => (exportFunc_ok hp).symm
    have hsame : iface.functionSignatures.map named = funcs := by
      rw [← List.forall₂_eq_eq_eq, List.forall₂_map_left_iff]
      exact hall
    exact ⟨iface, rfl, rfl, by rw [hsame]⟩

theorem instantiateExports_ok {parses : List Instruction → Bool} {wit : MITInterfaces}
    {exportFuncs : AList fun _ : String => Callable} {exportRecordTypes : RecordTypes}
    (h : instantiateExports parses wit = .ok (exportFuncs, exportRecordTypes)) :
    ∃ iface, getInterface wit = .ok iface ∧ exportRecordTypes = iface.exportRecordTypes ∧
      (∀ name, name ∈ exportFuncs ↔ ∃ s ∈ iface.functionSignatures, s.name = name) ∧
      ∀ name callable, exportFuncs.lookup name = some callable →
        ∃ s ∈ iface.functionSignatures, s.name = name ∧ s.arguments = callable.arguments ∧
          s.outputs = callable.outputTypes := by
  obtain ⟨iface, hiface, hrecords, rfl⟩ := instantiateExports_collect h
  refine ⟨iface, hiface, hrecords, fun name => ?_, fun name callable hcallable => ?_⟩
  · rw [Maps.mem_collect, List.map_map, List.mem_map]
    rfl
  · rw [Maps.lookup_collect] at hcallable
    obtain ⟨s, hs, hnamed⟩ :=
      List.mem_map.mp (Maps.mem_valuesOf.mp (List.mem_of_getLast? hcallable))
    cases hnamed
    exact ⟨s, hs, rfl, rfl, rfl⟩

theorem newModule_exports {tables : Interfaces → MITInterfaces} {checks : Bool} {run : ModuleRun}
    {name : String} {modules : AList fun _ : String => MModule} {module : MModule}
    (h : newModuleFrom tables checks run name modules = .ok module) :
    ∃ it, run.extractIt = .ok it ∧ instantiateExports run.parses (tables it) =
      .ok (module.exportFuncs, module.exportRecordTypes) := by
  simp only [newModuleFrom, processTables, bind_eq_ok_iff, orError_eq_ok_iff] at h
  obtain ⟨-, -, -, -, it, hit, -, -, parts, ⟨-, -, -, -, -, -, wasmInstance, -, -, -, exports,
    hexports, hparts⟩, -, -, -, -, h⟩ := h
  cases hparts
  cases h
  exact ⟨it, hit, hexports⟩

/-- **A module that was made can be described.** -/
theorem newModule_selfContained {tables : Interfaces → MITInterfaces} {checks : Bool}
    {run : ModuleRun} {name : String} {modules : AList fun _ : String => MModule}
    {module : MModule} (h : newModuleFrom tables checks run name modules = .ok module) :
    SelfContained (MarineCore.getModuleInterface module) := by
  obtain ⟨it, -, hexports⟩ := newModule_exports h
  obtain ⟨iface, hiface, hrecords, -, hfuncs⟩ := instantiateExports_ok hexports
  have hknown : ∀ s ∈ iface.functionSignatures, ∀ ty ∈ s.itypes,
      Known module.exportRecordTypes ty := by
    intro s hs ty hty id hid
    rw [hrecords]
    exact (getInterface_closure hiface id).1.mpr
      ⟨s, hs, ty, hty, Interface.reachesRecord_of_mentioned _ hid⟩
  refine ⟨fun s hs => ?_, fun id record hrecord field hfield c hc => ?_⟩
  · obtain ⟨e, he, rfl⟩ := List.mem_map.mp hs
    obtain ⟨s, hs, -, hargs, houts⟩ := hfuncs e.1 e.2 (AList.mem_lookup_iff.mpr he)
    refine ⟨fun arg harg => ?_, fun ty hty => ?_⟩
    · apply hknown s hs
      refine List.mem_append_left _ (List.mem_map_of_mem (f := FunctionArg.ty) ?_)
      rwa [hargs]
    · apply hknown s hs
      apply List.mem_append_right
      rwa [houts]
  · have hclosed := Interface.exported_of_mentions hiface id c
    show (module.exportRecordTypes.lookup c).isSome
    have hlookup : module.exportRecordTypes.lookup id = some record := hrecord
    rw [hrecords] at hlookup ⊢
    apply hclosed
    rw [Interface.mentions, hlookup]
    exact List.mem_filterMap.mpr ⟨field, hfield, hc⟩

end Marine.Service
