import Marine.Lib.Fallible
import Marine.Lib.Walks
import Marine.Loader.MitInterfaces

/-!
# The interface of a module

What the loader reads out of a section (`crates/module-interface/src/it_interface/`):
the exported functions and the records their types lead to.  The records are
collected by a recursion with a level limit; `handleItype_isOk_iff` says when it
succeeds.
-/

namespace Marine.Loader

structure ITExportFuncDescriptor where
  adapterFunctionType : Nat
  name : String
  deriving DecidableEq, Repr

structure IFunctionSignature where
  name : String
  arguments : List FunctionArg
  outputs : List IType
  adapterFunctionType : Nat
  deriving DecidableEq, Repr

structure FullRecordTypes where
  recordTypes : RecordTypes
  exportRecordTypes : RecordTypes

structure IModuleInterface where
  exportRecordTypes : RecordTypes
  recordTypes : RecordTypes
  functionSignatures : List IFunctionSignature

/-! ## Exported functions -/

/-- A function is exported if it lies in the exports and has an implementation. -/
def getExportFuncsDescriptors (mit : MITInterfaces) : List ITExportFuncDescriptor :=
  (mit.implementations.filterMap fun (adapterFunctionType, coreFunctionType) =>
    (mit.exportsByType coreFunctionType).map fun names => (adapterFunctionType, names)).flatMap
      fun (adapterFunctionType, names) => names.map fun name => ⟨adapterFunctionType, name⟩

/-- The names that are exported for the core function of an implementation. -/
theorem mem_exportDescriptors {mit : MITInterfaces} {d : ITExportFuncDescriptor} :
    d ∈ getExportFuncsDescriptors mit ↔
      ∃ core, (d.adapterFunctionType, core) ∈ mit.implementations ∧
        ∃ names, mit.exportsByType core = some names ∧ d.name ∈ names := by
  simp only [getExportFuncsDescriptors, List.mem_flatMap, List.mem_filterMap,
    Option.map_eq_some_iff, List.mem_map]
  constructor
  · rintro ⟨⟨_, _⟩, ⟨⟨adapter, core⟩, himpl, names, hnames, heq⟩, name, hname, rfl⟩
    cases heq
    exact ⟨core, himpl, _, hnames, hname⟩
  · rintro ⟨core, himpl, names, hnames, hname⟩
    exact ⟨(d.adapterFunctionType, names), ⟨(d.adapterFunctionType, core), himpl, names, hnames,
      rfl⟩, d.name, hname, rfl⟩

/-- The signature of one exported function. -/
def exportSignature (mit : MITInterfaces) (descriptor : ITExportFuncDescriptor) :
    Except ITInterfaceError IFunctionSignature :=
  match mit.typeByIdxR descriptor.adapterFunctionType with
  | .error e => .error (.mitInterfacesError e)
  | .ok (.function arguments outputTypes) =>
    .ok ⟨descriptor.name, arguments, outputTypes, descriptor.adapterFunctionType⟩
  | .ok (.record _) => .error (.itTypeNotFunction descriptor.adapterFunctionType)

def getExportFuncs (mit : MITInterfaces) : Except ITInterfaceError (List IFunctionSignature) :=
  (getExportFuncsDescriptors mit).mapM (exportSignature mit)

/-! ## Records -/

/-- `TYPE_RESOLVE_RECURSION_LIMIT` of the loader. -/
def typeResolveRecursionLimit : Nat := 1024

mutual

def handleItype (itype : IType) (allRecordTypes exportRecordTypes : RecordTypes)
    (recursionLevel : Nat) : Except ITInterfaceError RecordTypes :=
  if typeResolveRecursionLimit < recursionLevel then
    .error .tooManyRecursionLevels
  else
    match itype with
    | .record recordTypeId =>
      handleRecordType recordTypeId allRecordTypes exportRecordTypes (recursionLevel + 1)
    | .array arrayTy => handleItype arrayTy allRecordTypes exportRecordTypes (recursionLevel + 1)
    | _ => .ok exportRecordTypes
termination_by (typeResolveRecursionLimit + 1 - recursionLevel, 0)

/-- The level is checked only where a type is handled. -/
def handleRecordType (recordTypeId : Nat) (allRecordTypes exportRecordTypes : RecordTypes)
    (recursionLevel : Nat) : Except ITInterfaceError RecordTypes :=
  match allRecordTypes.lookup recordTypeId with
  | none => .error (.notFoundRecordTypeId recordTypeId)
  | some recordType =>
    recordType.fields.foldlM
      (fun exportRecordTypes field =>
        handleItype field.ty allRecordTypes exportRecordTypes (recursionLevel + 1))
      (exportRecordTypes.insert recordTypeId recordType)
termination_by (typeResolveRecursionLimit + 1 - recursionLevel, 1)
decreasing_by
  have hlevel : typeResolveRecursionLimit + 1 - (recursionLevel + 1) ≤
      typeResolveRecursionLimit + 1 - recursionLevel := by omega
  exact Prod.Lex.right' _ hlevel Nat.zero_lt_one

end

/-- The record of a type of the section. -/
def asRecord : AstType → Option IRecordType
  | .record recordType => some recordType
  | .function _ _ => none

def getAllRecords (mit : MITInterfaces) : RecordTypes :=
  Maps.collect <| mit.types.zipIdx.filterMap fun p =>
    (asRecord p.1).map fun recordType => (p.2, recordType)

/-- The types of the arguments and outputs. -/
def IFunctionSignature.itypes (s : IFunctionSignature) : List IType :=
  s.arguments.map FunctionArg.ty ++ s.outputs

def getRecordTypes (mit : MITInterfaces) (exportFuncs : List IFunctionSignature) :
    Except ITInterfaceError FullRecordTypes := do
  let allRecordTypes := getAllRecords mit
  let exportRecordTypes ← (exportFuncs.flatMap IFunctionSignature.itypes).foldlM
    (fun exportRecordTypes itype => handleItype itype allRecordTypes exportRecordTypes 0) ∅
  return ⟨allRecordTypes, exportRecordTypes⟩

def getInterface (mit : MITInterfaces) : Except ITInterfaceError IModuleInterface := do
  let functionSignatures ← getExportFuncs mit
  let fullRecordTypes ← getRecordTypes mit functionSignatures
  return ⟨fullRecordTypes.exportRecordTypes, fullRecordTypes.recordTypes, functionSignatures⟩

/-! ## What the level limit allows -/

/-- The types right inside a type, and how many levels lower they are handled. -/
def innerTypes (allRecordTypes : RecordTypes) : IType → List (IType × Nat)
  | .record recordTypeId =>
    (allRecordTypes.lookup recordTypeId).elim [] fun recordType =>
      recordType.fields.map fun field => (field.ty, 2)
  | .array arrayTy => [(arrayTy, 1)]
  | _ => []

def IsKnown (allRecordTypes : RecordTypes) : IType → Prop
  | .record recordTypeId => (allRecordTypes.lookup recordTypeId).isSome
  | _ => True

theorem innerTypes_pos {allRecordTypes : RecordTypes} {itype inner : IType} {w : Nat}
    (h : (inner, w) ∈ innerTypes allRecordTypes itype) : 0 < w := by
  cases itype with
  | record recordTypeId =>
    dsimp only [innerTypes] at h
    cases hlookup : allRecordTypes.lookup recordTypeId with
    | none => rw [hlookup] at h; cases h
    | some recordType =>
      rw [hlookup] at h
      obtain ⟨field, -, hfield⟩ := List.mem_map.mp h
      cases hfield
      exact Nat.two_pos
  | array arrayTy =>
    cases List.mem_singleton.mp h
    exact Nat.one_pos
  | _ => cases h

/-- **Spec of `handle_itype`.**  What it has collected so far does not matter. -/
theorem handleItype_isOk_iff (allRecordTypes exportRecordTypes : RecordTypes) (itype : IType)
    (recursionLevel : Nat) :
    (handleItype itype allRecordTypes exportRecordTypes recursionLevel).isOk ↔
      ∀ n inner, Walks.Path (innerTypes allRecordTypes) itype n inner →
        recursionLevel + n ≤ typeResolveRecursionLimit ∧ IsKnown allRecordTypes inner := by
  refine Walks.check_iff
    (c := fun exportRecordTypes itype recursionLevel =>
      (handleItype itype allRecordTypes exportRecordTypes recursionLevel).isOk)
    (fun _ _ _ => innerTypes_pos) ?_ ?_ exportRecordTypes itype recursionLevel
  · intro exportRecordTypes itype level hlevel
    rw [handleItype.eq_def, if_pos hlevel]
    nofun
  · intro exportRecordTypes itype level hlevel hsame
    rw [handleItype.eq_def itype allRecordTypes exportRecordTypes level,
      if_neg (Nat.not_lt.mpr hlevel)]
    cases itype with
    | record recordTypeId =>
      dsimp only [IsKnown, innerTypes] at hsame ⊢
      unfold handleRecordType
      cases hlookup : allRecordTypes.lookup recordTypeId with
      | none => exact ⟨nofun, fun h => nomatch h.1⟩
      | some recordType =>
        simp only [hlookup, Option.elim_some] at hsame
        have hfields : ∀ field ∈ recordType.fields, ∀ s,
            ((handleItype field.ty allRecordTypes s (level + 1 + 1)).isOk ↔
              ∀ s', (handleItype field.ty allRecordTypes s' (level + 2)).isOk) :=
          fun field hfield s =>
            have hmem := List.mem_map.mpr ⟨field, hfield, rfl⟩
            ⟨fun h s' => hsame field.ty 2 hmem s s' h, fun h => h s⟩
        refine (Fallible.foldlM_isOk_iff hfields _).trans ⟨fun h => ⟨rfl, fun inner w hmem => ?_⟩,
          fun h field hfield => h.2 _ _ (List.mem_map.mpr ⟨field, hfield, rfl⟩)⟩
        obtain ⟨field, hfield, hinner⟩ := List.mem_map.mp hmem
        cases hinner
        exact h field hfield
    | array arrayTy =>
      have harray : (arrayTy, 1) ∈ innerTypes allRecordTypes (.array arrayTy) :=
        List.mem_singleton.mpr rfl
      refine ⟨fun h => ⟨trivial, fun inner w hmem s' => ?_⟩, fun h => h.2 _ _ harray _⟩
      cases List.mem_singleton.mp hmem
      exact hsame _ _ harray _ s' h
    | _ => exact ⟨fun _ => ⟨trivial, nofun⟩, fun _ => rfl⟩

end Marine.Loader
