import Marine.Generator.Functions
import Marine.Lib.Fallible

/-!
# Generation of the interface types section

`generate_interfaces` of `crates/it-generator/src/interface_generator.rs`: the
default export API, then the records, their validation, the exported functions
and the functions of other modules.
-/

namespace Marine.Generator

def ApiExportFuncDescriptor.updateInterfaces (d : ApiExportFuncDescriptor)
    (interfaces : Interfaces) : Interfaces :=
  { interfaces with
    types := interfaces.types ++ [.function d.arguments d.outputTypes]
    exports := interfaces.exports ++ [⟨d.name, d.id⟩] }

/-- The functions of the default export API; the order matters. -/
def apiFuncs : List ApiExportFuncDescriptor :=
  [allocateFunc, releaseObjects, getResultSizeFunc, getResultPtrFunc, setResultSizeFunc,
    setResultPtrFunc]

def generateDefaultExportApi (interfaces : Interfaces) : Interfaces :=
  apiFuncs.foldl (fun interfaces d => d.updateInterfaces interfaces) interfaces

/-- `TYPE_RESOLVE_RECURSION_LIMIT` of the generator. -/
def typeResolveRecursionLimit : Nat := 1024

/-- Only fields that are records by value are followed. -/
def validateRecordType (r : ITResolver) (recordType : IRecordType) (recursionLevel : Nat) :
    Except ITGeneratorError Unit :=
  if _h : typeResolveRecursionLimit ≤ recursionLevel then
    .error (.corruptedRecord "too many inner structures level")
  else
    recordType.fields.forM fun field =>
      match field.ty with
      | .record recordTypeId => do
        let innerRecordType ← r.getRecordType recordTypeId
        validateRecordType r innerRecordType (recursionLevel + 1)
      | _ => .ok ()
termination_by typeResolveRecursionLimit - recursionLevel

def validateRecords (r : ITResolver) : Except ITGeneratorError Unit :=
  if r.unresolvedTypesCount ≠ 0 then
    .error (.corruptedRecord (toString r.unresolvedTypesCount ++ " types unresolved"))
  else
    r.interfaces.types.forM fun ty =>
      match ty with
      | .record recordType => validateRecordType r recordType 0
      | .function _ _ => .ok ()

/-- The resolver with the default export API. -/
def apiResolver : ITResolver :=
  { ITResolver.empty with
    interfaces := generateDefaultExportApi ITResolver.empty.interfaces }

def generateInterfaces (deps : Externals) (moduleAst : ModuleAST) :
    Except ITGeneratorError Interfaces := do
  let r ← moduleAst.records.foldlM (generateRecord deps) apiResolver
  validateRecords r
  let r ← moduleAst.functions.foldlM (FnType.generateIt deps) r
  let r ← moduleAst.externMods.foldlM (ExternModType.generateIt deps) r
  return r.interfaces

/-! ## Records without records by value -/

/-- No field is a record by value. -/
def isFlat : AstType → Bool
  | .function _ _ => true
  | .record recordType => recordType.fields.all fun field =>
    match field.ty with
    | .record _ => false
    | _ => true

/-- Flat records are valid. -/
theorem validateRecords_flat {r : ITResolver} (hcount : r.unresolvedTypesCount = 0)
    (hflat : r.interfaces.types.all isFlat) : validateRecords r = .ok () := by
  rw [validateRecords, if_neg (not_not.mpr hcount)]
  refine Fallible.forM_eq_ok_iff.mpr fun ty hty => ?_
  have hfields := List.all_eq_true.mp hflat ty hty
  cases ty with
  | function _ _ => rfl
  | record recordType =>
    show validateRecordType r recordType 0 = .ok ()
    rw [validateRecordType, dif_neg (by decide)]
    refine Fallible.forM_eq_ok_iff.mpr fun field hmem => ?_
    have hfield := List.all_eq_true.mp hfields field hmem
    split
    · rename_i id hrecord
      rw [hrecord] at hfield
      cases hfield
    · rfl

/-- `Externals` as the crates have them; the default record has one scalar field. -/
def crateExternals : Externals where
  isComplexType
    | .utf8Str | .utf8String | .vector _ | .record _ => true
    | _ => false
  serTypeSize
    | .boolean | .s8 | .u8 => 1
    | .s16 | .u16 => 2
    | .s64 | .u64 | .i64 | .f64 => 8
    | .string | .byteArray | .array _ => 8
    | _ => 4
  defaultRecord := ⟨"", [⟨"", .s8⟩]⟩

end Marine.Generator
