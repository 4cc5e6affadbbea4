import Marine.Json.Value
import Marine.Lib.Fallible

/-!
# The converters between JSON and interface values

`ivalues_to_json.rs` and `json_to_ivalues.rs` of `crates/it-json-serde`.  Both
recurse through arrays and records; a scalar argument is also taken out of an
array of one element.
-/

namespace Marine.Json

open Marine.Runtime

/-! ## Interface values to JSON -/

/-- The cases of `ivalue_to_json` that do not recurse, and its last one. -/
def scalarToJson (serde : SerdeJson) : IValue → IType → JsonResult JValue
  | .boolean v, .boolean => .ok (.bool v)
  | .s8 v, .s8 => .ok (.number (.ofInt v.toInt))
  | .s16 v, .s16 => .ok (.number (.ofInt v.toInt))
  | .s32 v, .s32 => .ok (.number (.ofInt v.toInt))
  | .s64 v, .s64 => .ok (.number (.ofInt v.toInt))
  | .u8 v, .u8 => .ok (.number (.ofInt v.toNat))
  | .u16 v, .u16 => .ok (.number (.ofInt v.toNat))
  | .u32 v, .u32 => .ok (.number (.ofInt v.toNat))
  | .u64 v, .u64 => .ok (.number (.ofInt v.toNat))
  | .i32 v, .i32 => .ok (.number (.ofInt v.toInt))
  | .i64 v, .i64 => .ok (.number (.ofInt v.toInt))
  | .f32 bits, .f32 => .ok (serde.f32ToJson bits)
  | .f64 bits, .f64 => .ok (serde.f64ToJson bits)
  | .string v, .string => .ok (.string v)
  | v, ty => Se ("value " ++ serde.debugValue v ++ " is incompatible to type " ++
      serde.debugType ty)

mutual

def ivalueToJson (serde : SerdeJson) (recordTypes : RecordTypes) :
    IValue → IType → JsonResult JValue
  | .byteArray value, .byteArray =>
    .ok (.array (value.map fun v => .number (.ofInt v.toNat)))
  | .array value, .byteArray => do
    let result ← arrayToJson serde recordTypes value .u8
    return .array result
  | .byteArray value, .array arrayTy => do
    -- a byte is a scalar
    let result ← value.mapM fun v => scalarToJson serde (.u8 v) arrayTy
    return .array result
  | .array value, .array arrayTy => do
    let result ← arrayToJson serde recordTypes value arrayTy
    return .array result
  | .record fieldValues, .record recordId =>
    match recordTypes.lookup recordId with
    | none => Se ("record id " ++ toString recordId ++ " wasn't found in module record types")
    | some recordType =>
      if fieldValues.length ≠ recordType.fields.length then
        Se ("output record " ++ serde.debugValues fieldValues ++
          " isn't compatible to output record fields " ++ serde.debugFields recordType.fields)
      else do
        let result ← fieldsToJson serde recordTypes fieldValues recordType.fields []
        return .object result
  | value, ty => scalarToJson serde value ty

def arrayToJson (serde : SerdeJson) (recordTypes : RecordTypes) :
    List IValue → IType → JsonResult (List JValue)
  | [], _ => .ok []
  | value :: values, arrayTy => do
    let jsonValue ← ivalueToJson serde recordTypes value arrayTy
    let rest ← arrayToJson serde recordTypes values arrayTy
    return jsonValue :: rest

/-- The loop over values and field types; `result` is the map so far. -/
def fieldsToJson (serde : SerdeJson) (recordTypes : RecordTypes) :
    List IValue → List IRecordFieldType → List (String × JValue) →
      JsonResult (List (String × JValue))
  | fieldValue :: fieldValues, fieldType :: fieldTypes, result => do
    let jsonFieldValue ← ivalueToJson serde recordTypes fieldValue fieldType.ty
    fieldsToJson serde recordTypes fieldValues fieldTypes
      (insertEntry result fieldType.name jsonFieldValue)
  | _, _, result => .ok result

end

def ivaluesToJson (serde : SerdeJson) (ivalues : List IValue) (outputs : List IType)
    (recordTypes : RecordTypes) : JsonResult JValue :=
  if outputs.length ≠ ivalues.length then
    Se ("resulted values " ++ serde.debugValues ivalues ++ " and function signature " ++
      serde.debugTypes outputs ++ " aren't compatible")
  else
    match ivalues, outputs with
    | [], _ => .ok .null
    | [ivalue], output :: _ => ivalueToJson serde recordTypes ivalue output
    -- `unimplemented!`
    | _, _ => .error .panicked

/-! ## JSON to interface values -/

/-- An array of one element is flattened. -/
def flattened : JValue → JValue
  | .array [jsonValue] => jsonValue
  | jsonValue => jsonValue

/-- `to_ivalue!`. -/
def toIvalue (serde : SerdeJson) (ty : IType) (jsonValue : JValue) : JsonResult IValue :=
  match serde.fromValue ty (flattened jsonValue) with
  | some value => .ok value
  | none => De ("error " ++ serde.fromValueError ty (flattened jsonValue) ++
      " occurred while deserializing function arguments")

/-- `NEVec::new(..).unwrap()`. -/
def recordOfFields : List IValue → JsonResult IValue
  | [] => .error .panicked
  | iargs => .ok (.record iargs)

mutual

def jvalueToIvalue (serde : SerdeJson) (recordTypes : RecordTypes) (jvalue : JValue) (ty : IType) :
    JsonResult IValue :=
  match ty with
  | .byteArray =>
    match jvalue with
    | .array jsonArray => do
      let iargs ← elementsToIvalues serde recordTypes jsonArray .u8
      return .array iargs
    | jvalue => De ("expected bytearray, got " ++ serde.debugJson jvalue)
  | .array valueType =>
    match jvalue with
    | .array jsonArray => do
      let iargs ← elementsToIvalues serde recordTypes jsonArray valueType
      return .array iargs
    | jvalue => De ("expected array of " ++ serde.debugType valueType ++ " types, got " ++
        serde.debugJson jvalue)
  | .record recordTypeId =>
    match recordTypes.lookup recordTypeId with
    | none => De ("record with type id `" ++ toString recordTypeId ++ "` wasn't found")
    | some recordType =>
      match jvalue with
      | .object jsonMap => do
        let iargs ← jsonMapToIvalues serde recordTypes jsonMap
          (recordType.fields.map fun field => ⟨field.name, field.ty⟩) 0
        recordOfFields iargs
      | .array jsonArray => do
        let iargs ← jsonArrayToIvalues serde recordTypes jsonArray
          (recordType.fields.map IRecordFieldType.ty)
        recordOfFields iargs
      | _ => De ("record with type id `" ++ toString recordTypeId ++
          "` should be encoded as array or map of fields")
  | ty => toIvalue serde ty jvalue
termination_by (sizeOf jvalue, 0)

/-- The elements of an array, all at one type. -/
def elementsToIvalues (serde : SerdeJson) (recordTypes : RecordTypes) (jsonArray : List JValue)
    (ty : IType) : JsonResult (List IValue) :=
  match jsonArray with
  | [] => .ok []
  | jsonValue :: jsonArray => do
    let iarg ← jvalueToIvalue serde recordTypes jsonValue ty
    let iargs ← elementsToIvalues serde recordTypes jsonArray ty
    return iarg :: iargs
termination_by (sizeOf jsonArray, 0)

/-- `done` arguments have been taken out of the map. -/
def jsonMapToIvalues (serde : SerdeJson) (recordTypes : RecordTypes)
    (jsonMap : List (String × JValue)) (argTypes : List FunctionArg) (done : Nat) :
    JsonResult (List IValue) :=
  match argTypes with
  | [] =>
    if jsonMap = [] then .ok []
    else De ("function requires " ++ toString done ++ " arguments, " ++
      toString (done + jsonMap.length) ++ " provided")
  | arg :: argTypes =>
    match hremove : removeEntry jsonMap arg.name with
    | none => De ("missing argument with name " ++ arg.name)
    | some (jsonValue, rest) => do
      have hvalue := (removeEntry_sizeOf hremove).1
      have hrest := (removeEntry_sizeOf hremove).2
      let iarg ← jvalueToIvalue serde recordTypes jsonValue arg.ty
      let iargs ← jsonMapToIvalues serde recordTypes rest argTypes (done + 1)
      return iarg :: iargs
termination_by (sizeOf jsonMap, argTypes.length)

def jsonArrayToIvalues (serde : SerdeJson) (recordTypes : RecordTypes) (jsonArray : List JValue)
    (argTypes : List IType) : JsonResult (List IValue) :=
  if jsonArray.length ≠ argTypes.length then
    De ("function requires " ++ toString argTypes.length ++ " arguments, " ++
      toString jsonArray.length ++ " provided")
  else
    zippedToIvalues serde recordTypes jsonArray argTypes
termination_by (sizeOf jsonArray, 1)

/-- The elements of an array, each at its own type. -/
def zippedToIvalues (serde : SerdeJson) (recordTypes : RecordTypes) (jsonArray : List JValue)
    (argTypes : List IType) : JsonResult (List IValue) :=
  match jsonArray, argTypes with
  | jsonValue :: jsonArray, argType :: argTypes => do
    let iarg ← jvalueToIvalue serde recordTypes jsonValue argType
    let iargs ← zippedToIvalues serde recordTypes jsonArray argTypes
    return iarg :: iargs
  | _, _ => .ok []
termination_by (sizeOf jsonArray, 0)

end

/-- A number, a string or a Boolean is the only argument; it meets no records. -/
def jsonValueToIvalues (serde : SerdeJson) (jsonValue : JValue) :
    List FunctionArg → JsonResult (List IValue)
  | [arg] => do
    let ivalue ← jvalueToIvalue serde ∅ jsonValue arg.ty
    return [ivalue]
  | argTypes => De ("called function has the following signature: '" ++ serde.debugArgs argTypes ++
      "', and it isn't suitable for an argument '" ++ serde.debugJson jsonValue ++ "' provided")

def jsonNullToIvalues (serde : SerdeJson) : List FunctionArg → JsonResult (List IValue)
  | [] => .ok []
  | argTypes => De ("the called function has the following signature: " ++
      serde.debugArgs argTypes ++ ", but no arguments is provided")

def jsonToIvalues (serde : SerdeJson) (jsonArgs : JValue) (argTypes : List FunctionArg)
    (recordTypes : RecordTypes) : JsonResult (List IValue) :=
  match jsonArgs with
  | .object jsonMap => jsonMapToIvalues serde recordTypes jsonMap argTypes 0
  | .array jsonArray =>
    jsonArrayToIvalues serde recordTypes jsonArray (argTypes.map FunctionArg.ty)
  | .null => jsonNullToIvalues serde argTypes
  | jsonValue => jsonValueToIvalues serde jsonValue argTypes

/-! ## Unfolding -/

section Unfolding

variable (serde : SerdeJson) (recordTypes : RecordTypes)

/-- The types whose values `to_ivalue!` makes. -/
def isScalarType : IType → Bool
  | .byteArray | .array _ | .record _ => false
  | _ => true

theorem jvalueToIvalue_scalar (j : JValue) {ty : IType} (h : isScalarType ty) :
    jvalueToIvalue serde recordTypes j ty = toIvalue serde ty j := by
  rw [jvalueToIvalue.eq_def]
  cases ty <;> first | rfl | cases h

@[simp] theorem jvalueToIvalue_byteArray (js : List JValue) :
    jvalueToIvalue serde recordTypes (.array js) .byteArray =
      (elementsToIvalues serde recordTypes js .u8 >>= fun iargs => .ok (.array iargs)) := by
  rw [jvalueToIvalue]
  rfl

@[simp] theorem jvalueToIvalue_array (js : List JValue) (ty : IType) :
    jvalueToIvalue serde recordTypes (.array js) (.array ty) =
      (elementsToIvalues serde recordTypes js ty >>= fun iargs => .ok (.array iargs)) := by
  rw [jvalueToIvalue]
  rfl

/-- Both list loops convert element by element. -/
theorem elementsToIvalues_eq (js : List JValue) (ty : IType) :
    elementsToIvalues serde recordTypes js ty =
      js.mapM fun j => jvalueToIvalue serde recordTypes j ty := by
  induction js with
  | nil =>
    rw [elementsToIvalues]
    rfl
  | cons j js ih => rw [elementsToIvalues, ih, List.mapM_cons]

theorem arrayToJson_eq (vs : List IValue) (ty : IType) :
    arrayToJson serde recordTypes vs ty =
      vs.mapM fun v => ivalueToJson serde recordTypes v ty := by
  induction vs with
  | nil => rfl
  | cons v vs ih => rw [arrayToJson, ih, List.mapM_cons]

variable {serde recordTypes} in
/-- An argument whose name is in the map. -/
theorem jsonMapToIvalues_cons {jsonMap rest : List (String × JValue)} {arg : FunctionArg}
    {jsonValue : JValue} (h : removeEntry jsonMap arg.name = some (jsonValue, rest))
    (argTypes : List FunctionArg) (done : Nat) :
    jsonMapToIvalues serde recordTypes jsonMap (arg :: argTypes) done =
      (jvalueToIvalue serde recordTypes jsonValue arg.ty >>= fun iarg =>
        jsonMapToIvalues serde recordTypes rest argTypes (done + 1) >>= fun iargs =>
          .ok (iarg :: iargs)) := by
  rw [jsonMapToIvalues]
  split
  · rename_i hnone
    rw [h] at hnone
    cases hnone
  · rename_i hsome
    rw [h] at hsome
    cases hsome
    rfl

variable {serde recordTypes} in
/-- An argument whose name is not in the map. -/
theorem jsonMapToIvalues_missing {jsonMap : List (String × JValue)} {arg : FunctionArg}
    (h : removeEntry jsonMap arg.name = none) (argTypes : List FunctionArg) (done : Nat) :
    jsonMapToIvalues serde recordTypes jsonMap (arg :: argTypes) done =
      De ("missing argument with name " ++ arg.name) := by
  rw [jsonMapToIvalues]
  split
  · rfl
  · rename_i hsome
    rw [h] at hsome
    cases hsome

variable {serde recordTypes} in
/-- Without arguments nothing may be left in the map. -/
theorem jsonMapToIvalues_nil_ok {jsonMap : List (String × JValue)} {done : Nat} {vs : List IValue}
    (h : jsonMapToIvalues serde recordTypes jsonMap [] done = .ok vs) : jsonMap = [] ∧ vs = [] := by
  rw [jsonMapToIvalues] at h
  by_cases hempty : jsonMap = []
  · rw [if_pos hempty] at h
    cases h
    exact ⟨hempty, rfl⟩
  · rw [if_neg hempty] at h
    cases h

variable {serde recordTypes} in
/-- An argument that is read takes its name out of the map. -/
theorem jsonMapToIvalues_cons_ok {jsonMap : List (String × JValue)} {arg : FunctionArg}
    {argTypes : List FunctionArg} {done : Nat} {vs : List IValue}
    (h : jsonMapToIvalues serde recordTypes jsonMap (arg :: argTypes) done = .ok vs) :
    ∃ jsonValue rest v vs', removeEntry jsonMap arg.name = some (jsonValue, rest) ∧
      jvalueToIvalue serde recordTypes jsonValue arg.ty = .ok v ∧
      jsonMapToIvalues serde recordTypes rest argTypes (done + 1) = .ok vs' ∧ vs = v :: vs' := by
  cases hremove : removeEntry jsonMap arg.name with
  | none =>
    rw [jsonMapToIvalues_missing hremove] at h
    cases h
  | some p =>
    obtain ⟨jsonValue, rest⟩ := p
    rw [jsonMapToIvalues_cons hremove] at h
    obtain ⟨v, hv, h⟩ := Fallible.bind_eq_ok_iff.mp h
    obtain ⟨vs', hvs', h⟩ := Fallible.bind_eq_ok_iff.mp h
    cases h
    exact ⟨jsonValue, rest, v, vs', rfl, hv, hvs', rfl⟩

section Record

variable {recordTypes}
variable {id : Nat} {recordType : IRecordType} (hrecord : recordTypes.lookup id = some recordType)

include hrecord

theorem ivalueToJson_record {fieldValues : List IValue}
    (hlen : fieldValues.length = recordType.fields.length) :
    ivalueToJson serde recordTypes (.record fieldValues) (.record id) =
      (fieldsToJson serde recordTypes fieldValues recordType.fields [] >>= fun entries =>
        .ok (.object entries)) := by
  rw [ivalueToJson]
  simp only [hrecord]
  rw [if_neg (not_not.mpr hlen)]
  rfl

theorem jvalueToIvalue_object (jsonMap : List (String × JValue)) :
    jvalueToIvalue serde recordTypes (.object jsonMap) (.record id) =
      (jsonMapToIvalues serde recordTypes jsonMap
        (recordType.fields.map fun field => ⟨field.name, field.ty⟩) 0 >>= recordOfFields) := by
  rw [jvalueToIvalue]
  simp only [hrecord]

theorem jvalueToIvalue_fieldArray (jsonArray : List JValue) :
    jvalueToIvalue serde recordTypes (.array jsonArray) (.record id) =
      (jsonArrayToIvalues serde recordTypes jsonArray
        (recordType.fields.map IRecordFieldType.ty) >>= recordOfFields) := by
  rw [jvalueToIvalue]
  simp only [hrecord]

end Record

/-- Scalars are no arrays, records or byte arrays. -/
theorem ivalueToJson_scalar {v : IValue} {ty : IType} (h : isScalarType ty) :
    ivalueToJson serde recordTypes v ty = scalarToJson serde v ty := by
  cases ty <;> first | (cases v <;> rfl) | cases h

end Unfolding

end Marine.Json
