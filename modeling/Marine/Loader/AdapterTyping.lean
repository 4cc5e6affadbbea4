import Marine.Generator.Layout
import Marine.Lib.StackCode
import Marine.Loader.ItInstance

/-!
# Typing of adapters

An adapter is straight-line code over a stack of interface types.  `signature`
gives what each instruction takes and leaves, with the functions of the SDK
behind `call-core`; the four tables of the generator each get one typing lemma,
and the loops over arguments and outputs put them together.

* `exportAdapter_typed`: from the declared arguments to the declared output.
* `importAdapter_typed`: from the raw arguments to the raw output.
-/

namespace Marine.Loader

open Marine.Generator StackCode

/-! ## Typed execution -/

/-- What an adapter runs in: its arguments and the function it is for. -/
structure AdapterEnv where
  arguments : List IType
  callee : Nat
  params : List IType
  results : List IType

/-- The default export API as the SDK has it: `allocate` takes a size and a type tag. -/
def apiSignature : Nat → Option (List IType × List IType)
  | 0 => some ([.i32, .i32], [.i32])
  | 1 => some ([], [])
  | 2 | 3 => some ([], [.i32])
  | 4 | 5 => some ([.i32], [])
  | _ => none

namespace AdapterEnv

def function (env : AdapterEnv) (functionIndex : Nat) : Option (List IType × List IType) :=
  if functionIndex = env.callee then some (env.params, env.results)
  else apiSignature functionIndex

/-- What an instruction takes and leaves, top of the stack first. -/
def signature (env : AdapterEnv) : Instruction → Option (List IType × List IType)
  | .argumentGet index => env.arguments[index]?.map fun ty => ([], [ty])
  | .callCore functionIndex => (env.function functionIndex).map fun f => (f.1.reverse, f.2.reverse)
  | .boolFromI32 => some ([.i32], [.boolean])
  | .s8FromI32 => some ([.i32], [.s8])
  | .s16FromI32 => some ([.i32], [.s16])
  | .s32FromI32 => some ([.i32], [.s32])
  | .s64FromI64 => some ([.i64], [.s64])
  | .i32FromBool => some ([.boolean], [.i32])
  | .i32FromS8 => some ([.s8], [.i32])
  | .i32FromS16 => some ([.s16], [.i32])
  | .i32FromS32 => some ([.s32], [.i32])
  | .i64FromS64 => some ([.s64], [.i64])
  | .u8FromI32 => some ([.i32], [.u8])
  | .u16FromI32 => some ([.i32], [.u16])
  | .u32FromI32 => some ([.i32], [.u32])
  | .u64FromI64 => some ([.i64], [.u64])
  | .i32FromU8 => some ([.u8], [.i32])
  | .i32FromU16 => some ([.u16], [.i32])
  | .i32FromU32 => some ([.u32], [.i32])
  | .i64FromU64 => some ([.u64], [.i64])
  | .stringLiftMemory => some ([.i32, .i32], [.string])
  -- the pointer to the allocated memory lies below the string
  | .stringLowerMemory => some ([.string, .i32], [.i32, .i32])
  | .stringSize => some ([.string], [.i32])
  | .byteArrayLiftMemory => some ([.i32, .i32], [.byteArray])
  | .arrayLiftMemory valueType => some ([.i32, .i32], [.array valueType])
  -- lowers byte arrays too, as arrays of `u8`
  | .arrayLowerMemory valueType => some ([arrayOf valueType], [.i32, .i32])
  | .recordLiftMemory recordTypeId => some ([.i32], [.record recordTypeId])
  | .recordLowerMemory recordTypeId => some ([.record recordTypeId], [.i32])
  | .pushI32 _ => some ([], [.i32])
  | .dup | .swap2 => none

/-- One instruction on a stack of types; `none` for underflow or a wrong type. -/
def step (env : AdapterEnv) : Instruction → List IType → Option (List IType)
  | .dup, ty :: stack => some (ty :: ty :: stack)
  | .swap2, ty :: ty' :: stack => some (ty' :: ty :: stack)
  | i, stack => (env.signature i).bind fun s => popPush s.1 s.2 stack

theorem step_signature {env : AdapterEnv} {i : Instruction} {pops pushes : List IType}
    (h : env.signature i = some (pops, pushes)) (rest : List IType) :
    env.step i (pops ++ rest) = some (pushes ++ rest) := by
  have hstep : env.step i (pops ++ rest) =
      (env.signature i).bind fun s => popPush s.1 s.2 (pops ++ rest) := by
    cases i <;> first | rfl | cases h
  rw [hstep, h]
  exact popPush_append pops pushes rest

/-- **Instruction rule.** -/
theorem moves_single {env : AdapterEnv} {i : Instruction} {pops pushes : List IType}
    (h : env.signature i = some (pops, pushes)) : Moves env.step [i] pops pushes :=
  Moves.single (step_signature h)

theorem moves_argumentGet {env : AdapterEnv} {index : Nat} {ty : IType}
    (h : env.arguments[index]? = some ty) : Moves env.step [.argumentGet index] [] [ty] :=
  moves_single (by rw [signature, h]; rfl)

/-- The call of the function the adapter is for. -/
theorem moves_callee (env : AdapterEnv) :
    Moves env.step [.callCore env.callee] env.params.reverse env.results.reverse :=
  moves_single (by rw [signature, function, if_pos rfl]; rfl)

theorem moves_api {env : AdapterEnv} (hcallee : apiFuncs.length ≤ env.callee)
    {d : ApiExportFuncDescriptor} (hd : d ∈ apiFuncs) {params results : List IType}
    (h : apiSignature d.id = some (params, results)) :
    Moves env.step [.callCore d.id] params.reverse results.reverse := by
  have hids : ∀ d ∈ apiFuncs, d.id < apiFuncs.length := by decide
  have hne : d.id ≠ env.callee := by
    have hid := hids d hd
    omega
  exact moves_single (by rw [signature, function, if_neg hne, h]; rfl)

/-- An argument of the adapter that an instruction converts. -/
theorem moves_argument {env : AdapterEnv} {index : Nat} {ty : IType} {pushes : List IType}
    {i : Instruction} (harg : env.arguments[index]? = some ty)
    (h : env.signature i = some ([ty], pushes)) :
    Moves env.step [.argumentGet index, i] [] pushes :=
  (moves_argumentGet harg).append (moves_single h)

/-- A vector of anything but bytes is lifted as an array. -/
theorem moves_arrayLift {env : AdapterEnv} {elem : IType} (h : elem ≠ .u8) :
    Moves env.step [.arrayLiftMemory elem] [.i32, .i32] [arrayOf elem] := by
  rw [arrayOf, if_neg h]
  exact moves_single rfl

/-- Pointer and size of the result are set. -/
theorem moves_setResult {env : AdapterEnv} (hcallee : apiFuncs.length ≤ env.callee) :
    Moves env.step [.callCore setResultSizeFunc.id, .callCore setResultPtrFunc.id]
      [.i32, .i32] [] :=
  ((moves_api hcallee (d := setResultSizeFunc) (by decide) rfl).frame [.i32]).append
    (moves_api hcallee (d := setResultPtrFunc) (by decide) rfl)

theorem moves_getResult {env : AdapterEnv} (hcallee : apiFuncs.length ≤ env.callee) :
    Moves env.step [.callCore getResultPtrFunc.id, .callCore getResultSizeFunc.id]
      [] [.i32, .i32] :=
  (moves_api hcallee (d := getResultPtrFunc) (by decide) rfl).append
    ((moves_api hcallee (d := getResultSizeFunc) (by decide) rfl).frame [.i32])

theorem moves_releaseCall {env : AdapterEnv} (hcallee : apiFuncs.length ≤ env.callee)
    (deps : Externals) (types : List ParsedType) (stack : List IType) :
    Moves env.step (releaseCall deps types) stack stack := by
  unfold releaseCall
  split
  · exact (moves_api hcallee (d := releaseObjects) (by decide) rfl).frame stack
  · exact Moves.nil stack

end AdapterEnv

/-! ## Types on both sides of an adapter -/

/-- Every record named in a described type has its name in the resolver. -/
def Registered (r : ITResolver) : ParsedType → Prop
  | .vector elem => Registered r elem
  | .record recordName => (r.types.lookup recordName).isSome
  | _ => True

theorem ptypeToItypeChecked_ok {r : ITResolver} {ty : ParsedType} (h : Registered r ty) :
    ∃ t, ptypeToItypeChecked r ty = .ok t := by
  induction ty with
  | vector elem ih =>
    obtain ⟨t, ht⟩ := ih h
    exact ⟨arrayOf t, ptypeToItypeChecked_vector_iff.mpr ⟨t, ht, rfl⟩⟩
  | record recordName =>
    obtain ⟨id, hid⟩ := Option.isSome_iff_exists.mp h
    exact ⟨.record id, ptypeToItypeChecked_record_iff.mpr ⟨id, hid, rfl⟩⟩
  | _ => exact ⟨_, rfl⟩

/-- The interface type that the runtime gives to a Wasm-level type. -/
def coreType : RustType → IType
  | .i8 | .i16 | .i32 | .u8 | .u16 | .u32 => .i32
  | .i64 | .u64 => .i64
  | .f32 => .f32
  | .f64 => .f64

/-- The section names a core type by its Rust type; both have one Wasm type. -/
theorem itypeToWtype_coreType (ty : RustType) :
    itypeToWtype (coreType ty) = itypeToWtype (rustTypeToItype ty) ∧
      (itypeToWtype (coreType ty)).isOk ∧ isCoreType (coreType ty) := by
  cases ty <;> exact ⟨rfl, rfl, rfl⟩

/-- Raw types of one argument. -/
def rawInputs (ty : ParsedType) : List IType := (toRawInputTypes ⟨"", ty⟩).map FunctionArg.ty

theorem map_toRawInputTypes (arg : FnArgument) :
    (toRawInputTypes arg).map FunctionArg.ty = rawInputs arg.ty := by
  cases arg with
  | mk name ty => cases ty <;> rfl

/-- What a core function returns for an output. -/
def rawOutputs (ty : ParsedType) : List IType := (toRawOutputType ty).map coreType

/-! ## The four tables -/

section Tables

open AdapterEnv

variable {r : ITResolver} {env : AdapterEnv} {ty : ParsedType} {t : IType}

theorem exportArgInstructions_typed (deps : Externals) (hcallee : apiFuncs.length ≤ env.callee)
    {index : Nat} (ht : ptypeToItypeChecked r ty = .ok t) (harg : env.arguments[index]? = some t) :
    ∃ code, exportArgInstructions deps r index ty = .ok code ∧
      Moves env.step code [] (rawInputs ty).reverse := by
  cases ty with
  | utf8Str | utf8String =>
    cases ht
    have hsize := moves_argument harg (i := .stringSize) rfl
    have htag : Moves env.step [.pushI32 (deps.serTypeSize .u8)] [] [.i32] := moves_single rfl
    have halloc := moves_api hcallee (d := allocateFunc) (by decide) rfl
    have hlower : Moves env.step [.stringLowerMemory] [.string, .i32] [.i32, .i32] :=
      moves_single rfl
    exact ⟨_, rfl, hsize.append ((htag.frame [.i32]).append
      (halloc.append (((moves_argumentGet harg).frame [.i32]).append hlower)))⟩
  | vector elem =>
    obtain ⟨v, hv, rfl⟩ := ptypeToItypeChecked_vector_iff.mp ht
    exact ⟨_, Fallible.bind_eq_ok_iff.mpr ⟨v, hv, rfl⟩, moves_argument harg rfl⟩
  | record recordName =>
    obtain ⟨id, hid, ht⟩ := Fallible.bind_eq_ok_iff.mp ht
    cases ht
    exact ⟨_, Fallible.bind_eq_ok_iff.mpr ⟨id, hid, rfl⟩, moves_argument harg rfl⟩
  | f32 | f64 => cases ht; exact ⟨_, rfl, moves_argumentGet harg⟩
  | _ => cases ht; exact ⟨_, rfl, moves_argument harg rfl⟩

theorem exportOutputInstructions_typed (hcallee : apiFuncs.length ≤ env.callee)
    (ht : ptypeToItypeChecked r ty = .ok t) :
    ∃ code, exportOutputInstructions r ty = .ok code ∧
      Moves env.step code (rawOutputs ty).reverse [t] := by
  cases ty with
  | utf8Str | utf8String =>
    cases ht
    exact ⟨_, rfl, (moves_getResult hcallee).append (moves_single rfl)⟩
  | vector elem =>
    obtain ⟨v, hv, rfl⟩ := ptypeToItypeChecked_vector_iff.mp ht
    by_cases hu8 : v = .u8
    · subst hu8
      exact ⟨_, Fallible.bind_eq_ok_iff.mpr ⟨.u8, hv, rfl⟩,
        (moves_getResult hcallee).append (moves_single rfl)⟩
    · exact ⟨_, Fallible.bind_eq_ok_iff.mpr ⟨v, hv, if_neg hu8⟩,
        (moves_getResult hcallee).append (moves_arrayLift hu8)⟩
  | record recordName =>
    obtain ⟨id, hid, ht⟩ := Fallible.bind_eq_ok_iff.mp ht
    cases ht
    have hptr := moves_api hcallee (d := getResultPtrFunc) (by decide) rfl
    exact ⟨_, Fallible.bind_eq_ok_iff.mpr ⟨id, hid, rfl⟩, hptr.append (moves_single rfl)⟩
  | f32 | f64 => cases ht; exact ⟨_, rfl, Moves.nil _⟩
  | _ => cases ht; exact ⟨_, rfl, moves_single rfl⟩

theorem importArgInstructions_typed {index : Nat} (ht : ptypeToItypeChecked r ty = .ok t)
    (hargs : ∀ i a, (rawInputs ty)[i]? = some a → env.arguments[index + i]? = some a) :
    ∃ code, importArgInstructions r index ty = .ok (code, (rawInputs ty).length) ∧
      Moves env.step code [] [t] := by
  have hpair (h₀ : (rawInputs ty)[0]? = some .i32) (h₁ : (rawInputs ty)[1]? = some .i32) :
      Moves env.step [.argumentGet index, .argumentGet (index + 1)] [] [.i32, .i32] :=
    (moves_argumentGet (hargs 0 .i32 h₀)).append
      ((moves_argumentGet (hargs 1 .i32 h₁)).frame [.i32])
  cases ty with
  | utf8Str | utf8String =>
    cases ht
    exact ⟨_, rfl, (hpair rfl rfl).append (moves_single rfl)⟩
  | vector elem =>
    obtain ⟨v, hv, rfl⟩ := ptypeToItypeChecked_vector_iff.mp ht
    by_cases hu8 : v = .u8
    · subst hu8
      exact ⟨_, Fallible.bind_eq_ok_iff.mpr ⟨.u8, hv, rfl⟩,
        (hpair rfl rfl).append (moves_single rfl)⟩
    · exact ⟨_, Fallible.bind_eq_ok_iff.mpr ⟨v, hv, if_neg hu8⟩,
        (hpair rfl rfl).append (moves_arrayLift hu8)⟩
  | record recordName =>
    obtain ⟨id, hid, ht⟩ := Fallible.bind_eq_ok_iff.mp ht
    cases ht
    exact ⟨_, Fallible.bind_eq_ok_iff.mpr ⟨id, hid, rfl⟩, moves_argument (hargs 0 _ rfl) rfl⟩
  | f32 | f64 => cases ht; exact ⟨_, rfl, moves_argumentGet (hargs 0 _ rfl)⟩
  | _ => cases ht; exact ⟨_, rfl, moves_argument (hargs 0 _ rfl) rfl⟩

theorem importOutputInstructions_typed (deps : Externals) (hcallee : apiFuncs.length ≤ env.callee)
    (ht : ptypeToItypeChecked r ty = .ok t) :
    ∃ code, importOutputInstructions deps r ty = .ok code ∧
      Moves env.step code [t] (rawOutputs ty).reverse := by
  cases ty with
  | utf8Str | utf8String =>
    cases ht
    have hdup : Moves env.step [.dup] [.string] [.string, .string] := Moves.single fun _ => rfl
    have hsize : Moves env.step [.stringSize] [.string] [.i32] := moves_single rfl
    have htag : Moves env.step [.pushI32 (deps.serTypeSize .u8)] [] [.i32] := moves_single rfl
    have halloc := moves_api hcallee (d := allocateFunc) (by decide) rfl
    have hswap : Moves env.step [.swap2] [.i32, .string] [.string, .i32] :=
      Moves.single fun _ => rfl
    have hlower : Moves env.step [.stringLowerMemory] [.string, .i32] [.i32, .i32] :=
      moves_single rfl
    exact ⟨_, rfl, hdup.append ((hsize.frame [.string]).append ((htag.frame [.i32, .string]).append
      ((halloc.frame [.string]).append (hswap.append (hlower.append (moves_setResult hcallee))))))⟩
  | vector elem =>
    obtain ⟨v, hv, rfl⟩ := ptypeToItypeChecked_vector_iff.mp ht
    have hlower : Moves env.step [.arrayLowerMemory v] [arrayOf v] [.i32, .i32] := moves_single rfl
    exact ⟨_, Fallible.bind_eq_ok_iff.mpr ⟨v, hv, rfl⟩, hlower.append (moves_setResult hcallee)⟩
  | record recordName =>
    obtain ⟨id, hid, ht⟩ := Fallible.bind_eq_ok_iff.mp ht
    cases ht
    have hlower : Moves env.step [.recordLowerMemory id] [.record id] [.i32] := moves_single rfl
    exact ⟨_, Fallible.bind_eq_ok_iff.mpr ⟨id, hid, rfl⟩,
      hlower.append (moves_api hcallee (d := setResultPtrFunc) (by decide) rfl)⟩
  | f32 | f64 => cases ht; exact ⟨_, rfl, Moves.nil _⟩
  | _ => cases ht; exact ⟨_, rfl, moves_single rfl⟩

end Tables

/-! ## The loops over arguments and outputs -/

/-- The types a list of arguments has for the callers of the module. -/
def ArgTypes (r : ITResolver) (args : List FnArgument) (types : List IType) : Prop :=
  List.Forall₂ (fun arg t => ptypeToItypeChecked r arg.ty = .ok t) args types

section Loops

variable (deps : Externals) {r : ITResolver} {env : AdapterEnv} {args : List FnArgument}
  {types b : List IType}

theorem exportArgs_typed (hcallee : apiFuncs.length ≤ env.callee) (htypes : ArgTypes r args types)
    (hargs : env.arguments = b ++ types) :
    ∃ code, exportArgs deps r b.length args = .ok code ∧
      Moves env.step code [] (args.flatMap fun arg => rawInputs arg.ty).reverse := by
  induction htypes generalizing b with
  | nil => exact ⟨[], rfl, Moves.nil []⟩
  | @cons arg t args types harg htypes ih =>
    have hget : env.arguments[b.length]? = some t := by simp [hargs]
    have hrest : env.arguments = (b ++ [t]) ++ types := by simp [hargs]
    obtain ⟨instructions, hinstr, hmoves⟩ :=
      exportArgInstructions_typed deps hcallee harg hget
    obtain ⟨rest, hcode, hmovesRest⟩ := ih hrest
    rw [List.length_append] at hcode
    refine ⟨instructions ++ rest, ?_, ?_⟩
    · exact Fallible.bind_eq_ok_iff.mpr ⟨instructions, hinstr,
        Fallible.bind_eq_ok_iff.mpr ⟨rest, hcode, rfl⟩⟩
    · rw [List.flatMap_cons, List.reverse_append]
      exact hmoves.append (hmovesRest.frame _)

theorem importArgs_typed (htypes : ArgTypes r args types)
    (hargs : env.arguments = b ++ args.flatMap fun arg => rawInputs arg.ty) :
    ∃ code, importArgs r b.length args = .ok code ∧ Moves env.step code [] types.reverse := by
  induction htypes generalizing b with
  | nil => exact ⟨[], rfl, Moves.nil []⟩
  | @cons arg t args types harg htypes ih =>
    rw [List.flatMap_cons, ← List.append_assoc] at hargs
    have hget : ∀ i a, (rawInputs arg.ty)[i]? = some a →
        env.arguments[b.length + i]? = some a := by
      intro i a ha
      have hi : i < (rawInputs arg.ty).length := (List.getElem?_eq_some_iff.mp ha).1
      rw [hargs, List.getElem?_append_left (by rw [List.length_append]; omega),
        List.getElem?_append_right (by omega), Nat.add_sub_cancel_left, ha]
    obtain ⟨instructions, hinstr, hmoves⟩ := importArgInstructions_typed harg hget
    obtain ⟨rest, hcode, hmovesRest⟩ := ih hargs
    rw [List.length_append] at hcode
    refine ⟨instructions ++ rest, ?_, ?_⟩
    · exact Fallible.bind_eq_ok_iff.mpr ⟨(instructions, _), hinstr,
        Fallible.bind_eq_ok_iff.mpr ⟨rest, hcode, rfl⟩⟩
    · rw [List.reverse_cons]
      exact hmoves.append (hmovesRest.frame [t])

variable {outputTypes : List ParsedType} {outputs : List IType}

/-- At most one output, and its type. -/
theorem outputs_cases (hone : outputTypes.length ≤ 1)
    (houtputs : outputTypes.mapM (ptypeToItypeChecked r) = .ok outputs) :
    outputTypes = [] ∧ outputs = [] ∨
      ∃ ty t, outputTypes = [ty] ∧ outputs = [t] ∧ ptypeToItypeChecked r ty = .ok t := by
  rcases outputTypes with _ | ⟨ty, _ | ⟨ty', more⟩⟩
  · cases houtputs
    exact .inl ⟨rfl, rfl⟩
  · obtain ⟨t, ht, houtputs⟩ := Fallible.bind_eq_ok_iff.mp houtputs
    cases houtputs
    exact .inr ⟨ty, t, rfl, rfl, ht⟩
  · simp at hone

theorem exportOutputs_typed (hcallee : apiFuncs.length ≤ env.callee)
    (hone : outputTypes.length ≤ 1)
    (houtputs : outputTypes.mapM (ptypeToItypeChecked r) = .ok outputs) :
    ∃ code, exportOutputs r outputTypes = .ok code ∧
      Moves env.step code (outputTypes.flatMap rawOutputs).reverse outputs := by
  rcases outputs_cases hone houtputs with ⟨rfl, rfl⟩ | ⟨ty, t, rfl, rfl, ht⟩
  · exact ⟨[], rfl, Moves.nil []⟩
  · obtain ⟨code, hcode, hmoves⟩ := exportOutputInstructions_typed hcallee ht
    refine ⟨code, ?_, ?_⟩
    · rw [exportOutputs, List.mapM_cons, hcode]
      exact congrArg Except.ok (List.append_nil code)
    · rwa [List.flatMap_singleton]

theorem importOutputs_typed (hcallee : apiFuncs.length ≤ env.callee)
    (hone : outputTypes.length ≤ 1)
    (houtputs : outputTypes.mapM (ptypeToItypeChecked r) = .ok outputs) :
    ∃ code, importOutputs deps r outputTypes = .ok code ∧
      Moves env.step code outputs.reverse (outputTypes.flatMap rawOutputs) := by
  rcases outputs_cases hone houtputs with ⟨rfl, rfl⟩ | ⟨ty, t, rfl, rfl, ht⟩
  · exact ⟨[], rfl, Moves.nil []⟩
  · obtain ⟨code, hcode, hmoves⟩ := importOutputInstructions_typed deps hcallee ht
    have hsingle : (rawOutputs ty).reverse = rawOutputs ty := by cases ty <;> rfl
    refine ⟨code, ?_, ?_⟩
    · rw [importOutputs, List.mapM_cons, hcode]
      exact congrArg Except.ok (List.append_nil code)
    · rw [List.flatMap_singleton, ← hsingle]
      exact hmoves

end Loops

/-! ## Adapters of the generator -/

/-- The section of a resolver starts with the default export API. -/
def HasApi (r : ITResolver) : Prop :=
  (apiFuncs.map fun d => (⟨d.name, d.id⟩ : Export)) <+: r.interfaces.exports

/-- At most one output, and every record registered. -/
structure Describes (r : ITResolver) (s : FnSignature) : Prop where
  oneOutput : s.outputTypes.length ≤ 1
  arguments : ∀ arg ∈ s.arguments, Registered r arg.ty
  outputTypes : ∀ ty ∈ s.outputTypes, Registered r ty

/-- The adapter of an exported function: it calls a core function with the raw signature. -/
def exportEnv (r : ITResolver) (s : FnSignature) (arguments : List FunctionArg) : AdapterEnv where
  arguments := arguments.map FunctionArg.ty
  callee := r.interfaces.exports.length
  params := (generateRawArgs s).map FunctionArg.ty
  results := s.outputTypes.flatMap rawOutputs

/-- The adapter of an imported function: it is called with raw arguments. -/
def importEnv (r : ITResolver) (s : FnSignature) (arguments : List FunctionArg)
    (outputTypes : List IType) : AdapterEnv where
  arguments := (generateRawArgs s).map FunctionArg.ty
  callee := r.interfaces.exports.length + r.interfaces.imports.length / 2
  params := arguments.map FunctionArg.ty
  results := outputTypes

/-- From an empty stack the code runs to its end, with final stack `stack`, and
gets only arguments there are. -/
def RunsTo (env : AdapterEnv) (code : List Instruction) (stack : List IType) : Prop :=
  exec env.step code [] = some stack ∧
    ∀ index, .argumentGet index ∈ code → index < env.arguments.length

/-- The generator adds one adapter for the exported function, of its declared
type, and it runs to its declared outputs. -/
def ExportTyped (deps : Externals) (r : ITResolver) (f : FnType) : Prop :=
  ∃ r' adapter arguments outputTypes, FnType.generateIt deps r f = .ok r' ∧
    r'.interfaces.adapters = r.interfaces.adapters ++ [adapter] ∧
    generateItArgs r f.signature = .ok arguments ∧
    generateItOutputType r f.signature = .ok outputTypes ∧
    r'.interfaces.types[adapter.functionType]? = some (.function arguments outputTypes) ∧
    RunsTo (exportEnv r f.signature arguments) adapter.instructions outputTypes

/-- The generator adds one adapter for the imported function, of its raw type,
and it runs to a stack with `Final`. -/
def ImportTyped (deps : Externals) (r : ITResolver) (nameSpace : String) (g : ExternFnType)
    (Final : List IType → Prop) : Prop :=
  ∃ r' adapter arguments outputTypes stack,
    ExternFnType.generateItForImport deps nameSpace r g = .ok r' ∧
    r'.interfaces.adapters = r.interfaces.adapters ++ [adapter] ∧
    generateItArgs r g.signature = .ok arguments ∧
    generateItOutputType r g.signature = .ok outputTypes ∧
    r'.interfaces.types[adapter.functionType]? =
      some (.function (generateRawArgs g.signature) (generateRawOutputType g.signature)) ∧
    RunsTo (importEnv r g.signature arguments outputTypes) adapter.instructions stack ∧
    Final stack

theorem HasApi.length_le {r : ITResolver} (h : HasApi r) :
    apiFuncs.length ≤ r.interfaces.exports.length := by
  have hle := List.IsPrefix.length_le h
  rwa [List.length_map] at hle

theorem runsTo_of_moves {env : AdapterEnv} {code : List Instruction} {stack : List IType}
    (h : Moves env.step code [] stack) : RunsTo env code stack := by
  refine ⟨h.exec_eq, fun index hindex => ?_⟩
  obtain ⟨s, s', hstep⟩ := step_of_exec h.exec_eq hindex
  by_contra hge
  have hnone : env.arguments[index]? = none := List.getElem?_eq_none (Nat.not_lt.mp hge)
  have hno : env.step (.argumentGet index) s = none := by
    show (env.signature (.argumentGet index)).bind _ = none
    rw [AdapterEnv.signature, hnone]
    rfl
  rw [hno] at hstep
  cases hstep

theorem Describes.signature_ok {r : ITResolver} {s : FnSignature} (h : Describes r s) :
    (∃ arguments, generateItArgs r s = .ok arguments) ∧
      ∃ outputTypes, generateItOutputType r s = .ok outputTypes := by
  constructor
  · refine Fallible.exists_mapM_ok fun arg harg => ?_
    obtain ⟨ty, hty⟩ := ptypeToItypeChecked_ok (h.arguments arg harg)
    exact ⟨⟨arg.name, ty⟩, Fallible.bind_eq_ok_iff.mpr ⟨ty, hty, rfl⟩⟩
  · exact Fallible.exists_mapM_ok fun ty hty => ptypeToItypeChecked_ok (h.outputTypes ty hty)

theorem map_generateRawArgs (s : FnSignature) :
    (generateRawArgs s).map FunctionArg.ty = s.arguments.flatMap fun arg => rawInputs arg.ty := by
  rw [generateRawArgs, List.map_flatMap]
  simp only [map_toRawInputTypes]

/-- **Exported functions.**  From the declared arguments to the declared output. -/
theorem exportAdapter_typed (deps : Externals) {r : ITResolver} (hapi : HasApi r) {f : FnType}
    (h : Describes r f.signature) : ExportTyped deps r f := by
  obtain ⟨⟨arguments, hargs⟩, outputTypes, houts⟩ := h.signature_ok
  have hcallee : apiFuncs.length ≤ (exportEnv r f.signature arguments).callee := hapi.length_le
  obtain ⟨argCode, hargCode, hargMoves⟩ :=
    exportArgs_typed deps (b := []) hcallee (generateItArgs_types hargs) rfl
  obtain ⟨outCode, houtCode, houtMoves⟩ := exportOutputs_typed hcallee h.oneOutput houts
  have hmade : FnEntry.MadeBy deps r ⟨f, arguments, outputTypes, argCode, outCode⟩ :=
    ⟨hargs, houts, hargCode, houtCode⟩
  have hcall := AdapterEnv.moves_callee (exportEnv r f.signature arguments)
  have hparams : (exportEnv r f.signature arguments).params =
      f.signature.arguments.flatMap fun arg => rawInputs arg.ty := map_generateRawArgs f.signature
  rw [hparams] at hcall
  have hmoves := ((hargMoves.append hcall).append houtMoves).append
    (AdapterEnv.moves_releaseCall hcallee deps f.signature.outputTypes outputTypes)
  obtain ⟨r', hgen, hi⟩ := generateIt_total hmade
  refine ⟨r', _, arguments, outputTypes, hgen, congrArg Interfaces.adapters hi, hargs, houts, ?_,
    runsTo_of_moves hmoves⟩
  rw [hi]
  simp [FnEntry.addTo, FnEntry.itType]

/-- **Imported functions.**  From the raw arguments to what a core function returns. -/
theorem importAdapter_typed (deps : Externals) {r : ITResolver} (hapi : HasApi r)
    (nameSpace : String) {g : ExternFnType} (h : Describes r g.signature) :
    ImportTyped deps r nameSpace g (· = g.signature.outputTypes.flatMap rawOutputs) := by
  obtain ⟨⟨arguments, hargs⟩, outputTypes, houts⟩ := h.signature_ok
  have hcallee : apiFuncs.length ≤ (importEnv r g.signature arguments outputTypes).callee :=
    Nat.le_trans hapi.length_le (Nat.le_add_right ..)
  have harguments : (importEnv r g.signature arguments outputTypes).arguments =
      [] ++ g.signature.arguments.flatMap fun arg => rawInputs arg.ty :=
    map_generateRawArgs g.signature
  obtain ⟨argCode, hargCode, hargMoves⟩ :=
    importArgs_typed (generateItArgs_types hargs) harguments
  obtain ⟨outCode, houtCode, houtMoves⟩ := importOutputs_typed deps hcallee h.oneOutput houts
  have hmade : ImportEntry.MadeBy deps r ⟨nameSpace, g, arguments, outputTypes, argCode, outCode⟩ :=
    ⟨hargs, houts, hargCode, houtCode⟩
  have hcall := AdapterEnv.moves_callee (importEnv r g.signature arguments outputTypes)
  have hrelease := AdapterEnv.moves_releaseCall hcallee deps
    (g.signature.arguments.map FnArgument.ty) (arguments.map FunctionArg.ty).reverse
  have hmoves := ((hargMoves.append hrelease).append hcall).append houtMoves
  obtain ⟨r', hgen, hi⟩ := generateItForImport_total hmade
  refine ⟨r', _, arguments, outputTypes, _, hgen, congrArg Interfaces.adapters hi, hargs, houts, ?_,
    runsTo_of_moves hmoves, rfl⟩
  rw [hi]
  simp [ImportEntry.addTo, ImportEntry.rawType]

/-- A core function returns core types, with the Wasm types that the section declares. -/
theorem wtypes_rawOutputs (s : FnSignature) :
    ∃ wtypes, (s.outputTypes.flatMap rawOutputs).mapM itypeToWtype = .ok wtypes ∧
      (generateRawOutputType s).mapM itypeToWtype = .ok wtypes := by
  have hcore : s.outputTypes.flatMap rawOutputs =
      (s.outputTypes.flatMap toRawOutputType).map coreType := by
    rw [List.map_flatMap]
    rfl
  have hdeclared : generateRawOutputType s =
      (s.outputTypes.flatMap toRawOutputType).map rustTypeToItype := by
    rw [List.map_flatMap]
    rfl
  have hsame : itypeToWtype ∘ rustTypeToItype = itypeToWtype ∘ coreType :=
    funext fun ty => (itypeToWtype_coreType ty).1.symm
  rw [hcore, hdeclared, List.mapM_map, List.mapM_map]
  simp only [← Function.comp_def, hsame, and_self]
  refine Fallible.exists_mapM_ok fun ty _ => ?_
  cases hty : itypeToWtype (coreType ty) with
  | ok w => exact ⟨w, hty⟩
  | error e =>
    have hok := (itypeToWtype_coreType ty).2.1
    rw [hty] at hok
    cases hok

theorem isCoreType_rawOutputs {types : List ParsedType} {t : IType}
    (h : t ∈ types.flatMap rawOutputs) : isCoreType t := by
  obtain ⟨ty, -, ht⟩ := List.mem_flatMap.mp h
  obtain ⟨rust, -, rfl⟩ := List.mem_map.mp ht
  exact (itypeToWtype_coreType rust).2.2

theorem ImportTyped.imp {deps : Externals} {r : ITResolver} {nameSpace : String} {g : ExternFnType}
    {P Q : List IType → Prop} (h : ImportTyped deps r nameSpace g P)
    (hPQ : ∀ stack, P stack → Q stack) : ImportTyped deps r nameSpace g Q := by
  obtain ⟨r', adapter, arguments, outputTypes, stack, hgen, hadapter, hargs, houts, htype, hruns,
    hP⟩ := h
  exact ⟨r', adapter, arguments, outputTypes, stack, hgen, hadapter, hargs, houts, htype, hruns,
    hPQ stack hP⟩

/-- **Generated adapters are well typed.**  The final stack of an import
adapter has the Wasm types of the raw output, and can be passed as Wasm values. -/
theorem adapters_typed (deps : Externals) {r : ITResolver} (hapi : HasApi r) :
    (∀ f : FnType, Describes r f.signature → ExportTyped deps r f) ∧
    ∀ (nameSpace : String) (g : ExternFnType), Describes r g.signature →
      ImportTyped deps r nameSpace g fun stack =>
        (∃ wtypes, stack.mapM itypeToWtype = .ok wtypes ∧
          (generateRawOutputType g.signature).mapM itypeToWtype = .ok wtypes) ∧
        ∀ ty ∈ stack, ∀ records v, IValue.HasType records v ty → (ivalToWval v).isOk := by
  refine ⟨fun f h => exportAdapter_typed deps hapi h, fun nameSpace g h => ?_⟩
  refine (importAdapter_typed deps hapi nameSpace h).imp ?_
  rintro stack rfl
  exact ⟨wtypes_rawOutputs g.signature, fun ty hty records v hv =>
    (ivalToWval_isOk_iff hv).mpr (isCoreType_rawOutputs hty)⟩

/-- `fn greet(name: String) -> String` behind the default export API, and an imported
`fn join(parts: Vec<String>, last: bool) -> Vec<u8>`. -/
theorem adapters_typed_greet :
    ExportTyped crateExternals apiResolver
      ⟨⟨"greet", [⟨"name", .utf8String⟩], [.utf8String]⟩⟩ ∧
    ImportTyped crateExternals apiResolver "texts"
      ⟨none, ⟨"join", [⟨"parts", .vector .utf8String⟩, ⟨"last", .boolean⟩], [.vector .u8]⟩⟩
      fun stack => ∃ wtypes, stack.mapM itypeToWtype = .ok wtypes := by
  have hapi : HasApi apiResolver := by
    rw [HasApi]
    decide
  obtain ⟨hexport, himport⟩ := adapters_typed crateExternals hapi
  refine ⟨hexport _ ⟨by decide, fun arg harg => ?_, fun ty hty => ?_⟩,
    (himport "texts" _ ⟨by decide, fun arg harg => ?_, fun ty hty => ?_⟩).imp ?_⟩
  · rw [List.mem_singleton.mp harg]
    trivial
  · rw [List.mem_singleton.mp hty]
    trivial
  · rcases List.mem_pair.mp harg with rfl | rfl
    · trivial
    · trivial
  · rw [List.mem_singleton.mp hty]
    trivial
  · rintro stack ⟨⟨wtypes, hwtypes, -⟩, -⟩
    exact ⟨wtypes, hwtypes⟩

/-- A run of an adapter has one final stack. -/
theorem ImportTyped.inter {deps : Externals} {r : ITResolver} {nameSpace : String}
    {g : ExternFnType} {P Q : List IType → Prop} (h : ImportTyped deps r nameSpace g P)
    (h' : ImportTyped deps r nameSpace g Q) : ∃ stack, P stack ∧ Q stack := by
  obtain ⟨r', adapter, arguments, outputTypes, stack, hgen, hadapter, hargs, houts, -,
    hruns, hP⟩ := h
  obtain ⟨r'', adapter', arguments', outputTypes', stack', hgen', hadapter', hargs', houts', -,
    hruns', hQ⟩ := h'
  cases hgen.symm.trans hgen'
  cases hargs.symm.trans hargs'
  cases houts.symm.trans houts'
  obtain ⟨-, hsame⟩ := List.append_inj' (hadapter.symm.trans hadapter') rfl
  cases hsame
  cases hruns.1.symm.trans hruns'.1
  exact ⟨stack, hP, hQ⟩

/-- `fn count() -> i32` of another module: its raw output is declared as `S32`,
and its adapter ends with an `I32`. -/
theorem declared_s32_ends_i32 :
    ¬ ∀ (deps : Externals) (r : ITResolver), HasApi r → ∀ (nameSpace : String) (g : ExternFnType),
      Describes r g.signature →
      ImportTyped deps r nameSpace g (· = generateRawOutputType g.signature) := by
  intro hclaim
  have hapi : HasApi apiResolver := by
    rw [HasApi]
    decide
  have hcount : Describes apiResolver ⟨"count", [], [.i32]⟩ :=
    ⟨by decide, nofun, fun ty hty => by
      rw [List.mem_singleton.mp hty]
      trivial⟩
  have hdeclared := hclaim crateExternals apiResolver hapi "sqlite3"
    ⟨none, ⟨"count", [], [.i32]⟩⟩ hcount
  have hcore := importAdapter_typed crateExternals hapi "sqlite3"
    (g := ⟨none, ⟨"count", [], [.i32]⟩⟩) hcount
  obtain ⟨stack, hstack, rfl⟩ := hdeclared.inter hcore
  revert hstack
  decide

end Marine.Loader
