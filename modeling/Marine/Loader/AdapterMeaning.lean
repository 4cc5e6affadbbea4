import Marine.Lib.EffectCode
import Marine.Loader.AdapterTyping
import Mathlib.Algebra.Order.Ring.Nat

/-!
# The meaning of adapters

What a generated adapter does with values.  The interpreter and the SDK behind
`call-core` are an `ItRuntime` in any lawful monad, of which only the effect of
each instruction on the top of the stack is known; `lowerValue`, `liftRaw`,
`lowerOutput` and `liftOutput` say how one value crosses into a module and back,
`exportMeaning` and `importMeaning` how a whole call does.

* `exportArgInstructions_computes`, `exportOutputInstructions_computes`,
  `importArgInstructions_computes`, `importOutputInstructions_computes`: the four
  tables of the generator do this for one value.
* `exportArgs_computes`, `importArgs_computes`, `exportOutputs_computes`,
  `importOutputs_computes`: its loops do it from left to right.
* `AdapterFrame.run_of_computes`: what such code leaves behind.
-/

namespace Marine.Loader

open Marine.Generator EffectCode

/-! ## The runtime of a module -/

/-- A function that `call-core` reaches.  The check of the types of the arguments is a
part of `call`. -/
structure CoreFunction (m : Type → Type) where
  arity : Nat
  call : List IValue → m (List IValue)

/-- Instructions with one operand and one result. -/
def isUnary : Instruction → Bool
  | .boolFromI32 | .s8FromI32 | .s16FromI32 | .s32FromI32 | .s64FromI64
  | .i32FromBool | .i32FromS8 | .i32FromS16 | .i32FromS32 | .i64FromS64
  | .u8FromI32 | .u16FromI32 | .u32FromI32 | .u64FromI64
  | .i32FromU8 | .i32FromU16 | .i32FromU32 | .i64FromU64
  | .stringSize | .recordLiftMemory _ | .recordLowerMemory _ => true
  | _ => false

/-- Instructions that lift a value from a pointer and a size. -/
def isPairLift : Instruction → Bool
  | .stringLiftMemory | .byteArrayLiftMemory | .arrayLiftMemory _ => true
  | _ => false

/-- What the interpreter and the SDK in the module do with values.  `unary` converts
numbers, measures strings and moves records; `liftPair` takes a pointer and a size. -/
structure ItEffects (m : Type → Type) where
  unary : Instruction → IValue → m IValue
  liftPair : Instruction → IValue → IValue → m IValue
  lowerString : IValue → IValue → m (IValue × IValue)
  lowerArray : IType → IValue → m (IValue × IValue)
  allocate : IValue → IValue → m IValue
  releaseObjects : m Unit
  getResultSize : m IValue
  getResultPtr : m IValue
  setResultSize : IValue → m Unit
  setResultPtr : IValue → m Unit
  trap : {α : Type} → m α

/-- `wasmer-it` over these effects.  `step` is one instruction, given the arguments of the
adapter, the functions of the instance by their numbers, and the stack, top first.  What is
known of it are the instructions that find their operands. -/
structure ItRuntime (m : Type → Type) [Monad m] extends ItEffects m where
  step : List IValue → (Nat → Option (CoreFunction m)) → Instruction → List IValue →
    m (List IValue)
  argumentGet : ∀ arguments functions index v stack, arguments[index]? = some v →
    step arguments functions (.argumentGet index) stack = pure (v :: stack)
  /-- The last argument is on top, and so is the last output. -/
  callCore : ∀ arguments functions functionIndex function raws stack,
    functions functionIndex = some function → raws.length = function.arity →
      step arguments functions (.callCore functionIndex) (raws.reverse ++ stack) =
        function.call raws >>= fun outputs => pure (outputs.reverse ++ stack)
  dup : ∀ arguments functions v stack,
    step arguments functions .dup (v :: stack) = pure (v :: v :: stack)
  swap2 : ∀ arguments functions v v' stack,
    step arguments functions .swap2 (v :: v' :: stack) = pure (v' :: v :: stack)
  pushI32 : ∀ arguments functions value stack,
    step arguments functions (.pushI32 value) stack = pure (.i32 value :: stack)
  stringLowerMemory : ∀ arguments functions v ptr stack,
    step arguments functions .stringLowerMemory (v :: ptr :: stack) =
      lowerString ptr v >>= fun block => pure (block.2 :: block.1 :: stack)
  arrayLowerMemory : ∀ arguments functions valueType v stack,
    step arguments functions (.arrayLowerMemory valueType) (v :: stack) =
      lowerArray valueType v >>= fun block => pure (block.2 :: block.1 :: stack)
  pairLift : ∀ arguments functions i ptr size stack, isPairLift i →
    step arguments functions i (size :: ptr :: stack) =
      liftPair i ptr size >>= fun v => pure (v :: stack)
  oneOperand : ∀ arguments functions i v stack, isUnary i →
    step arguments functions i (v :: stack) = unary i v >>= fun w => pure (w :: stack)

variable {m : Type → Type} [Monad m]

namespace ItEffects

variable (effects : ItEffects m)

/-- A function of the SDK, by its place in the default export API. -/
def apiFunction : Nat → CoreFunction m
  | 0 => ⟨2, fun
    | [size, typeTag] => do
      let ptr ← effects.allocate size typeTag
      return [ptr]
    | _ => effects.trap⟩
  | 1 => ⟨0, fun _ => do
    effects.releaseObjects
    return []⟩
  | 2 => ⟨0, fun _ => do
    let size ← effects.getResultSize
    return [size]⟩
  | 3 => ⟨0, fun _ => do
    let ptr ← effects.getResultPtr
    return [ptr]⟩
  | 4 => ⟨1, fun
    | [size] => do
      effects.setResultSize size
      return []
    | _ => effects.trap⟩
  | 5 => ⟨1, fun
    | [ptr] => do
      effects.setResultPtr ptr
      return []
    | _ => effects.trap⟩
  | _ => ⟨0, fun _ => effects.trap⟩

/-- A stack machine that traps where an operand is missing. -/
def step (arguments : List IValue) (functions : Nat → Option (CoreFunction m)) :
    Instruction → List IValue → m (List IValue)
  | .argumentGet index, stack =>
    match arguments[index]? with
    | some v => pure (v :: stack)
    | none => effects.trap
  | .callCore functionIndex, stack =>
    match functions functionIndex with
    | some function =>
      if function.arity ≤ stack.length then do
        let outputs ← function.call (stack.take function.arity).reverse
        return outputs.reverse ++ stack.drop function.arity
      else effects.trap
    | none => effects.trap
  | .dup, v :: stack => pure (v :: v :: stack)
  | .swap2, v :: v' :: stack => pure (v' :: v :: stack)
  | .pushI32 value, stack => pure (.i32 value :: stack)
  | .stringLowerMemory, v :: ptr :: stack => do
    let block ← effects.lowerString ptr v
    return block.2 :: block.1 :: stack
  | .arrayLowerMemory valueType, v :: stack => do
    let block ← effects.lowerArray valueType v
    return block.2 :: block.1 :: stack
  | i, v :: stack =>
    if isUnary i then do
      let w ← effects.unary i v
      return w :: stack
    else
      match isPairLift i, stack with
      | true, ptr :: stack => do
        let w ← effects.liftPair i ptr v
        return w :: stack
      | _, _ => effects.trap
  | _, [] => effects.trap

theorem step_callCore {arguments : List IValue} {functions : Nat → Option (CoreFunction m)}
    {functionIndex : Nat} {function : CoreFunction m} {raws stack : List IValue}
    (h : functions functionIndex = some function) (hlen : raws.length = function.arity) :
    effects.step arguments functions (.callCore functionIndex) (raws.reverse ++ stack) =
      function.call raws >>= fun outputs => pure (outputs.reverse ++ stack) := by
  have hreverse : raws.reverse.length = function.arity := by rw [List.length_reverse, hlen]
  have hle : function.arity ≤ (raws.reverse ++ stack).length := by
    rw [List.length_append]
    omega
  unfold step
  simp only [h]
  rw [if_pos hle, List.take_left' hreverse, List.drop_left' hreverse, List.reverse_reverse]

/-- The runtime with this stack machine. -/
def runtime : ItRuntime m where
  toItEffects := effects
  step := effects.step
  argumentGet arguments functions index v stack h := by
    unfold step
    simp only [h]
  callCore _ _ _ _ _ _ h hlen := effects.step_callCore h hlen
  dup _ _ _ _ := rfl
  swap2 _ _ _ _ _ := rfl
  pushI32 _ _ _ _ := rfl
  stringLowerMemory _ _ _ _ _ := rfl
  arrayLowerMemory _ _ _ _ _ := rfl
  pairLift _ _ i _ _ _ h := by
    cases i with
    | stringLiftMemory | byteArrayLiftMemory | arrayLiftMemory valueType => rfl
    | _ => cases h
  oneOperand _ _ i _ _ h := by
    cases i <;> first | rfl | cases h

end ItEffects

/-- What an adapter runs in; the functions of the instance have their numbers. -/
structure AdapterFrame (m : Type → Type) [Monad m] where
  runtime : ItRuntime m
  arguments : List IValue
  functions : Nat → Option (CoreFunction m)

namespace AdapterFrame

/-- The default export API lies under its numbers. -/
def ServesApi (frame : AdapterFrame m) : Prop :=
  ∀ d ∈ apiFuncs, frame.functions d.id = some (frame.runtime.apiFunction d.id)

/-- `function` lies under the number. -/
def Serves (frame : AdapterFrame m) (functionIndex : Nat) (function : CoreFunction m) : Prop :=
  frame.functions functionIndex = some function

/-- One instruction on a stack of values. -/
def step (frame : AdapterFrame m) : Instruction → List IValue → m (List IValue) :=
  frame.runtime.step frame.arguments frame.functions

/-- An adapter gives what it leaves, from the bottom of the stack up. -/
def run (frame : AdapterFrame m) (code : List Instruction) : m (List IValue) :=
  List.reverse <$> exec frame.step code []

end AdapterFrame

/-! ## How a value crosses -/

/-- How the values of a type cross: as they are, through a conversion of numbers,
as a block in memory (bytes are an array of `u8`) or as a pointer to a record. -/
inductive Crossing
  | plain
  | number (fromCore toCore : Instruction)
  | string
  | bytes
  | array (valueType : IType)
  | record (recordTypeId : Nat)
  deriving DecidableEq, Repr

def crossing : IType → Crossing
  | .boolean => .number .boolFromI32 .i32FromBool
  | .s8 => .number .s8FromI32 .i32FromS8
  | .s16 => .number .s16FromI32 .i32FromS16
  | .s32 => .number .s32FromI32 .i32FromS32
  | .s64 => .number .s64FromI64 .i64FromS64
  | .u8 => .number .u8FromI32 .i32FromU8
  | .u16 => .number .u16FromI32 .i32FromU16
  | .u32 => .number .u32FromI32 .i32FromU32
  | .u64 => .number .u64FromI64 .i64FromU64
  | .f32 | .f64 | .i32 | .i64 => .plain
  | .string => .string
  | .byteArray => .bytes
  | .array valueType => .array valueType
  | .record recordTypeId => .record recordTypeId

namespace Crossing

/-- How many raw values stand for an argument. -/
def rawCount : Crossing → Nat
  | .string | .bytes | .array _ => 2
  | _ => 1

/-- An output in memory is not returned: its place is kept by the SDK. -/
def inMemory : Crossing → Bool
  | .string | .bytes | .array _ | .record _ => true
  | _ => false

end Crossing

namespace ItRuntime

variable (rt : ItRuntime m) (typeTag : IValue)

/-- Raw values for a value that goes into the module.  A string goes into memory
that is allocated for it, as bytes. -/
def lowerValue : Crossing → IValue → m (List IValue)
  | .plain, v => pure [v]
  | .number _ toCore, v => do
    let w ← rt.unary toCore v
    return [w]
  | .string, v => do
    let size ← rt.unary .stringSize v
    let ptr ← rt.allocate size typeTag
    let block ← rt.lowerString ptr v
    return [block.1, block.2]
  | .bytes, v => do
    let block ← rt.lowerArray .u8 v
    return [block.1, block.2]
  | .array valueType, v => do
    let block ← rt.lowerArray valueType v
    return [block.1, block.2]
  | .record recordTypeId, v => do
    let ptr ← rt.unary (.recordLowerMemory recordTypeId) v
    return [ptr]

/-- The value that raw values of the module stand for. -/
def liftRaw : Crossing → List IValue → m IValue
  | .plain, [w] => pure w
  | .number fromCore _, [w] => rt.unary fromCore w
  | .string, [ptr, size] => rt.liftPair .stringLiftMemory ptr size
  | .bytes, [ptr, size] => rt.liftPair .byteArrayLiftMemory ptr size
  | .array valueType, [ptr, size] => rt.liftPair (.arrayLiftMemory valueType) ptr size
  | .record recordTypeId, [ptr] => rt.unary (.recordLiftMemory recordTypeId) ptr
  | _, _ => rt.trap

/-- The value that the module gives with `outs`. -/
def liftOutput : Crossing → List IValue → m IValue
  | .plain, outs => rt.liftRaw .plain outs
  | .number fromCore toCore, outs => rt.liftRaw (.number fromCore toCore) outs
  | .record recordTypeId, _ => do
    let ptr ← rt.getResultPtr
    rt.liftRaw (.record recordTypeId) [ptr]
  | c, _ => do
    let ptr ← rt.getResultPtr
    let size ← rt.getResultSize
    rt.liftRaw c [ptr, size]

/-- The place of an output that lies in memory. -/
def publish : List IValue → m (List IValue)
  | [ptr, size] => do
    rt.setResultSize size
    rt.setResultPtr ptr
    return []
  | [ptr] => do
    rt.setResultPtr ptr
    return []
  | _ => rt.trap

/-- What the module gets returned for a value. -/
def lowerOutput (c : Crossing) (v : IValue) : m (List IValue) := do
  let raws ← rt.lowerValue typeTag c v
  if c.inMemory then rt.publish raws else return raws

/-! ## How a call crosses -/

def lowerArgs : List IType → List IValue → m (List IValue)
  | ty :: types, v :: vs => do
    let raws ← rt.lowerValue typeTag (crossing ty) v
    let rest ← lowerArgs types vs
    return raws ++ rest
  | _, _ => pure []

def liftArgs : List IType → List IValue → m (List IValue)
  | [], _ => pure []
  | ty :: types, raws => do
    let v ← rt.liftRaw (crossing ty) (raws.take (crossing ty).rawCount)
    let vs ← liftArgs types (raws.drop (crossing ty).rawCount)
    return v :: vs

def liftOutputs (outputs : List IType) (outs : List IValue) : m (List IValue) :=
  outputs.mapM fun ty => rt.liftOutput (crossing ty) outs

def lowerOutputs : List IType → List IValue → m (List IValue)
  | ty :: outputs, v :: vs => do
    let raws ← rt.lowerOutput typeTag (crossing ty) v
    let rest ← lowerOutputs outputs vs
    return raws ++ rest
  | _, _ => pure []

def releaseIf (release : Bool) : m Unit :=
  if release then rt.releaseObjects else pure ()

/-- A call of a function of the module by a caller with interface values. -/
def exportMeaning (types outputs : List IType) (release : Bool)
    (call : List IValue → m (List IValue)) (args : List IValue) : m (List IValue) := do
  let raws ← rt.lowerArgs typeTag types args
  let outs ← call raws
  let values ← rt.liftOutputs outputs outs
  rt.releaseIf release
  return values

/-- A call by the module of a function that takes interface values. -/
def importMeaning (types outputs : List IType) (release : Bool)
    (call : List IValue → m (List IValue)) (raws : List IValue) : m (List IValue) := do
  let args ← rt.liftArgs types raws
  rt.releaseIf release
  let values ← call args
  rt.lowerOutputs typeTag outputs values

end ItRuntime

/-! ## Single instructions -/

variable [LawfulMonad m] {frame : AdapterFrame m}

namespace AdapterFrame

omit [LawfulMonad m] in
theorem step_argumentGet {index : Nat} {v : IValue} (h : frame.arguments[index]? = some v)
    (stack : List IValue) : frame.step (.argumentGet index) stack = pure (v :: stack) :=
  frame.runtime.argumentGet _ _ _ _ stack h

/-- **Instruction rule** for conversions. -/
theorem computes_unary {i : Instruction} (h : isUnary i) (v : IValue) :
    Computes frame.step [i] [v] (frame.runtime.unary i v) (fun w => [w]) :=
  Computes.single fun rest => frame.runtime.oneOperand _ _ i v rest h

/-- The call of the function that the adapter is for. -/
theorem computes_callee {functionIndex : Nat} {function : CoreFunction m}
    (hcallee : frame.Serves functionIndex function) {raws : List IValue}
    (h : raws.length = function.arity) :
    Computes frame.step [.callCore functionIndex] raws.reverse (function.call raws)
      List.reverse :=
  Computes.single fun rest => frame.runtime.callCore _ _ _ _ raws rest hcallee h

/-- The call of a function of the SDK. -/
theorem computes_api (hapi : frame.ServesApi) {d : ApiExportFuncDescriptor} (hd : d ∈ apiFuncs)
    {α : Type} {x : m α} (raws : List IValue) (outputs : α → List IValue)
    (hlen : raws.length = (frame.runtime.apiFunction d.id).arity)
    (hcall : (frame.runtime.apiFunction d.id).call raws = x >>= fun a => pure (outputs a)) :
    Computes frame.step [.callCore d.id] raws.reverse x fun a => (outputs a).reverse := by
  have hserved : Computes frame.step [.callCore d.id] raws.reverse
      ((frame.runtime.apiFunction d.id).call raws) List.reverse :=
    computes_callee (hapi d hd) hlen
  rw [hcall] at hserved
  exact hserved.ofMapPure

end AdapterFrame

/-! ## The four tables -/

section Tables

/-- The tag of bytes, for the memory of strings. -/
def byteTag (deps : Externals) : IValue := .i32 (deps.serTypeSize .u8)

namespace AdapterFrame

variable {code : List Instruction} {x : m (List IValue)}

/-- An argument of the adapter that code goes on with. -/
theorem computes_argument {α : Type} {index : Nat} {v : IValue} {x : m α}
    {pushes : α → List IValue} (harg : frame.arguments[index]? = some v)
    (h : Computes frame.step code [v] x pushes) :
    Computes frame.step (.argumentGet index :: code) [] x pushes := by
  refine Computes.consPure (fun rest => ?_) h
  exact step_argumentGet harg rest

theorem computes_lowerArray (valueType : IType) (v : IValue) :
    Computes frame.step [.arrayLowerMemory valueType] [v]
      (frame.runtime.lowerArray valueType v) (fun block => [block.2, block.1]) :=
  Computes.single fun rest => frame.runtime.arrayLowerMemory _ _ valueType v rest

theorem computes_lowerString (ptr v : IValue) :
    Computes frame.step [.stringLowerMemory] [v, ptr]
      (frame.runtime.lowerString ptr v) (fun block => [block.2, block.1]) :=
  Computes.single fun rest => frame.runtime.stringLowerMemory _ _ v ptr rest

/-- A string that lies on a pointer to its memory, from the size on. -/
theorem computes_allocate (hapi : frame.ServesApi) (size typeTag : IValue) :
    Computes frame.step [.callCore allocateFunc.id] [typeTag, size]
      (frame.runtime.allocate size typeTag) (fun ptr => [ptr]) :=
  computes_api hapi (d := allocateFunc) (by decide) [size, typeTag] (fun ptr => [ptr]) rfl rfl

/-- A value that is lifted from a pointer and a size. -/
theorem computes_liftPair {i : Instruction} (hi : isPairLift i) (ptr size : IValue) :
    Computes frame.step [i] [size, ptr] (frame.runtime.liftPair i ptr size) fun v => [v] :=
  Computes.single fun rest => frame.runtime.pairLift _ _ i ptr size rest hi

theorem computes_getResultPtr (hapi : frame.ServesApi) :
    Computes frame.step [.callCore getResultPtrFunc.id] [] frame.runtime.getResultPtr
      fun ptr => [ptr] :=
  computes_api hapi (d := getResultPtrFunc) (by decide) [] (fun ptr => [ptr]) rfl rfl

theorem computes_getResultSize (hapi : frame.ServesApi) :
    Computes frame.step [.callCore getResultSizeFunc.id] [] frame.runtime.getResultSize
      fun size => [size] :=
  computes_api hapi (d := getResultSizeFunc) (by decide) [] (fun size => [size]) rfl rfl

theorem computes_setResultPtr (hapi : frame.ServesApi) (ptr : IValue) :
    Computes frame.step [.callCore setResultPtrFunc.id] [ptr] (frame.runtime.setResultPtr ptr)
      fun _ => [] :=
  computes_api hapi (d := setResultPtrFunc) (by decide) [ptr] (fun _ => []) rfl rfl

theorem computes_setResultSize (hapi : frame.ServesApi) (size : IValue) :
    Computes frame.step [.callCore setResultSizeFunc.id] [size] (frame.runtime.setResultSize size)
      fun _ => [] :=
  computes_api hapi (d := setResultSizeFunc) (by decide) [size] (fun _ => []) rfl rfl

/-- A value from the block that the SDK keeps. -/
theorem computes_takeResult (hapi : frame.ServesApi) {i : Instruction}
    (hi : isPairLift i) :
    Computes frame.step
      [.callCore getResultPtrFunc.id, .callCore getResultSizeFunc.id, i] []
      (do
        let ptr ← frame.runtime.getResultPtr
        let size ← frame.runtime.getResultSize
        frame.runtime.liftPair i ptr size)
      fun v => [v] :=
  (computes_getResultPtr hapi).append fun ptr =>
    ((computes_getResultSize hapi).frame [ptr]).append fun size => computes_liftPair hi ptr size

/-- The block of an output is given to the SDK. -/
theorem computes_publish (hapi : frame.ServesApi) (block : IValue × IValue) :
    Computes frame.step [.callCore setResultSizeFunc.id, .callCore setResultPtrFunc.id]
      [block.2, block.1] (frame.runtime.publish [block.1, block.2]) List.reverse :=
  ((computes_setResultSize hapi block.2).frame [block.1]).append fun _ =>
    (computes_setResultPtr hapi block.1).mapPure fun _ => rfl

end AdapterFrame

open AdapterFrame

variable {deps : Externals} {r : ITResolver} {ty : ParsedType} {t : IType}
  {code : List Instruction}

/-- **Arguments of exported functions.** -/
theorem exportArgInstructions_computes (hapi : frame.ServesApi) {index : Nat}
    {v : IValue} (ht : ptypeToItypeChecked r ty = .ok t) (harg : frame.arguments[index]? = some v)
    (hcode : exportArgInstructions deps r index ty = .ok code) :
    Computes frame.step code [] (frame.runtime.lowerValue (byteTag deps) (crossing t) v)
      List.reverse := by
  have hunary {i : Instruction} (hi : isUnary i) :
      Computes frame.step [.argumentGet index, i] []
        (frame.runtime.unary i v >>= fun w => pure [w]) List.reverse :=
    computes_argument harg ((computes_unary hi v).mapPure fun _ => rfl)
  have harray (valueType : IType) :
      Computes frame.step [.argumentGet index, .arrayLowerMemory valueType] []
        (frame.runtime.lowerArray valueType v >>= fun block => pure [block.1, block.2])
        List.reverse :=
    computes_argument harg ((computes_lowerArray valueType v).mapPure fun _ => rfl)
  cases ty with
  | utf8Str | utf8String =>
    cases ht
    cases hcode
    have hsize : Computes frame.step [.stringSize] [v] (frame.runtime.unary .stringSize v)
      fun size => [size] := computes_unary rfl v
    refine computes_argument harg (hsize.append fun size => ?_)
    have hlower (ptr : IValue) : Computes frame.step [.argumentGet index, .stringLowerMemory] [ptr]
        (frame.runtime.lowerString ptr v >>= fun block => pure [block.1, block.2])
        List.reverse := by
      refine Computes.consPure (fun rest => ?_)
        ((computes_lowerString ptr v).mapPure fun _ => rfl)
      exact step_argumentGet harg _
    have hpush := (computes_allocate hapi size (byteTag deps)).append hlower
    refine Computes.consPure (fun rest => ?_) hpush
    exact frame.runtime.pushI32 _ _ _ _
  | vector elem =>
    obtain ⟨valueType, hv, rfl⟩ := ptypeToItypeChecked_vector_iff.mp ht
    obtain ⟨_, hv', hcode⟩ := Fallible.bind_eq_ok_iff.mp hcode
    cases hv.symm.trans hv'
    cases hcode
    by_cases hu8 : valueType = .u8
    · subst hu8
      exact harray .u8
    · rw [arrayOf, if_neg hu8]
      exact harray valueType
  | record recordName =>
    obtain ⟨id, hid, ht⟩ := Fallible.bind_eq_ok_iff.mp ht
    obtain ⟨_, hid', hcode⟩ := Fallible.bind_eq_ok_iff.mp hcode
    cases hid.symm.trans hid'
    cases ht
    cases hcode
    exact hunary rfl
  | f32 | f64 =>
    cases ht
    cases hcode
    exact computes_argument harg (Computes.nil rfl)
  | _ =>
    cases ht
    cases hcode
    exact hunary rfl

/-- **Outputs of exported functions.** -/
theorem exportOutputInstructions_computes (hapi : frame.ServesApi)
    (ht : ptypeToItypeChecked r ty = .ok t) {outs : List IValue}
    (houts : outs.length = (rawOutputs ty).length)
    (hcode : exportOutputInstructions r ty = .ok code) :
    Computes frame.step code outs.reverse (frame.runtime.liftOutput (crossing t) outs)
      fun v => [v] := by
  cases ty with
  | utf8Str | utf8String =>
    cases ht
    cases hcode
    cases List.length_eq_zero_iff.mp houts
    exact computes_takeResult hapi rfl
  | vector elem =>
    obtain ⟨valueType, hv, rfl⟩ := ptypeToItypeChecked_vector_iff.mp ht
    obtain ⟨_, hv', hcode⟩ := Fallible.bind_eq_ok_iff.mp hcode
    cases hv.symm.trans hv'
    cases List.length_eq_zero_iff.mp houts
    by_cases hu8 : valueType = .u8
    · subst hu8
      cases hcode
      exact computes_takeResult hapi rfl
    · rw [if_neg hu8] at hcode
      cases hcode
      rw [arrayOf, if_neg hu8]
      exact computes_takeResult hapi rfl
  | record recordName =>
    obtain ⟨id, hid, ht⟩ := Fallible.bind_eq_ok_iff.mp ht
    obtain ⟨_, hid', hcode⟩ := Fallible.bind_eq_ok_iff.mp hcode
    cases hid.symm.trans hid'
    cases ht
    cases hcode
    cases List.length_eq_zero_iff.mp houts
    exact (computes_getResultPtr hapi).append fun ptr => computes_unary rfl ptr
  | f32 | f64 =>
    cases ht
    cases hcode
    obtain ⟨w, rfl⟩ := List.length_eq_one_iff.mp houts
    exact Computes.nil rfl
  | _ =>
    cases ht
    cases hcode
    obtain ⟨w, rfl⟩ := List.length_eq_one_iff.mp houts
    exact computes_unary rfl w

/-- **Arguments of imported functions.**  The raw values at `index` stand for one
argument. -/
theorem importArgInstructions_computes {index shift : Nat} {raws : List IValue}
    (ht : ptypeToItypeChecked r ty = .ok t) (hraws : raws.length = (crossing t).rawCount)
    (hargs : ∀ i v, raws[i]? = some v → frame.arguments[index + i]? = some v)
    (hcode : importArgInstructions r index ty = .ok (code, shift)) :
    shift = (crossing t).rawCount ∧
      Computes frame.step code [] (frame.runtime.liftRaw (crossing t) raws) fun v => [v] := by
  have hunary {i : Instruction} (hi : isUnary i) {w : IValue} (hw : raws = [w]) :
      Computes frame.step [.argumentGet index, i] [] (frame.runtime.unary i w) fun v => [v] :=
    computes_argument (hargs 0 w (by rw [hw]; rfl)) (computes_unary hi w)
  have hpair {i : Instruction} (hi : isPairLift i) {ptr size : IValue} (hw : raws = [ptr, size]) :
      Computes frame.step [.argumentGet index, .argumentGet (index + 1), i] []
        (frame.runtime.liftPair i ptr size) fun v => [v] := by
    refine computes_argument (hargs 0 ptr (by rw [hw]; rfl)) ?_
    refine Computes.consPure (fun rest => ?_) (computes_liftPair hi ptr size)
    exact step_argumentGet (hargs 1 size (by rw [hw]; rfl)) _
  cases ty with
  | utf8Str | utf8String =>
    cases ht
    cases hcode
    obtain ⟨ptr, size, rfl⟩ := List.length_eq_two.mp hraws
    exact ⟨rfl, hpair rfl rfl⟩
  | vector elem =>
    obtain ⟨valueType, hv, rfl⟩ := ptypeToItypeChecked_vector_iff.mp ht
    obtain ⟨_, hv', hcode⟩ := Fallible.bind_eq_ok_iff.mp hcode
    cases hv.symm.trans hv'
    by_cases hu8 : valueType = .u8
    · subst hu8
      cases hcode
      obtain ⟨ptr, size, rfl⟩ := List.length_eq_two.mp hraws
      exact ⟨rfl, hpair rfl rfl⟩
    · rw [if_neg hu8] at hcode
      cases hcode
      rw [arrayOf, if_neg hu8] at hraws ⊢
      obtain ⟨ptr, size, rfl⟩ := List.length_eq_two.mp hraws
      exact ⟨rfl, hpair rfl rfl⟩
  | record recordName =>
    obtain ⟨id, hid, ht⟩ := Fallible.bind_eq_ok_iff.mp ht
    obtain ⟨_, hid', hcode⟩ := Fallible.bind_eq_ok_iff.mp hcode
    cases hid.symm.trans hid'
    cases ht
    cases hcode
    obtain ⟨w, rfl⟩ := List.length_eq_one_iff.mp hraws
    exact ⟨rfl, hunary rfl rfl⟩
  | f32 | f64 =>
    cases ht
    cases hcode
    obtain ⟨w, rfl⟩ := List.length_eq_one_iff.mp hraws
    exact ⟨rfl, computes_argument (hargs 0 w rfl) (Computes.nil rfl)⟩
  | _ =>
    cases ht
    cases hcode
    obtain ⟨w, rfl⟩ := List.length_eq_one_iff.mp hraws
    exact ⟨rfl, hunary rfl rfl⟩

theorem lowerOutput_returned {c : Crossing} (h : c.inMemory = false) (typeTag v : IValue) :
    frame.runtime.lowerOutput typeTag c v = frame.runtime.lowerValue typeTag c v := by
  simp [ItRuntime.lowerOutput, h]

omit [LawfulMonad m] in
theorem lowerOutput_inMemory {c : Crossing} (h : c.inMemory = true) (typeTag v : IValue) :
    frame.runtime.lowerOutput typeTag c v =
      frame.runtime.lowerValue typeTag c v >>= frame.runtime.publish := by
  simp [ItRuntime.lowerOutput, h]

/-- **Outputs of imported functions.** -/
theorem importOutputInstructions_computes (hapi : frame.ServesApi)
    (ht : ptypeToItypeChecked r ty = .ok t) (v : IValue)
    (hcode : importOutputInstructions deps r ty = .ok code) :
    Computes frame.step code [v] (frame.runtime.lowerOutput (byteTag deps) (crossing t) v)
      List.reverse := by
  have hunary {i : Instruction} (hi : isUnary i) :
      Computes frame.step [i] [v] (frame.runtime.unary i v >>= fun w => pure [w]) List.reverse :=
    (computes_unary hi v).mapPure fun _ => rfl
  have harray (valueType : IType) :
      Computes frame.step
        [.arrayLowerMemory valueType, .callCore setResultSizeFunc.id, .callCore setResultPtrFunc.id]
        [v] (frame.runtime.lowerArray valueType v >>= fun block =>
          frame.runtime.publish [block.1, block.2])
        List.reverse :=
    (computes_lowerArray valueType v).append fun block => computes_publish hapi block
  cases ty with
  | utf8Str | utf8String =>
    cases ht
    cases hcode
    rw [lowerOutput_inMemory rfl]
    simp only [crossing, ItRuntime.lowerValue, bind_assoc, pure_bind]
    have hdup (rest : List IValue) : frame.step .dup ([v] ++ rest) = pure ([v, v] ++ rest) :=
      frame.runtime.dup _ _ v rest
    have hsize : Computes frame.step [.stringSize] [v] (frame.runtime.unary .stringSize v)
      fun size => [size] := computes_unary rfl v
    refine Computes.consPure hdup ((hsize.frame [v]).append fun size => ?_)
    have hpush (rest : List IValue) : frame.step (.pushI32 (deps.serTypeSize .u8))
        ([size] ++ [v] ++ rest) = pure ([byteTag deps, size, v] ++ rest) :=
      frame.runtime.pushI32 _ _ _ _
    refine Computes.consPure hpush ?_
    refine ((computes_allocate hapi size (byteTag deps)).frame [v]).append fun ptr => ?_
    have hswap (rest : List IValue) :
        frame.step .swap2 ([ptr, v] ++ rest) = pure ([v, ptr] ++ rest) :=
      frame.runtime.swap2 _ _ ptr v rest
    exact Computes.consPure hswap ((computes_lowerString ptr v).append
      fun block => computes_publish hapi block)
  | vector elem =>
    obtain ⟨valueType, hv, rfl⟩ := ptypeToItypeChecked_vector_iff.mp ht
    obtain ⟨_, hv', hcode⟩ := Fallible.bind_eq_ok_iff.mp hcode
    cases hv.symm.trans hv'
    cases hcode
    by_cases hu8 : valueType = .u8
    · subst hu8
      rw [lowerOutput_inMemory rfl]
      simp only [arrayOf, if_true, crossing, ItRuntime.lowerValue, bind_assoc, pure_bind]
      exact harray .u8
    · rw [arrayOf, if_neg hu8, lowerOutput_inMemory rfl]
      simp only [crossing, ItRuntime.lowerValue, bind_assoc, pure_bind]
      exact harray valueType
  | record recordName =>
    obtain ⟨id, hid, ht⟩ := Fallible.bind_eq_ok_iff.mp ht
    obtain ⟨_, hid', hcode⟩ := Fallible.bind_eq_ok_iff.mp hcode
    cases hid.symm.trans hid'
    cases ht
    cases hcode
    rw [lowerOutput_inMemory rfl]
    simp only [crossing, ItRuntime.lowerValue, bind_assoc, pure_bind]
    have hlower : Computes frame.step [.recordLowerMemory id] [v]
      (frame.runtime.unary (.recordLowerMemory id) v) fun ptr => [ptr] := computes_unary rfl v
    exact hlower.append fun ptr => (computes_setResultPtr hapi ptr).mapPure fun _ => rfl
  | f32 | f64 =>
    cases ht
    cases hcode
    rw [lowerOutput_returned rfl]
    exact Computes.nil rfl
  | _ =>
    cases ht
    cases hcode
    rw [lowerOutput_returned rfl]
    exact hunary rfl

end Tables

/-! ## How many values a program yields -/

section Counts

variable {r : ITResolver} {ty : ParsedType} {t : IType}

theorem rawCount_crossing (ht : ptypeToItypeChecked r ty = .ok t) :
    (crossing t).rawCount = (rawInputs ty).length := by
  cases ty with
  | vector elem =>
    obtain ⟨valueType, -, rfl⟩ := ptypeToItypeChecked_vector_iff.mp ht
    rw [arrayOf]
    split <;> rfl
  | record recordName =>
    obtain ⟨id, -, ht⟩ := Fallible.bind_eq_ok_iff.mp ht
    cases ht
    rfl
  | _ =>
    cases ht
    rfl

theorem lowerValue_yields (rt : ItRuntime m) (typeTag : IValue) (c : Crossing) (v : IValue) :
    Yields (fun raws => raws.length = c.rawCount) (rt.lowerValue typeTag c v) := by
  cases c with
  | plain => exact yields_pure rfl
  | string =>
    refine (yields_true _).bind fun _ _ => (yields_true _).bind fun _ _ => ?_
    exact (yields_true _).bind fun _ _ => yields_pure rfl
  | _ => exact (yields_true _).bind fun _ _ => yields_pure rfl

/-- Raw arguments for arguments of these types. -/
def rawTotal (types : List IType) : Nat := (types.map fun ty => (crossing ty).rawCount).sum

theorem rawTotal_cons (ty : IType) (types : List IType) :
    rawTotal (ty :: types) = (crossing ty).rawCount + rawTotal types := by
  simp [rawTotal]

theorem rawTotal_eq {args : List FnArgument} {types : List IType} (h : ArgTypes r args types) :
    rawTotal types = (args.flatMap fun arg => rawInputs arg.ty).length := by
  induction h with
  | nil => rfl
  | @cons arg t args types harg _ ih =>
    rw [rawTotal_cons, ih, rawCount_crossing harg, List.flatMap_cons, List.length_append]

theorem lowerArgs_yields (rt : ItRuntime m) (typeTag : IValue) (types : List IType)
    (vs : List IValue) (h : vs.length = types.length) :
    Yields (fun raws => raws.length = rawTotal types) (rt.lowerArgs typeTag types vs) := by
  induction types generalizing vs with
  | nil =>
    cases List.length_eq_zero_iff.mp h
    exact yields_pure rfl
  | cons ty types ih =>
    cases vs with
    | nil => simp at h
    | cons v vs =>
      refine (lowerValue_yields rt typeTag (crossing ty) v).bind fun raws hraws => ?_
      refine (ih vs (Nat.succ.inj h)).bind fun rest hrest => yields_pure ?_
      rw [List.length_append, hraws, hrest, rawTotal_cons]

theorem liftArgs_yields (rt : ItRuntime m) (types : List IType) (raws : List IValue) :
    Yields (fun vs => vs.length = types.length) (rt.liftArgs types raws) := by
  induction types generalizing raws with
  | nil => exact yields_pure rfl
  | cons ty types ih =>
    refine (yields_true _).bind fun v _ => (ih _).bind fun vs hvs => yields_pure ?_
    rw [List.length_cons, List.length_cons, hvs]

end Counts

/-! ## The loops over arguments and outputs -/

section Loops

open AdapterFrame

variable {deps : Externals} {r : ITResolver} {args : List FnArgument} {types : List IType}
  {b vs raws : List IValue} {code : List Instruction}

theorem exportArgs_computes (hapi : frame.ServesApi)
    (htypes : ArgTypes r args types) (hvs : vs.length = types.length)
    (hargs : frame.arguments = b ++ vs) (hcode : exportArgs deps r b.length args = .ok code) :
    Computes frame.step code [] (frame.runtime.lowerArgs (byteTag deps) types vs)
      List.reverse := by
  induction htypes generalizing b vs code with
  | nil =>
    cases hcode
    cases List.length_eq_zero_iff.mp hvs
    exact Computes.nil rfl
  | @cons arg t args types harg htypes ih =>
    cases vs with
    | nil => simp at hvs
    | cons v vs =>
      obtain ⟨instructions, hinstr, hcode⟩ := Fallible.bind_eq_ok_iff.mp hcode
      obtain ⟨rest, hrest, hcode⟩ := Fallible.bind_eq_ok_iff.mp hcode
      cases hcode
      have hget : frame.arguments[b.length]? = some v := by simp [hargs]
      have hnext : frame.arguments = (b ++ [v]) ++ vs := by simp [hargs]
      have hlen : b.length + 1 = (b ++ [v]).length := by simp
      rw [hlen] at hrest
      have hfirst := exportArgInstructions_computes hapi harg hget hinstr
      refine hfirst.append fun raws => ?_
      refine ((ih (Nat.succ.inj hvs) hnext hrest).frame raws.reverse).mapPure fun more => ?_
      exact List.reverse_append

theorem importArgs_computes (htypes : ArgTypes r args types) (hraws : raws.length = rawTotal types)
    (hargs : frame.arguments = b ++ raws) (hcode : importArgs r b.length args = .ok code) :
    Computes frame.step code [] (frame.runtime.liftArgs types raws) List.reverse := by
  induction htypes generalizing b raws code with
  | nil =>
    cases hcode
    exact Computes.nil rfl
  | @cons arg t args types harg htypes ih =>
    obtain ⟨⟨instructions, shift⟩, hinstr, hcode⟩ := Fallible.bind_eq_ok_iff.mp hcode
    obtain ⟨rest, hrest, hcode⟩ := Fallible.bind_eq_ok_iff.mp hcode
    cases hcode
    rw [rawTotal_cons] at hraws
    have hfirst : (raws.take (crossing t).rawCount).length = (crossing t).rawCount := by
      rw [List.length_take]
      omega
    have hget : ∀ i v, (raws.take (crossing t).rawCount)[i]? = some v →
        frame.arguments[b.length + i]? = some v := by
      intro i v hv
      rw [hargs, List.getElem?_append_right (by omega), Nat.add_sub_cancel_left]
      rw [List.getElem?_take] at hv
      split at hv
      · exact hv
      · cases hv
    obtain ⟨rfl, hlift⟩ := importArgInstructions_computes harg hfirst hget hinstr
    have hnext : frame.arguments =
        (b ++ raws.take (crossing t).rawCount) ++ raws.drop (crossing t).rawCount := by
      rw [List.append_assoc, List.take_append_drop, hargs]
    have hlen : b.length + (crossing t).rawCount =
        (b ++ raws.take (crossing t).rawCount).length := by
      rw [List.length_append, hfirst]
    rw [hlen] at hrest
    have hmore : (raws.drop (crossing t).rawCount).length = rawTotal types := by
      rw [List.length_drop]
      omega
    refine hlift.append fun v => ?_
    refine ((ih hmore hnext hrest).frame [v]).mapPure fun more => ?_
    exact List.reverse_cons

theorem computes_release (hapi : frame.ServesApi) (types : List ParsedType)
    (stack : List IValue) :
    Computes frame.step (releaseCall deps types) stack
      (frame.runtime.releaseIf (types.any deps.isComplexType)) (fun _ => stack) := by
  unfold releaseCall ItRuntime.releaseIf
  split
  · have hcall : Computes frame.step [.callCore releaseObjects.id] [] frame.runtime.releaseObjects
        fun _ => [] :=
      computes_api hapi (d := releaseObjects) (by decide) [] (fun _ => []) rfl rfl
    exact hcall.frame stack
  · exact Computes.nil rfl

variable {outputTypes : List ParsedType} {outputs : List IType}

theorem exportOutputs_computes (hapi : frame.ServesApi)
    (hone : outputTypes.length ≤ 1)
    (houtputs : outputTypes.mapM (ptypeToItypeChecked r) = .ok outputs) {outs : List IValue}
    (houts : outs.length = (outputTypes.flatMap rawOutputs).length)
    (hcode : exportOutputs r outputTypes = .ok code) :
    Computes frame.step code outs.reverse (frame.runtime.liftOutputs outputs outs)
      List.reverse := by
  obtain ⟨instructions, hinstr, hcode⟩ := Fallible.bind_eq_ok_iff.mp hcode
  cases hcode
  rcases outputs_cases hone houtputs with ⟨rfl, rfl⟩ | ⟨ty, t, rfl, rfl, ht⟩
  · cases hinstr
    cases List.length_eq_zero_iff.mp houts
    exact Computes.nil rfl
  · obtain ⟨code, hone, hinstr⟩ := Fallible.bind_eq_ok_iff.mp hinstr
    cases hinstr
    rw [List.flatMap_singleton] at houts
    have hlift := exportOutputInstructions_computes hapi ht houts hone
    have hmeaning : frame.runtime.liftOutputs [t] outs =
        frame.runtime.liftOutput (crossing t) outs >>= fun v => pure [v] := by
      simp [ItRuntime.liftOutputs]
    rw [hmeaning, List.reverse_singleton, List.flatten_singleton]
    exact hlift.mapPure fun v => rfl

theorem importOutputs_computes (hapi : frame.ServesApi)
    (hone : outputTypes.length ≤ 1)
    (houtputs : outputTypes.mapM (ptypeToItypeChecked r) = .ok outputs) {values : List IValue}
    (hvalues : values.length = outputs.length)
    (hcode : importOutputs deps r outputTypes = .ok code) :
    Computes frame.step code values.reverse
      (frame.runtime.lowerOutputs (byteTag deps) outputs values) List.reverse := by
  obtain ⟨instructions, hinstr, hcode⟩ := Fallible.bind_eq_ok_iff.mp hcode
  cases hcode
  rcases outputs_cases hone houtputs with ⟨rfl, rfl⟩ | ⟨ty, t, rfl, rfl, ht⟩
  · cases hinstr
    cases List.length_eq_zero_iff.mp hvalues
    exact Computes.nil rfl
  · obtain ⟨code, hone, hinstr⟩ := Fallible.bind_eq_ok_iff.mp hinstr
    cases hinstr
    obtain ⟨v, rfl⟩ := List.length_eq_one_iff.mp hvalues
    have hlower := importOutputInstructions_computes hapi ht v hone
    have hmeaning : frame.runtime.lowerOutputs (byteTag deps) [t] [v] =
        frame.runtime.lowerOutput (byteTag deps) (crossing t) v := by
      simp [ItRuntime.lowerOutputs]
    rw [hmeaning, List.reverse_singleton, List.flatten_singleton]
    exact hlower

end Loops

theorem AdapterFrame.run_of_computes {code : List Instruction} {x : m (List IValue)}
    (h : Computes frame.step code [] x List.reverse) : frame.run code = x := by
  rw [run, h.exec_eq]
  simp [← bind_pure_comp]

end Marine.Loader
