import Marine.Lib.Bytes
import Marine.Lib.Stateful
import Marine.Loader.AdapterCalls

/-!
# Calls across modules

Guest memory is a state here.  The interpreter and the SDK are trusted for one
value at a time, at the types that a call has (`Marshals`): a value that lifting
yields (`Canonical`) is live once it was lowered, what is live is lifted again, and
it stays so while other values are lowered.

* `lowerArgs_reads`, `lowerOutputs_returns`: whole calls cross in both directions.
* `exportMeaning_eq`: a call from outside gets what the Wasm function computes.
* `importedCall_transparent`: a Wasm function keeps its specification when it is
  called by another module, through two adapters and two memories.
-/

namespace Marine.Loader

open Marine.Generator EffectCode Stateful

variable {σ ε : Type}

/-- Guest code: it changes the memories and may trap. -/
abbrev Guest (σ ε : Type) : Type → Type := StateT σ (Except ε)

/-- Which raw values stand for which value in a state: the blocks they name belong to it
and have not been released. -/
abbrev Live (σ : Type) := IType → List IValue → IValue → σ → Prop

/-- What is live in `s` is live in `s'`. -/
def Live.Keeps (live : Live σ) (s s' : σ) : Prop :=
  ∀ ty raws v, live ty raws v s → live ty raws v s'

theorem Live.Keeps.refl {live : Live σ} (s : σ) : live.Keeps s s := fun _ _ _ h => h

theorem Live.Keeps.trans {live : Live σ} {s t u : σ} (h : live.Keeps s t) (h' : live.Keeps t u) :
    live.Keeps s u := fun ty raws v hlive => h' ty raws v (h ty raws v hlive)

namespace ItRuntime

variable (rt : ItRuntime (Guest σ ε))

/-- The raw values are lifted to the value in this state. -/
def Reads (ty : IType) (raws : List IValue) (v : IValue) (s : σ) : Prop :=
  rt.liftRaw (crossing ty) raws s = .ok (v, s)

/-- The raw arguments of a call stand for the arguments. -/
def ReadsAll (types : List IType) (raws args : List IValue) (s : σ) : Prop :=
  raws.length = rawTotal types ∧ rt.liftArgs types raws s = .ok (args, s)

/-- Lifting yields the value at this type.  Others may be lowered there and are lifted as
another value, such as an array of bytes at the type of byte arrays. -/
def Canonical (ty : IType) (v : IValue) : Prop :=
  ∃ raws s s', rt.liftRaw (crossing ty) raws s = .ok (v, s')

def AllCanonical (types : List IType) (values : List IValue) : Prop :=
  List.Forall₂ rt.Canonical types values

/-- What a Wasm function has left behind when it returns `outs` stands for its outputs. -/
def Returns (outputs : List IType) (outs values : List IValue) (s : σ) : Prop :=
  rt.liftOutputs outputs outs s = .ok (values, s)

/-- What is relied on at the types `used`: values that are live can be read, values that
are lifted are live once they are lowered, and others stay so; the SDK remembers the place
of a result. -/
structure Marshals (live : Live σ) (typeTag : IValue) (used : List IType) : Prop where
  reads : ∀ ty ∈ used, ∀ raws v s, live ty raws v s → rt.Reads ty raws v s
  lowered : ∀ ty ∈ used, ∀ v, rt.Canonical ty v → ∀ s raws s',
    rt.lowerValue typeTag (crossing ty) v s = .ok (raws, s') →
      live ty raws v s' ∧ live.Keeps s s'
  size : ∀ size s s', rt.setResultSize size s = .ok ((), s') →
    rt.getResultSize s' = .ok (size, s') ∧ live.Keeps s s'
  ptr : ∀ ptr s s', rt.setResultPtr ptr s = .ok ((), s') →
    rt.getResultPtr s' = .ok (ptr, s') ∧ live.Keeps s s' ∧
      ∀ size, rt.getResultSize s = .ok (size, s) → rt.getResultSize s' = .ok (size, s')

/-- The Wasm function does what `spec` says: called with raw arguments it returns the
outputs of `spec`, unless it traps. -/
def Implements (types outputs : List IType) (call : List IValue → Guest σ ε (List IValue))
    (spec : List IValue → List IValue) : Prop :=
  ∀ raws args s outs s', rt.ReadsAll types raws args s → call raws s = .ok (outs, s') →
    rt.Returns outputs outs (spec args) s'

/-- What one module lifts at a type, the other lifts at the type in its place. -/
def Agrees (rt rt' : ItRuntime (Guest σ ε)) (types types' : List IType) : Prop :=
  List.Forall₂ (fun ty ty' => ∀ v, rt.Canonical ty v → rt'.Canonical ty' v) types types'

end ItRuntime

open ItRuntime

section Values

variable {rt : ItRuntime (Guest σ ε)} {live : Live σ} {typeTag : IValue}

theorem length_lowerValue {c : Crossing} {v : IValue} {s s' : σ} {raws : List IValue}
    (h : rt.lowerValue typeTag c v s = .ok (raws, s')) : raws.length = c.rawCount :=
  yields_iff.mp (lowerValue_yields rt typeTag c v) s raws s' h

theorem allCanonical_of_agrees {rt' : ItRuntime (Guest σ ε)} {types types' : List IType}
    {values : List IValue} (hagrees : rt.Agrees rt' types types')
    (h : rt.AllCanonical types values) : rt'.AllCanonical types' values := by
  induction hagrees generalizing values with
  | nil =>
    cases h
    exact .nil
  | cons hty _ ih =>
    cases h with
    | cons hv hvs => exact .cons (hty _ hv) (ih hvs)

/-! ## Arguments -/

/-- The arguments of a call are lifted. -/
theorem allCanonical_of_liftArgs {types : List IType} {raws args : List IValue} {s s' : σ}
    (h : rt.liftArgs types raws s = .ok (args, s')) : rt.AllCanonical types args := by
  induction types generalizing raws args s with
  | nil =>
    obtain ⟨rfl, -⟩ := pure_eq_ok_iff.mp h
    exact .nil
  | cons ty types ih =>
    obtain ⟨v, t, hv, h⟩ := bind_eq_ok_iff.mp h
    obtain ⟨vs, hvs, rfl⟩ := bind_pure_eq_ok_iff.mp h
    exact .cons ⟨_, _, _, hv⟩ (ih hvs)

/-- **Arguments cross.**  Lowered from left to right, none is lost. -/
theorem lowerArgs_reads {used types : List IType} (hm : rt.Marshals live typeTag used)
    (hused : types ⊆ used) {args raws : List IValue} {s s' : σ}
    (hargs : rt.AllCanonical types args)
    (h : rt.lowerArgs typeTag types args s = .ok (raws, s')) :
    rt.ReadsAll types raws args s' ∧ live.Keeps s s' := by
  induction hargs generalizing raws s with
  | nil =>
    obtain ⟨rfl, rfl⟩ := pure_eq_ok_iff.mp h
    exact ⟨⟨rfl, rfl⟩, Live.Keeps.refl s'⟩
  | @cons ty v types args hv _ ih =>
    obtain ⟨hty, htypes⟩ := List.cons_subset.mp hused
    obtain ⟨first, t, hfirst, h⟩ := bind_eq_ok_iff.mp h
    obtain ⟨rest, hrest, rfl⟩ := bind_pure_eq_ok_iff.mp h
    obtain ⟨hlive, hkeeps⟩ := hm.lowered ty hty v hv s first t hfirst
    obtain ⟨⟨hcount, hall⟩, hkeeps'⟩ := ih htypes hrest
    have hlenFirst : first.length = (crossing ty).rawCount := length_lowerValue hfirst
    refine ⟨⟨?_, ?_⟩, hkeeps.trans hkeeps'⟩
    · rw [List.length_append, hlenFirst, hcount, rawTotal_cons]
    · rw [ItRuntime.liftArgs, List.take_left' hlenFirst, List.drop_left' hlenFirst]
      have hreads := hm.reads ty hty first v s' (hkeeps' ty first v hlive)
      exact bind_eq_ok_iff.mpr ⟨v, s', hreads,
        bind_pure_eq_ok_iff.mpr ⟨args, hall, rfl⟩⟩

/-! ## Outputs -/

/-- The outputs of a Wasm function are lifted. -/
theorem canonical_of_liftOutput {ty : IType} {outs : List IValue} {v : IValue} {s s' : σ}
    (h : rt.liftOutput (crossing ty) outs s = .ok (v, s')) : rt.Canonical ty v := by
  unfold Canonical
  cases hc : crossing ty with
  | plain | number fromCore toCore =>
    rw [hc] at h
    exact ⟨_, _, _, h⟩
  | string | bytes | array valueType =>
    rw [hc] at h
    obtain ⟨ptr, t, -, h⟩ := bind_eq_ok_iff.mp h
    obtain ⟨size, u, -, h⟩ := bind_eq_ok_iff.mp h
    exact ⟨_, _, _, h⟩
  | record recordTypeId =>
    rw [hc] at h
    obtain ⟨ptr, t, -, h⟩ := bind_eq_ok_iff.mp h
    exact ⟨_, _, _, h⟩

theorem allCanonical_of_liftOutputs {outputs : List IType} {outs values : List IValue} {s s' : σ}
    (h : rt.liftOutputs outputs outs s = .ok (values, s')) : rt.AllCanonical outputs values := by
  induction outputs generalizing values s with
  | nil =>
    obtain ⟨rfl, -⟩ := pure_eq_ok_iff.mp h
    exact .nil
  | cons ty outputs ih =>
    rw [ItRuntime.liftOutputs, List.mapM_cons] at h
    obtain ⟨v, t, hv, h⟩ := bind_eq_ok_iff.mp h
    obtain ⟨rest, hrest, rfl⟩ := bind_pure_eq_ok_iff.mp h
    exact .cons (canonical_of_liftOutput hv) (ih hrest)

section Published

variable {used : List IType}

theorem publish_block (hm : rt.Marshals live typeTag used) {ptr size : IValue}
    {outs : List IValue} {s s' : σ} (h : rt.publish [ptr, size] s = .ok (outs, s')) :
    rt.getResultPtr s' = .ok (ptr, s') ∧ rt.getResultSize s' = .ok (size, s') ∧
      live.Keeps s s' := by
  obtain ⟨⟨⟩, t, hsize, h⟩ := bind_eq_ok_iff.mp h
  obtain ⟨⟨⟩, hptr, rfl⟩ := bind_pure_eq_ok_iff.mp h
  obtain ⟨hgetSize, hkeeps⟩ := hm.size size s t hsize
  obtain ⟨hgetPtr, hkeeps', hsame⟩ := hm.ptr ptr t s' hptr
  exact ⟨hgetPtr, hsame size hgetSize, hkeeps.trans hkeeps'⟩

theorem publish_ptr (hm : rt.Marshals live typeTag used) {ptr : IValue} {outs : List IValue}
    {s s' : σ} (h : rt.publish [ptr] s = .ok (outs, s')) :
    rt.getResultPtr s' = .ok (ptr, s') ∧ live.Keeps s s' := by
  obtain ⟨⟨⟩, hptr, rfl⟩ := bind_pure_eq_ok_iff.mp h
  obtain ⟨hgetPtr, hkeeps, -⟩ := hm.ptr ptr s s' hptr
  exact ⟨hgetPtr, hkeeps⟩

/-- **An output crosses**, in the returned value or through the place that the SDK keeps. -/
theorem lowerOutput_reads (hm : rt.Marshals live typeTag used) {ty : IType} (hty : ty ∈ used)
    {v : IValue} (hv : rt.Canonical ty v) {outs : List IValue} {s s' : σ}
    (h : rt.lowerOutput typeTag (crossing ty) v s = .ok (outs, s')) :
    rt.liftOutput (crossing ty) outs s' = .ok (v, s') := by
  obtain ⟨raws, t, hlower, h⟩ := bind_eq_ok_iff.mp h
  obtain ⟨hlive, -⟩ := hm.lowered ty hty v hv s raws t hlower
  have hlen : raws.length = (crossing ty).rawCount := length_lowerValue hlower
  have hblock {ptr size : IValue} (hraws : raws = [ptr, size])
      (hpublish : rt.publish raws t = .ok (outs, s')) :
      (do
        let ptr ← rt.getResultPtr
        let size ← rt.getResultSize
        rt.liftRaw (crossing ty) [ptr, size]) s' = .ok (v, s') := by
    subst hraws
    obtain ⟨hptr, hsize, hkeeps⟩ := publish_block hm hpublish
    exact bind_eq_ok_iff.mpr ⟨ptr, s', hptr, bind_eq_ok_iff.mpr ⟨size, s', hsize,
      hm.reads ty hty _ v s' (hkeeps ty _ v hlive)⟩⟩
  cases hc : crossing ty with
  | plain | number fromCore toCore =>
    rw [hc] at h
    obtain ⟨rfl, rfl⟩ := pure_eq_ok_iff.mp h
    have hlift := hm.reads ty hty _ v _ hlive
    rw [Reads, hc] at hlift
    exact hlift
  | string | bytes | array valueType =>
    rw [hc] at h hlen
    obtain ⟨ptr, size, hraws⟩ := List.length_eq_two.mp hlen
    have hlift := hblock hraws h
    rw [hc] at hlift
    exact hlift
  | record recordTypeId =>
    rw [hc] at h hlen
    obtain ⟨ptr, rfl⟩ := List.length_eq_one_iff.mp hlen
    obtain ⟨hptr, hkeeps⟩ := publish_ptr hm h
    have hlift := hm.reads ty hty _ v s' (hkeeps ty _ v hlive)
    rw [Reads, hc] at hlift
    exact bind_eq_ok_iff.mpr ⟨ptr, s', hptr, hlift⟩

theorem lowerOutputs_returns (hm : rt.Marshals live typeTag used) {outputs : List IType}
    (hused : outputs ⊆ used) (hone : outputs.length ≤ 1) {values outs : List IValue} {s s' : σ}
    (hvalues : rt.AllCanonical outputs values)
    (h : rt.lowerOutputs typeTag outputs values s = .ok (outs, s')) :
    rt.Returns outputs outs values s' := by
  rcases outputs with _ | ⟨ty, _ | ⟨_, _⟩⟩
  · cases hvalues
    rfl
  · obtain ⟨v, _, hv, hnone, rfl⟩ := List.forall₂_cons_left_iff.mp hvalues
    cases hnone
    obtain ⟨raws, t, hlower, h⟩ := bind_eq_ok_iff.mp h
    obtain ⟨rest, hrest, rfl⟩ := bind_pure_eq_ok_iff.mp h
    obtain ⟨rfl, rfl⟩ := pure_eq_ok_iff.mp hrest
    rw [List.append_nil]
    have hmap : rt.liftOutputs [ty] raws =
        rt.liftOutput (crossing ty) raws >>= fun v => pure [v] := by
      simp [ItRuntime.liftOutputs]
    rw [Returns, hmap]
    have hty : ty ∈ used := hused List.mem_cons_self
    exact bind_pure_eq_ok_iff.mpr ⟨v, lowerOutput_reads hm hty hv hlower, rfl⟩
  · simp at hone

end Published

/-! ## Calls -/

variable {types outputs : List IType} {release : Bool} {spec : List IValue → List IValue}
  {call : List IValue → Guest σ ε (List IValue)}

/-- A call returns canonical values, whatever its arguments are. -/
theorem exportMeaning_canonical {args values : List IValue} {s s' : σ}
    (h : rt.exportMeaning typeTag types outputs release call args s = .ok (values, s')) :
    rt.AllCanonical outputs values := by
  obtain ⟨_, _, -, h⟩ := bind_eq_ok_iff.mp h
  obtain ⟨_, _, -, h⟩ := bind_eq_ok_iff.mp h
  obtain ⟨values', w, hlift, h⟩ := bind_eq_ok_iff.mp h
  obtain ⟨_, -, rfl⟩ := bind_pure_eq_ok_iff.mp h
  exact allCanonical_of_liftOutputs hlift

/-- **A call from outside** gets what the Wasm function computes. -/
theorem exportMeaning_eq (hm : rt.Marshals live typeTag types)
    (himpl : rt.Implements types outputs call spec)
    {args values : List IValue} {s s' : σ} (hargs : rt.AllCanonical types args)
    (h : rt.exportMeaning typeTag types outputs release call args s = .ok (values, s')) :
    values = spec args := by
  obtain ⟨raws, t, hlower, h⟩ := bind_eq_ok_iff.mp h
  obtain ⟨outs, u, hcall, h⟩ := bind_eq_ok_iff.mp h
  obtain ⟨values', w, hlift, h⟩ := bind_eq_ok_iff.mp h
  obtain ⟨_, -, rfl⟩ := bind_pure_eq_ok_iff.mp h
  have hreads := (lowerArgs_reads hm (List.Subset.refl types) hargs hlower).1
  have hreturns := himpl raws args t outs u hreads hcall
  exact (Prod.mk.inj (Except.ok.inj (hlift.symm.trans hreturns))).1

/-- **A call by the module** leaves what the other module computes. -/
theorem importMeaning_implements (hm : rt.Marshals live typeTag outputs)
    (hone : outputs.length ≤ 1)
    (hcall : ∀ args s values s', rt.AllCanonical types args → call args s = .ok (values, s') →
      values = spec args ∧ rt.AllCanonical outputs values) :
    rt.Implements types outputs (rt.importMeaning typeTag types outputs release call) spec := by
  intro raws args s outs s' hreads h
  obtain ⟨args', t, hlift, h⟩ := bind_eq_ok_iff.mp h
  obtain ⟨_, u, -, h⟩ := bind_eq_ok_iff.mp h
  obtain ⟨values, w, hvalues, h⟩ := bind_eq_ok_iff.mp h
  obtain ⟨rfl, rfl⟩ := Prod.mk.inj (Except.ok.inj (hlift.symm.trans hreads.2))
  obtain ⟨rfl, hcanonical⟩ := hcall args' u values w (allCanonical_of_liftArgs hlift) hvalues
  exact lowerOutputs_returns hm (List.Subset.refl outputs) hone hcanonical h

end Values

/-! ## Two generated modules -/

/-- **Calls across modules are transparent.**  The function `g` that a module imports
is bound to the function `f` of another one, and the types of the two agree.  If the Wasm
function of `f` implements `spec`, so does the function that the code of the first module
sees as `g`. -/
theorem importedCall_transparent {depsA depsB : Externals} {astA astB : ModuleAST}
    {IA IB : Interfaces} (hA : generateInterfaces depsA astA = .ok IA)
    (hB : generateInterfaces depsB astB = .ok IB) {mod : ExternModType}
    (hmod : mod ∈ astA.externMods) (hhost : ¬ isHostImport mod.nameSpace) {g : ExternFnType}
    (hg : g ∈ mod.imports) {f : FnType} (hf : f ∈ astB.functions) (hname : OwnName f.signature.name)
    (hargs : g.signature.arguments.length = f.signature.arguments.length)
    (houtputs : g.signature.outputTypes.length = f.signature.outputTypes.length)
    (hone : f.signature.outputTypes.length ≤ 1) :
    ∃ (im : FoundImport (MITInterfaces.new IA) mod.nameSpace (ExternFnType.name g))
      (ex : FoundExport (MITInterfaces.new IB) f.signature.name),
      Resolves g.signature im.arguments im.outputTypes ∧
      Resolves f.signature ex.arguments ex.outputTypes ∧
      ∀ {σ ε : Type} (a b : ModuleInstance (Guest σ ε)) (liveA liveB : Live σ)
        (spec : List IValue → List IValue),
        a.runtime.Marshals liveA (byteTag depsA) im.outputTypes →
        b.runtime.Marshals liveB (byteTag depsB) ex.types →
        a.runtime.Agrees b.runtime im.types ex.types →
        b.runtime.Agrees a.runtime ex.outputTypes im.outputTypes →
        a.imported im.descriptor = b.runAdapter (MITInterfaces.new IB) ex.adapterType →
        CoreFits f.signature (b.core f.signature.name) →
        b.runtime.Implements ex.types ex.outputTypes (b.core f.signature.name).call spec →
        a.runtime.Implements im.types im.outputTypes
          (a.runAdapter (MITInterfaces.new IA) im.adapterType) spec := by
  obtain ⟨im, himResolves, himport⟩ := generatedCalls_import hA hmod hhost hg (by omega)
  obtain ⟨ex, hexResolves, hexport⟩ := generatedCalls_export hB hf hone hname
  have himArgs := himResolves.length_arguments
  have himOuts := himResolves.length_outputTypes
  have hexArgs := hexResolves.length_arguments
  have hexOuts := hexResolves.length_outputTypes
  refine ⟨im, ex, himResolves, hexResolves,
    fun a b liveA liveB spec hma hmb hagreesArgs hagreesOuts hbound hfits himpl => ?_⟩
  have hbinding : ∀ args, args.length = im.arguments.length →
      a.imported im.descriptor args = b.runtime.exportMeaning (byteTag depsB) ex.types
        ex.outputTypes (f.signature.outputTypes.any depsB.isComplexType)
        (b.core f.signature.name).call args := by
    intro args hlen
    rw [hbound, hexport b args hfits (by omega)]
  intro raws args s outs s' hreads hrun
  rw [himport a raws (fun args hlen => yields_iff.mpr fun s values s' hvalues => ?_)
    hreads.1] at hrun
  · refine importMeaning_implements hma (by omega) (fun args s values s' hargs hvalues => ?_)
      raws args s outs s' hreads hrun
    have hlen : args.length = im.arguments.length := by
      rw [← hargs.length_eq, FoundImport.types, List.length_map]
    rw [hbinding args hlen] at hvalues
    exact ⟨exportMeaning_eq hmb himpl (allCanonical_of_agrees hagreesArgs hargs) hvalues,
      allCanonical_of_agrees hagreesOuts (exportMeaning_canonical hvalues)⟩
  · rw [hbinding args hlen] at hvalues
    have hcount := (exportMeaning_canonical hvalues).length_eq
    omega

/-! ## A runtime for strings -/

/-- Memory that only grows, and the place of the last result. -/
structure StringMemory where
  bytes : List UInt8
  resultSize : IValue
  resultPtr : IValue

def natOfI32 : IValue → Option Nat
  | .i32 v => some v.toNatClampNeg
  | _ => none

def i32OfNat (n : Nat) : Option IValue := if n < 2 ^ 31 then some (.i32 (.ofNat n)) else none

theorem natOfI32_i32OfNat {n : Nat} {v : IValue} (h : i32OfNat n = some v) :
    natOfI32 v = some n := by
  unfold i32OfNat at h
  split at h
  · rename_i hlt
    cases h
    rw [natOfI32, Int32.toNatClampNeg_ofNat_of_lt hlt]
  · cases h

namespace StringMemory

def stringSize : IValue → Option IValue
  | .string text => i32OfNat (Utf8.encode text).length
  | _ => none

def read (mem : StringMemory) (ptr size : IValue) : Option IValue := do
  let start ← natOfI32 ptr
  let length ← natOfI32 size
  if start + length ≤ mem.bytes.length then
    (Utf8.decode ((mem.bytes.drop start).take length)).map .string
  else none

def allocate (mem : StringMemory) (size : IValue) : Option (IValue × StringMemory) := do
  let length ← natOfI32 size
  let ptr ← i32OfNat mem.bytes.length
  return (ptr, { mem with bytes := mem.bytes ++ List.replicate length 0 })

def write (mem : StringMemory) (ptr : IValue) :
    IValue → Option ((IValue × IValue) × StringMemory)
  | .string text => do
    let start ← natOfI32 ptr
    let text := Utf8.encode text
    let size ← i32OfNat text.length
    if start + text.length ≤ mem.bytes.length then
      return ((ptr, size), { mem with
        bytes := mem.bytes.take start ++ text ++ mem.bytes.drop (start + text.length) })
    else none
  | _ => none

/-- A string that is written into memory allocated for it lies behind all others. -/
theorem write_allocate {mem mem' mem'' : StringMemory} {v size ptr : IValue}
    {block : IValue × IValue} (hsize : stringSize v = some size)
    (hallocate : mem.allocate size = some (ptr, mem'))
    (hwrite : mem'.write ptr v = some (block, mem'')) :
    mem.bytes <+: mem''.bytes ∧ mem''.read block.1 block.2 = some v := by
  cases v with
  | string text =>
    have hlength := natOfI32_i32OfNat hsize
    obtain ⟨n, hn, hallocate⟩ := Option.bind_eq_some_iff.mp hallocate
    obtain ⟨p, hp, hallocate⟩ := Option.bind_eq_some_iff.mp hallocate
    rw [hlength] at hn
    cases hn
    cases hallocate
    have hstart := natOfI32_i32OfNat hp
    obtain ⟨start, hs, hwrite⟩ := Option.bind_eq_some_iff.mp hwrite
    obtain ⟨size', hsize', hwrite⟩ := Option.bind_eq_some_iff.mp hwrite
    rw [hstart] at hs
    cases hs
    have hfits : mem.bytes.length + (Utf8.encode text).length ≤
        (mem.bytes ++ List.replicate (Utf8.encode text).length 0).length := by simp
    rw [if_pos hfits] at hwrite
    cases hwrite
    have hlength' := natOfI32_i32OfNat hsize'
    refine ⟨?_, ?_⟩
    · simp
    · rw [read, hstart, hlength']
      simp
  | _ => cases hsize

/-- What is read goes on to be read when memory grows. -/
theorem read_mono {mem mem' : StringMemory} (h : mem.bytes <+: mem'.bytes) {ptr size v : IValue}
    (hread : mem.read ptr size = some v) : mem'.read ptr size = some v := by
  obtain ⟨start, hstart, hread⟩ := Option.bind_eq_some_iff.mp hread
  obtain ⟨length, hlength, hread⟩ := Option.bind_eq_some_iff.mp hread
  obtain ⟨more, hmore⟩ := h
  split at hread
  · rename_i hle
    have hle' : start + length ≤ mem'.bytes.length := by
      rw [← hmore, List.length_append]
      omega
    rw [read, hstart, hlength]
    show (if start + length ≤ mem'.bytes.length then _ else none) = some v
    rw [if_pos hle', ← hmore, List.drop_append_of_le_length (by omega),
      List.take_append_of_le_length (by rw [List.length_drop]; omega)]
    exact hread
  · cases hread

end StringMemory

section StringRuntime

variable (get : σ → StringMemory) (put : σ → StringMemory → σ)

/-- A step on the memory of one module. -/
def onMemory {α : Type} (f : StringMemory → Option (α × StringMemory)) : Guest σ Unit α :=
  fun s =>
    match f (get s) with
    | some (a, mem) => .ok (a, put s mem)
    | none => .error ()

def ofOption {α : Type} : Option α → Guest σ Unit α
  | some a => pure a
  | none => fun _ => .error ()

/-- What is done with strings; everything else traps. -/
def stringEffects : ItEffects (Guest σ Unit) where
  unary
    | .stringSize, v => ofOption (StringMemory.stringSize v)
    | _, _ => ofOption none
  liftPair
    | .stringLiftMemory, ptr, size => fun s => ofOption ((get s).read ptr size) s
    | _, _, _ => ofOption none
  lowerString ptr v := onMemory get put fun mem => mem.write ptr v
  lowerArray _ _ := ofOption none
  allocate size _ := onMemory get put fun mem => mem.allocate size
  releaseObjects := pure ()
  getResultSize s := .ok ((get s).resultSize, s)
  getResultPtr s := .ok ((get s).resultPtr, s)
  setResultSize size := onMemory get put fun mem => some ((), { mem with resultSize := size })
  setResultPtr ptr := onMemory get put fun mem => some ((), { mem with resultPtr := ptr })
  trap := ofOption none

def stringRuntime : ItRuntime (Guest σ Unit) := (stringEffects get put).runtime

variable {get put}

theorem ofOption_eq_ok_iff {α : Type} {x : Option α} {a : α} {s s' : σ} :
    (ofOption x : Guest σ Unit α) s = .ok (a, s') ↔ x = some a ∧ s' = s := by
  cases x with
  | none => exact ⟨nofun, nofun⟩
  | some b =>
    rw [ofOption, pure_eq_ok_iff, Option.some.injEq]
    exact and_congr_left fun _ => eq_comm

theorem onMemory_eq_ok_iff {α : Type} {f : StringMemory → Option (α × StringMemory)} {a : α}
    {s s' : σ} :
    onMemory get put f s = .ok (a, s') ↔ ∃ mem, f (get s) = some (a, mem) ∧ s' = put s mem := by
  unfold onMemory
  cases hf : f (get s) with
  | none => exact ⟨nofun, nofun⟩
  | some p =>
    constructor
    · intro h
      cases h
      exact ⟨p.2, rfl, rfl⟩
    · rintro ⟨mem, hmem, rfl⟩
      cases hmem
      rfl

theorem reads_string_iff {raws : List IValue} {v : IValue} {s : σ} :
    (stringRuntime get put).Reads .string raws v s ↔
      ∃ ptr size, raws = [ptr, size] ∧ (get s).read ptr size = some v := by
  constructor
  · intro h
    rcases raws with _ | ⟨ptr, _ | ⟨size, _ | ⟨_, _⟩⟩⟩
    · cases h
    · cases h
    · exact ⟨ptr, size, rfl, (ofOption_eq_ok_iff.mp h).1⟩
    · cases h
  · rintro ⟨ptr, size, rfl, h⟩
    exact ofOption_eq_ok_iff.mpr ⟨h, rfl⟩

theorem canonical_string_iff {v : IValue} :
    (stringRuntime get put).Canonical .string v ↔
      ∃ s ptr size, (get s).read ptr size = some v := by
  constructor
  · rintro ⟨raws, s, s', h⟩
    rcases raws with _ | ⟨ptr, _ | ⟨size, _ | ⟨_, _⟩⟩⟩
    · cases h
    · cases h
    · exact ⟨s, ptr, size, (ofOption_eq_ok_iff.mp h).1⟩
    · cases h
  · rintro ⟨s, ptr, size, h⟩
    exact ⟨[ptr, size], s, s, ofOption_eq_ok_iff.mpr ⟨h, rfl⟩⟩

/-- Nothing is released: what can be read is live. -/
theorem keeps_of_bytes {s s' : σ} (h : (get s).bytes <+: (get s').bytes) :
    Live.Keeps (stringRuntime get put).Reads s s' := by
  intro ty raws v hreads
  cases ty with
  | string =>
    obtain ⟨ptr, size, rfl, hread⟩ := reads_string_iff.mp hreads
    exact reads_string_iff.mpr ⟨ptr, size, rfl, StringMemory.read_mono h hread⟩
  | f32 | f64 | i32 | i64 =>
    rcases raws with _ | ⟨w, _ | ⟨_, _⟩⟩
    · cases hreads
    · cases hreads
      rfl
    · cases hreads
  | byteArray | array valueType =>
    rcases raws with _ | ⟨w, _ | ⟨_, _ | ⟨_, _⟩⟩⟩ <;> cases hreads
  | _ => rcases raws with _ | ⟨w, _ | ⟨_, _⟩⟩ <;> cases hreads

theorem stringRuntime_lowered (hget : ∀ s mem, get (put s mem) = mem) {typeTag : IValue}
    (ty : IType) {v : IValue} {s s' : σ} {raws : List IValue}
    (h : (stringRuntime get put).lowerValue typeTag (crossing ty) v s = .ok (raws, s')) :
    (stringRuntime get put).Reads ty raws v s' ∧
      Live.Keeps (stringRuntime get put).Reads s s' := by
  cases ty with
  | string =>
    obtain ⟨size, t, hmeasure, h⟩ := bind_eq_ok_iff.mp h
    obtain ⟨ptr, u, hallocate, h⟩ := bind_eq_ok_iff.mp h
    obtain ⟨block, hwrite, rfl⟩ := bind_pure_eq_ok_iff.mp h
    have hallocate : onMemory get put (fun mem => mem.allocate size) t = .ok (ptr, u) := hallocate
    have hwrite : onMemory get put (fun mem => mem.write ptr v) u = .ok (block, s') := hwrite
    obtain ⟨hsize, rfl⟩ := ofOption_eq_ok_iff.mp hmeasure
    obtain ⟨mem, hallocated, rfl⟩ := onMemory_eq_ok_iff.mp hallocate
    obtain ⟨mem', hwritten, rfl⟩ := onMemory_eq_ok_iff.mp hwrite
    rw [hget] at hwritten
    obtain ⟨hgrows, hread⟩ := StringMemory.write_allocate hsize hallocated hwritten
    refine ⟨reads_string_iff.mpr ⟨_, _, rfl, ?_⟩, keeps_of_bytes ?_⟩
    · rwa [hget]
    · rwa [hget]
  | f32 | f64 | i32 | i64 =>
    obtain ⟨rfl, rfl⟩ := pure_eq_ok_iff.mp h
    exact ⟨rfl, Live.Keeps.refl _⟩
  | _ => cases h

theorem stringRuntime_marshals (hget : ∀ s mem, get (put s mem) = mem) (typeTag : IValue)
    (used : List IType) :
    (stringRuntime get put).Marshals (stringRuntime get put).Reads typeTag used where
  reads _ _ _ _ _ h := h
  lowered ty _ _ _ _ _ _ h := stringRuntime_lowered hget ty h
  size size s s' h := by
    have hstep : onMemory get put (fun mem => some ((), { mem with resultSize := size })) s =
        .ok ((), s') := h
    obtain ⟨mem, hmem, rfl⟩ := onMemory_eq_ok_iff.mp hstep
    cases hmem
    refine ⟨?_, keeps_of_bytes ?_⟩
    · show Except.ok ((get (put s _)).resultSize, _) = _
      rw [hget]
    · rw [hget]
  ptr ptr s s' h := by
    have hstep : onMemory get put (fun mem => some ((), { mem with resultPtr := ptr })) s =
        .ok ((), s') := h
    obtain ⟨mem, hmem, rfl⟩ := onMemory_eq_ok_iff.mp hstep
    cases hmem
    refine ⟨?_, keeps_of_bytes ?_, fun size hsize => ?_⟩
    · show Except.ok ((get (put s _)).resultPtr, _) = _
      rw [hget]
    · rw [hget]
    · cases hsize
      show Except.ok ((get (put s _)).resultSize, _) = _
      rw [hget]

end StringRuntime

/-! ## A greeting -/

/-- `fn greet(name: String) -> String`, as a module exports it. -/
def greetingAst : ModuleAST where
  records := []
  functions := [⟨"greet", [⟨"name", .utf8String⟩], [.utf8String]⟩].map .mk
  externMods := []

/-- The same function, as another module imports it. -/
def frontAst : ModuleAST where
  records := []
  functions := []
  externMods := [⟨"greeting", [⟨none, ⟨"greet", [⟨"name", .utf8String⟩], [.utf8String]⟩⟩]⟩]

def greeting : IValue → IValue
  | .string name => .string ("Hi, " ++ name)
  | v => v

/-- The Wasm function: it reads its argument and leaves its result. -/
def greetCore (rt : ItRuntime (Guest σ ε)) (typeTag : IValue) (raws : List IValue) :
    Guest σ ε (List IValue) := do
  let name ← rt.liftRaw .string raws
  rt.lowerOutputs typeTag [.string] [greeting name]

theorem greetCore_implements {rt : ItRuntime (Guest σ ε)} {live : Live σ} {typeTag : IValue}
    (hm : rt.Marshals live typeTag [.string])
    (hlowered : ∀ v s raws s', rt.lowerValue typeTag .string v s = .ok (raws, s') →
      rt.Canonical .string v) :
    rt.Implements [.string] [.string] (greetCore rt typeTag) (List.map greeting) := by
  intro raws args s outs s' hreads h
  obtain ⟨name, t, hlift, h⟩ := bind_eq_ok_iff.mp h
  obtain ⟨hlen, hargs⟩ := hreads
  have htake : raws.take 2 = raws := List.take_of_length_le (Nat.le_of_eq hlen)
  obtain ⟨name', u, hlift', hrest⟩ := bind_eq_ok_iff.mp hargs
  obtain ⟨rest, hnil, rfl⟩ := bind_pure_eq_ok_iff.mp hrest
  obtain ⟨rfl, -⟩ := pure_eq_ok_iff.mp hnil
  have hsame : rt.liftRaw .string raws s = .ok (name', u) := by
    rw [← htake]
    exact hlift'
  obtain ⟨rfl, rfl⟩ := Prod.mk.inj (Except.ok.inj (hlift.symm.trans hsame))
  have hcanonical : rt.Canonical .string (greeting name) := by
    obtain ⟨_, _, houtput, -⟩ := bind_eq_ok_iff.mp h
    obtain ⟨_, _, hlower, -⟩ := bind_eq_ok_iff.mp houtput
    exact hlowered _ _ _ _ hlower
  exact lowerOutputs_returns hm (List.Subset.refl _) (by decide) (.cons hcanonical .nil) h

theorem greetCore_yields {rt : ItRuntime (Guest σ ε)} {typeTag : IValue} (raws : List IValue) :
    EffectCode.Yields (fun outs => outs.length = 0) (greetCore rt typeTag raws) := by
  refine yields_iff.mpr fun s outs s' h => ?_
  obtain ⟨name, t, -, h⟩ := bind_eq_ok_iff.mp h
  obtain ⟨outs, u, houtput, h⟩ := bind_eq_ok_iff.mp h
  obtain ⟨rest, hrest, rfl⟩ := bind_pure_eq_ok_iff.mp h
  obtain ⟨rfl, -⟩ := pure_eq_ok_iff.mp hrest
  obtain ⟨raws, w, hlower, hpublish⟩ := bind_eq_ok_iff.mp houtput
  obtain ⟨ptr, size, rfl⟩ := List.length_eq_two.mp (length_lowerValue hlower)
  obtain ⟨_, _, -, hpublish⟩ := bind_eq_ok_iff.mp hpublish
  obtain ⟨_, -, rfl⟩ := bind_pure_eq_ok_iff.mp hpublish
  rfl

/-- Two memories, one for each module. -/
abbrev TwoMemories := Guest (StringMemory × StringMemory) Unit

def frontRuntime : ItRuntime TwoMemories := stringRuntime Prod.fst fun s mem => (mem, s.2)

def greetingRuntime : ItRuntime TwoMemories := stringRuntime Prod.snd fun s mem => (s.1, mem)

def greetingModule (typeTag : IValue) : ModuleInstance TwoMemories where
  runtime := greetingRuntime
  core _ := ⟨2, greetCore greetingRuntime typeTag⟩
  imported _ _ := greetingRuntime.trap

/-- A module whose imports are bound to the function. -/
def frontModule (bound : List IValue → TwoMemories (List IValue)) : ModuleInstance TwoMemories where
  runtime := frontRuntime
  core _ := ⟨0, fun _ => frontRuntime.trap⟩
  imported _ := bound

theorem importedCall_transparent_greet :
    ∃ IA IB, generateInterfaces crateExternals frontAst = .ok IA ∧
      generateInterfaces crateExternals greetingAst = .ok IB ∧
      ∃ (im : FoundImport (MITInterfaces.new IA) "greeting" "greet")
        (ex : FoundExport (MITInterfaces.new IB) "greet"),
        frontRuntime.Implements [.string] [.string]
          ((frontModule ((greetingModule (byteTag crateExternals)).runAdapter
            (MITInterfaces.new IB) ex.adapterType)).runAdapter
              (MITInterfaces.new IA) im.adapterType) (List.map greeting) := by
  have hfront : ∃ I, generateInterfaces crateExternals frontAst = .ok I :=
    ⟨_, Fallible.bind_eq_ok_iff.mpr ⟨_, rfl,
      Fallible.bind_eq_ok_iff.mpr ⟨(), validateRecords_flat rfl (by decide), rfl⟩⟩⟩
  have hgreeting : ∃ I, generateInterfaces crateExternals greetingAst = .ok I :=
    ⟨_, Fallible.bind_eq_ok_iff.mpr ⟨_, rfl,
      Fallible.bind_eq_ok_iff.mpr ⟨(), validateRecords_flat rfl (by decide), rfl⟩⟩⟩
  obtain ⟨IA, hA⟩ := hfront
  obtain ⟨IB, hB⟩ := hgreeting
  have hname : OwnName "greet" := by
    rw [OwnName]
    decide
  obtain ⟨im, ex, ⟨r, himArgs, himOuts⟩, ⟨r', hexArgs, hexOuts⟩, h⟩ :=
    importedCall_transparent hA hB (.head _) (by decide) (.head _)
      (List.mem_map_of_mem (.head _)) hname rfl rfl (by decide)
  refine ⟨IA, IB, hA, hB, im, ex, ?_⟩
  have himTypes : im.types = [.string] := by
    rw [FoundImport.types, ← Except.ok.inj himArgs]
    rfl
  have hexTypes : ex.types = [.string] := by
    rw [FoundExport.types, ← Except.ok.inj hexArgs]
    rfl
  have himOuts : im.outputTypes = [.string] := (Except.ok.inj himOuts).symm
  have hexOuts : ex.outputTypes = [.string] := (Except.ok.inj hexOuts).symm
  have hmarshals : ∀ used, greetingRuntime.Marshals greetingRuntime.Reads
      (byteTag crateExternals) used := stringRuntime_marshals (fun _ _ => rfl) _
  have hlowered : ∀ v s raws s',
      greetingRuntime.lowerValue (byteTag crateExternals) .string v s = .ok (raws, s') →
      greetingRuntime.Canonical .string v := fun v s raws s' h =>
    ⟨raws, s', s', (stringRuntime_lowered (fun _ _ => rfl) .string h).1⟩
  have himpl : greetingRuntime.Implements ex.types ex.outputTypes
      (greetCore greetingRuntime (byteTag crateExternals)) (List.map greeting) := by
    rw [hexTypes, hexOuts]
    exact greetCore_implements (hmarshals _) hlowered
  -- a string of the one memory may lie in the other
  have hargs : frontRuntime.Agrees greetingRuntime im.types ex.types := by
    rw [himTypes, hexTypes]
    refine .cons (fun v hv => ?_) .nil
    obtain ⟨s, ptr, size, hread⟩ := canonical_string_iff.mp hv
    exact canonical_string_iff.mpr ⟨(s.1, s.1), ptr, size, hread⟩
  have houts : greetingRuntime.Agrees frontRuntime ex.outputTypes im.outputTypes := by
    rw [himOuts, hexOuts]
    refine .cons (fun v hv => ?_) .nil
    obtain ⟨s, ptr, size, hread⟩ := canonical_string_iff.mp hv
    exact canonical_string_iff.mpr ⟨(s.2, s.2), ptr, size, hread⟩
  have htransparent := h (frontModule _) (greetingModule (byteTag crateExternals)) _ _
    (List.map greeting) (stringRuntime_marshals (fun _ _ => rfl) _ _) (hmarshals _) hargs houts rfl
    ⟨rfl, fun raws => greetCore_yields raws⟩ himpl
  rwa [himTypes, himOuts] at htransparent

end Marine.Loader
