import Marine.Runtime.Instance

/-!
# JSON values

`serde_json::Value` as the converters of `crates/it-json-serde` use it.  Maps
are association lists; no converter looks at the order of their entries.  The
conversions of floats, `from_value` and the `Debug` texts of third-party types
enter as `SerdeJson`, with what is documented of `from_value`.
-/

namespace Marine.Json

open Marine.Runtime

inductive Number
  | posInt (n : UInt64)
  | negInt (n : Int64)
  | float (bits : UInt64)
  deriving DecidableEq, Repr

inductive JValue
  | null
  | bool (b : Bool)
  | number (n : Number)
  | string (s : String)
  | array (values : List JValue)
  | object (entries : List (String × JValue))

/-- An error of the converters, or a panic. -/
inductive JsonFailure
  | error (e : ITJsonSeDeError)
  | panicked
  deriving DecidableEq, Repr

abbrev JsonResult (α : Type) := Except JsonFailure α

def Se {α : Type} (text : String) : JsonResult α := .error (.error (.se text))

def De {α : Type} (text : String) : JsonResult α := .error (.error (.de text))

/-! ## Numbers -/

namespace Number

/-- `From<i64>` and `From<u64>`. -/
def ofInt (i : Int) : Number :=
  if i < 0 then .negInt (Int64.ofInt i) else .posInt (UInt64.ofNat i.toNat)

def toInt? : Number → Option Int
  | .posInt n => some n.toNat
  | .negInt n => some n.toInt
  | .float _ => none

/-- The number as an integer between two bounds. -/
def intIn (lo hi : Int) (n : Number) : Option Int :=
  n.toInt?.filter fun i => lo ≤ i && i ≤ hi

theorem toInt?_ofInt {i : Int} (hlo : -2 ^ 63 ≤ i) (hhi : i < 2 ^ 64) :
    (ofInt i).toInt? = some i := by
  unfold ofInt
  by_cases hneg : i < 0
  · rw [if_pos hneg]
    show some (Int64.ofInt i).toInt = some i
    rw [Int64.toInt_ofInt_of_le hlo (by omega)]
  · rw [if_neg hneg]
    show some ((UInt64.ofNat i.toNat).toNat : Int) = some i
    rw [UInt64.toNat_ofNat_of_lt' (by show i.toNat < 2 ^ 64; omega)]
    congr 1
    omega

/-- **Integers survive** where they are in bounds. -/
theorem intIn_ofInt {lo hi i : Int} (hlo : lo ≤ i) (hhi : i ≤ hi) (hmin : -2 ^ 63 ≤ lo)
    (hmax : hi < 2 ^ 64) : (ofInt i).intIn lo hi = some i := by
  unfold intIn
  rw [toInt?_ofInt (by omega) (by omega)]
  simp [Option.filter, hlo, hhi]

end Number

/-! ## The crate -/

/-- The bounds of an integer type, and its values. -/
def intType : IType → Option (Int × Int × (Int → IValue))
  | .s8 => some (-2 ^ 7, 2 ^ 7 - 1, fun i => .s8 (Int8.ofInt i))
  | .s16 => some (-2 ^ 15, 2 ^ 15 - 1, fun i => .s16 (Int16.ofInt i))
  | .s32 => some (-2 ^ 31, 2 ^ 31 - 1, fun i => .s32 (Int32.ofInt i))
  | .s64 => some (-2 ^ 63, 2 ^ 63 - 1, fun i => .s64 (Int64.ofInt i))
  | .u8 => some (0, 2 ^ 8 - 1, fun i => .u8 (UInt8.ofNat i.toNat))
  | .u16 => some (0, 2 ^ 16 - 1, fun i => .u16 (UInt16.ofNat i.toNat))
  | .u32 => some (0, 2 ^ 32 - 1, fun i => .u32 (UInt32.ofNat i.toNat))
  | .u64 => some (0, 2 ^ 64 - 1, fun i => .u64 (UInt64.ofNat i.toNat))
  | .i32 => some (-2 ^ 31, 2 ^ 31 - 1, fun i => .i32 (Int32.ofInt i))
  | .i64 => some (-2 ^ 63, 2 ^ 63 - 1, fun i => .i64 (Int64.ofInt i))
  | _ => none

/-- What the converters use of `serde_json` beyond its values: floats, `from_value` at the
scalar types of Rust, and the texts of `Debug`.  Booleans and texts are taken as they are,
and numbers as integers between the bounds of the type. -/
structure SerdeJson where
  f32ToJson : UInt32 → JValue
  f64ToJson : UInt64 → JValue
  boolFromValue : JValue → Option Bool
  intFromValue (lo hi : Int) : JValue → Option Int
  f32FromValue : JValue → Option UInt32
  f64FromValue : JValue → Option UInt64
  stringFromValue : JValue → Option String
  fromValueError : IType → JValue → String
  debugJson : JValue → String
  debugArgs : List FunctionArg → String
  debugType : IType → String
  debugTypes : List IType → String
  debugFields : List IRecordFieldType → String
  debugValue : IValue → String
  debugValues : List IValue → String
  boolFromValue_bool : ∀ b, boolFromValue (.bool b) = some b
  intFromValue_number : ∀ lo hi n, intFromValue lo hi (.number n) = n.intIn lo hi
  stringFromValue_string : ∀ s, stringFromValue (.string s) = some s

namespace SerdeJson

/-- `serde_json::from_value` at the type of the interface value that is made of it. -/
def fromValue (serde : SerdeJson) (ty : IType) (j : JValue) : Option IValue :=
  match ty with
  | .boolean => (serde.boolFromValue j).map .boolean
  | .f32 => (serde.f32FromValue j).map .f32
  | .f64 => (serde.f64FromValue j).map .f64
  | .string => (serde.stringFromValue j).map .string
  | ty => (intType ty).bind fun (lo, hi, make) => (serde.intFromValue lo hi j).map make

variable {serde : SerdeJson}

theorem fromValue_boolean (b : Bool) : serde.fromValue .boolean (.bool b) = some (.boolean b) := by
  simp [fromValue, serde.boolFromValue_bool]

theorem fromValue_string (s : String) :
    serde.fromValue .string (.string s) = some (.string s) := by
  simp [fromValue, serde.stringFromValue_string]

theorem fromValue_int {ty : IType} {lo hi : Int} {make : Int → IValue}
    (h : intType ty = some (lo, hi, make)) (n : Number) :
    serde.fromValue ty (.number n) = (n.intIn lo hi).map make := by
  rw [← serde.intFromValue_number]
  cases ty <;> cases h <;> rfl

end SerdeJson

/-! ## Maps -/

/-- `Map::insert`. -/
def insertEntry (entries : List (String × JValue)) (key : String) (value : JValue) :
    List (String × JValue) :=
  match entries with
  | [] => [(key, value)]
  | (key', value') :: rest =>
    if key' = key then (key', value) :: rest else (key', value') :: insertEntry rest key value

theorem insertEntry_new {entries : List (String × JValue)} {key : String}
    (h : key ∉ entries.map Prod.fst) (value : JValue) :
    insertEntry entries key value = entries ++ [(key, value)] := by
  induction entries with
  | nil => rfl
  | cons p entries ih =>
    obtain ⟨key', value'⟩ := p
    simp only [List.map_cons, List.mem_cons, not_or] at h
    rw [insertEntry, if_neg (Ne.symm h.1), ih h.2, List.cons_append]

/-- `Map::remove`: the value, and what is left. -/
def removeEntry (entries : List (String × JValue)) (key : String) :
    Option (JValue × List (String × JValue)) :=
  match entries with
  | [] => none
  | (key', value) :: rest =>
    if key' = key then some (value, rest)
    else (removeEntry rest key).map fun p => (p.1, (key', value) :: p.2)

theorem removeEntry_sizeOf {entries rest : List (String × JValue)} {key : String} {value : JValue}
    (h : removeEntry entries key = some (value, rest)) :
    sizeOf value < sizeOf entries ∧ sizeOf rest < sizeOf entries := by
  induction entries generalizing rest with
  | nil => cases h
  | cons p entries ih =>
    obtain ⟨key', value'⟩ := p
    unfold removeEntry at h
    by_cases hkey : key' = key
    · rw [if_pos hkey] at h
      cases h
      simp
      omega
    · rw [if_neg hkey] at h
      obtain ⟨⟨v, r⟩, hrest, heq⟩ := Option.map_eq_some_iff.mp h
      simp only [Prod.mk.injEq] at heq
      obtain ⟨rfl, rfl⟩ := heq
      obtain ⟨hvalue, hr⟩ := ih hrest
      simp
      omega

theorem removeEntry_mem {entries rest : List (String × JValue)} {key : String} {value : JValue}
    (h : removeEntry entries key = some (value, rest)) :
    (key, value) ∈ entries ∧ ∀ p ∈ rest, p ∈ entries := by
  induction entries generalizing rest with
  | nil => cases h
  | cons p entries ih =>
    obtain ⟨key', value'⟩ := p
    unfold removeEntry at h
    by_cases hkey : key' = key
    · rw [if_pos hkey] at h
      cases h
      subst hkey
      exact ⟨List.mem_cons_self .., fun q hq => List.mem_cons_of_mem _ hq⟩
    · rw [if_neg hkey] at h
      obtain ⟨⟨v, r⟩, hrest, heq⟩ := Option.map_eq_some_iff.mp h
      cases heq
      obtain ⟨hvalue, hr⟩ := ih hrest
      refine ⟨List.mem_cons_of_mem _ hvalue, fun q hq => ?_⟩
      rcases List.mem_cons.mp hq with rfl | hq
      · exact List.mem_cons_self ..
      · exact List.mem_cons_of_mem _ (hr q hq)

end Marine.Json
