import Marine.Repl.JsonText
import Mathlib.Data.List.Forall2

/-!
# What squeezing changes

Squeezing the string literals of a text never makes its value heavier, a blank
being the lightest character, and makes it lighter where it changes a literal.

* `squeeze_of_plain`: a text whose runs of white space are single blanks stays as
  it is.
* `plain_of_value_squeeze`: any other text, unless a member of an object hides
  another of its name, gets another value.
* `kept_iff`: the texts that keep their value.
-/

namespace Marine.Repl

open Marine.Json

/-! ## Literals -/

theorem squeezeFrom_of_plain {gap : Bool} {pieces : List Piece}
    (h : plainFrom gap pieces = true) : squeezeFrom gap pieces = pieces := by
  induction pieces generalizing gap with
  | nil => rfl
  | cons p ps ih =>
    unfold plainFrom at h
    cases hp : p.isGap with
    | true =>
      simp only [hp, if_true, Bool.and_eq_true, Bool.not_eq_true', beq_iff_eq] at h
      obtain ⟨⟨rfl, hvalue⟩, hps⟩ := h
      have hblank : Piece.blank = p := by
        cases p with
        | raw c _ =>
          have hc : c = ' ' := hvalue
          subst hc
          rfl
        | escape _ _ _ => cases hp
      simp [squeezeFrom, hp, ih hps, hblank]
    | false =>
      simp only [hp, Bool.false_eq_true, if_false] at h
      simp [squeezeFrom, hp, ih h]

def charWeight (c : Char) : Nat := if c = ' ' then 1 else 2

def stringWeight (s : String) : Nat := (s.toList.map charWeight).sum

def piecesWeight : List Piece → Nat
  | [] => 0
  | p :: ps => charWeight p.value + piecesWeight ps

theorem stringWeight_spelled (pieces : List Piece) :
    stringWeight (spelled pieces) = piecesWeight pieces := by
  rw [stringWeight, spelled, String.toList_ofList]
  induction pieces with
  | nil => rfl
  | cons p ps ih => simpa [piecesWeight] using ih

/-- What a text loses at least. -/
def loss (isPlain : Bool) : Nat := if isPlain then 0 else 1

theorem loss_and_le (a b : Bool) : loss (a && b) ≤ loss a + loss b := by
  cases a with
  | true => simp
  | false => simp [loss]

theorem squeezeFrom_weight (gap : Bool) (pieces : List Piece) :
    piecesWeight (squeezeFrom gap pieces) + loss (plainFrom gap pieces) ≤
      piecesWeight pieces := by
  induction pieces generalizing gap with
  | nil => exact Nat.le_refl _
  | cons p ps ih =>
    cases hp : p.isGap with
    | true =>
      have hps := ih true
      cases gap with
      | true =>
        have hpos : 0 < charWeight p.value := by
          unfold charWeight
          split <;> omega
        simp only [squeezeFrom, plainFrom, hp, piecesWeight, if_true, Bool.not_true,
          Bool.false_and, loss, Bool.false_eq_true, if_false]
        omega
      | false =>
        have hblank : charWeight Piece.blank.value = 1 := rfl
        simp only [squeezeFrom, plainFrom, hp, piecesWeight, if_true, hblank, Bool.not_false,
          Bool.true_and, Bool.false_eq_true, if_false]
        by_cases hvalue : p.value = ' '
        · simp only [hvalue, beq_self_eq_true, Bool.true_and, charWeight, if_true]
          omega
        · simp only [beq_eq_false_iff_ne.mpr hvalue, Bool.false_and, charWeight, hvalue, loss,
            Bool.false_eq_true, if_false]
          omega
    | false =>
      have hps := ih false
      simp only [squeezeFrom, plainFrom, hp, piecesWeight, Bool.false_eq_true, if_false]
      omega

theorem plainFrom_of_spelled_squeezeFrom {pieces : List Piece}
    (h : spelled (squeezeFrom false pieces) = spelled pieces) : plainFrom false pieces = true := by
  have hsqueeze := squeezeFrom_weight false pieces
  have hweight : piecesWeight (squeezeFrom false pieces) = piecesWeight pieces := by
    rw [← stringWeight_spelled, h, stringWeight_spelled]
  cases hplain : plainFrom false pieces with
  | true => rfl
  | false =>
    have hloss : loss (plainFrom false pieces) = 1 := by rw [hplain]; rfl
    omega

/-! ## Values -/

mutual

/-- The weight of the strings in a value, the keys of objects among them. -/
def valueWeight : JValue → Nat
  | .string s => stringWeight s
  | .array values => valuesWeight values
  | .object entries => entriesWeight entries
  | _ => 0

def valuesWeight : List JValue → Nat
  | [] => 0
  | value :: values => valueWeight value + valuesWeight values

def entriesWeight : List (String × JValue) → Nat
  | [] => 0
  | (key, value) :: entries => stringWeight key + valueWeight value + entriesWeight entries

end

theorem entriesWeight_perm {entries entries' : List (String × JValue)}
    (h : entries.Perm entries') : entriesWeight entries = entriesWeight entries' := by
  induction h with
  | nil => rfl
  | cons p _ ih => rw [entriesWeight, entriesWeight, ih]
  | swap p q entries =>
    simp only [entriesWeight]
    omega
  | trans _ _ ih ih' => exact ih.trans ih'

theorem insert_weight_le (entries : List (String × JValue)) (key : String) (value : JValue) :
    entriesWeight (SortedMaps.insert entries key value) ≤
      entriesWeight entries + (stringWeight key + valueWeight value) := by
  induction entries with
  | nil => simp [SortedMaps.insert, entriesWeight]
  | cons p entries ih =>
    obtain ⟨key', value'⟩ := p
    unfold SortedMaps.insert
    split_ifs with hlt heq
    · simp only [entriesWeight]
      omega
    · simp only [entriesWeight]
      omega
    · simp only [entriesWeight]
      omega

namespace JsonText

mutual

/-- The weight of the literals in a text. -/
def weight : JsonText → Nat
  | string pieces => piecesWeight pieces
  | array elements => elementsWeight elements
  | object members => membersWeight members
  | _ => 0

def elementsWeight : List JsonText → Nat
  | [] => 0
  | t :: ts => weight t + elementsWeight ts

def membersWeight : List (List Piece × JsonText) → Nat
  | [] => 0
  | (name, t) :: members => piecesWeight name + weight t + membersWeight members

end

mutual

/-- A value weighs at most what its text does. -/
theorem valueWeight_le : (t : JsonText) → valueWeight t.value ≤ t.weight
  | null => Nat.le_refl _
  | bool _ => Nat.le_refl _
  | number _ _ _ => Nat.le_refl _
  | string pieces => Nat.le_of_eq (stringWeight_spelled pieces)
  | array elements => valuesWeight_le elements
  | object members => by
    have hmembers := insertMembers_weight_le [] members
    simpa [value, weight, valueWeight, entriesWeight] using hmembers

theorem valuesWeight_le : (elements : List JsonText) →
    valuesWeight (elementValues elements) ≤ elementsWeight elements
  | [] => Nat.le_refl _
  | t :: ts => by
    have ht := valueWeight_le t
    have hts := valuesWeight_le ts
    simp only [elementValues, valuesWeight, elementsWeight]
    omega

theorem insertMembers_weight_le (entries : List (String × JValue)) :
    (members : List (List Piece × JsonText)) →
    entriesWeight (insertMembers entries members) ≤ entriesWeight entries + membersWeight members
  | [] => Nat.le_refl _
  | (name, t) :: members => by
    have ht := valueWeight_le t
    have hmembers := insertMembers_weight_le
      (SortedMaps.insert entries (spelled name) (value t)) members
    have hinsert := insert_weight_le entries (spelled name) (value t)
    rw [stringWeight_spelled] at hinsert
    simp only [insertMembers, membersWeight]
    omega

end

mutual

/-- It weighs as much where no member hides another. -/
theorem valueWeight_eq : (t : JsonText) → t.Distinct → valueWeight t.value = t.weight
  | null, _ => rfl
  | bool _, _ => rfl
  | number _ _ _, _ => rfl
  | string pieces, _ => stringWeight_spelled pieces
  | array elements, h => valuesWeight_eq elements h
  | object members, h => by
    have hmembers := insertMembers_weight_eq [] members h.1 (by simp) h.2
    simpa [value, weight, valueWeight, entriesWeight] using hmembers

theorem valuesWeight_eq : (elements : List JsonText) → DistinctElements elements →
    valuesWeight (elementValues elements) = elementsWeight elements
  | [], _ => rfl
  | t :: ts, h => by
    have ht := valueWeight_eq t h.1
    have hts := valuesWeight_eq ts h.2
    simp only [elementValues, valuesWeight, elementsWeight]
    omega

theorem insertMembers_weight_eq (entries : List (String × JValue)) :
    (members : List (List Piece × JsonText)) → (names members).Nodup →
    (∀ name ∈ names members, name ∉ entries.map Prod.fst) → DistinctMembers members →
    entriesWeight (insertMembers entries members) = entriesWeight entries + membersWeight members
  | [], _, _, _ => rfl
  | (name, t) :: members, hnodup, hfresh, h => by
    have ht := valueWeight_eq t h.1
    rw [names, List.map_cons, List.nodup_cons] at hnodup
    have hnew : spelled name ∉ entries.map Prod.fst := hfresh _ (List.mem_cons_self ..)
    have hinsert := SortedMaps.insert_perm hnew (value t)
    have hfresh' : ∀ name' ∈ names members,
        name' ∉ (SortedMaps.insert entries (spelled name) (value t)).map Prod.fst := by
      intro name' hname'
      have hold := hfresh name' (List.mem_cons_of_mem _ hname')
      have hother : name' ≠ spelled name := fun heq => hnodup.1 (heq ▸ hname')
      rw [(hinsert.map Prod.fst).mem_iff, List.map_cons, List.mem_cons]
      exact fun hmem => hmem.elim hother hold
    have hmembers := insertMembers_weight_eq _ members hnodup.2 hfresh' h.2
    rw [entriesWeight_perm hinsert] at hmembers
    simp only [entriesWeight, stringWeight_spelled] at hmembers
    simp only [insertMembers, membersWeight]
    omega

end

/-! ## Texts -/

mutual

/-- **Squeezing lightens** every text but a plain one. -/
theorem squeeze_weight : (t : JsonText) → t.squeeze.weight + loss t.plain ≤ t.weight
  | null => Nat.le_refl _
  | bool _ => Nat.le_refl _
  | number _ _ _ => Nat.le_refl _
  | string pieces => squeezeFrom_weight false pieces
  | array elements => squeezeElements_weight elements
  | object members => squeezeMembers_weight members

theorem squeezeElements_weight : (elements : List JsonText) →
    elementsWeight (squeezeElements elements) + loss (plainElements elements) ≤
      elementsWeight elements
  | [] => Nat.le_refl _
  | t :: ts => by
    have ht := squeeze_weight t
    have hts := squeezeElements_weight ts
    have hloss := loss_and_le t.plain (plainElements ts)
    simp only [squeezeElements, plainElements, elementsWeight]
    omega

theorem squeezeMembers_weight : (members : List (List Piece × JsonText)) →
    membersWeight (squeezeMembers members) + loss (plainMembers members) ≤ membersWeight members
  | [] => Nat.le_refl _
  | (name, t) :: members => by
    have hname := squeezeFrom_weight false name
    have ht := squeeze_weight t
    have hmembers := squeezeMembers_weight members
    have hmember := loss_and_le (plainFrom false name) t.plain
    have hloss := loss_and_le (plainFrom false name && t.plain) (plainMembers members)
    simp only [squeezeMembers, plainMembers, membersWeight]
    omega

end

mutual

/-- A plain text stays as it is. -/
theorem squeeze_of_plain : (t : JsonText) → t.plain = true → t.squeeze = t
  | null, _ => rfl
  | bool _, _ => rfl
  | number _ _ _, _ => rfl
  | string _, h => congrArg string (squeezeFrom_of_plain h)
  | array elements, h => congrArg array (squeezeElements_of_plain elements h)
  | object members, h => congrArg object (squeezeMembers_of_plain members h)

theorem squeezeElements_of_plain : (elements : List JsonText) →
    plainElements elements = true → squeezeElements elements = elements
  | [], _ => rfl
  | t :: ts, h => by
    rw [plainElements, Bool.and_eq_true] at h
    rw [squeezeElements, squeeze_of_plain t h.1, squeezeElements_of_plain ts h.2]

theorem squeezeMembers_of_plain : (members : List (List Piece × JsonText)) →
    plainMembers members = true → squeezeMembers members = members
  | [], _ => rfl
  | (name, t) :: members, h => by
    rw [plainMembers, Bool.and_eq_true, Bool.and_eq_true] at h
    obtain ⟨⟨hname, ht⟩, hmembers⟩ := h
    rw [squeezeMembers, squeezeFrom_of_plain hname, squeeze_of_plain t ht,
      squeezeMembers_of_plain members hmembers]

end

/-- **Only plain texts keep their value**, where no member hides another. -/
theorem plain_of_value_squeeze {t : JsonText} (ht : t.Distinct)
    (h : t.squeeze.value = t.value) : t.plain = true := by
  have hweight : t.weight ≤ t.squeeze.weight := by
    calc t.weight = valueWeight t.value := (valueWeight_eq t ht).symm
      _ = valueWeight t.squeeze.value := by rw [h]
      _ ≤ t.squeeze.weight := valueWeight_le t.squeeze
  have hsqueeze := squeeze_weight t
  cases hplain : t.plain with
  | true => rfl
  | false =>
    have hloss : loss t.plain = 1 := by rw [hplain]; rfl
    omega

/-! ## Texts in which members hide others -/

/-- What a literal stands for when it is squeezed. -/
def squeezedString (pieces : List Piece) : String := spelled (squeezeFrom false pieces)

/-- **The squeezed text `t'` has the value of `t`**: literals are squeezed to the same string,
and of the members of an object with one name, before squeezing and after it, the last ones
agree. -/
inductive Kept : JsonText → JsonText → Prop
  | null : Kept null null
  | bool (b : Bool) : Kept (bool b) (bool b)
  | number (n : Number) {text text' : List Char} {h : isNumeral text = true}
      {h' : isNumeral text' = true} : Kept (number text' n h') (number text n h)
  | string {pieces pieces' : List Piece} (same : squeezedString pieces' = spelled pieces) :
      Kept (string pieces') (string pieces)
  | array {elements elements' : List JsonText} (each : List.Forall₂ Kept elements' elements) :
      Kept (array elements') (array elements)
  | object {members members' : List (List Piece × JsonText)}
      (last : ∀ name, Option.Rel Kept (lastNamed squeezedString name members')
        (lastNamed spelled name members)) :
      Kept (object members') (object members)

theorem elementValues_eq (elements : List JsonText) :
    elementValues elements = elements.map value := by
  induction elements with
  | nil => rfl
  | cons t ts ih => rw [elementValues, ih, List.map_cons]

theorem squeezeElements_eq (elements : List JsonText) :
    squeezeElements elements = elements.map squeeze := by
  induction elements with
  | nil => rfl
  | cons t ts ih => rw [squeezeElements, ih, List.map_cons]

theorem sorted_insertMembers {entries : List (String × JValue)}
    (h : SortedMaps.Sorted entries) (members : List (List Piece × JsonText)) :
    SortedMaps.Sorted (insertMembers entries members) := by
  induction members generalizing entries with
  | nil => exact h
  | cons member members ih => exact ih (SortedMaps.sorted_insert h _ _)

/-- What is found in the map of an object: the last member of the name. -/
theorem lookup_insertMembers (entries : List (String × JValue)) (name : String)
    (members : List (List Piece × JsonText)) :
    (insertMembers entries members).lookup name =
      ((lastNamed spelled name members).map value).or (entries.lookup name) := by
  induction members generalizing entries with
  | nil => rfl
  | cons member members ih =>
    obtain ⟨pieces, t⟩ := member
    rw [insertMembers, ih, lastNamed, SortedMaps.lookup_insert]
    cases lastNamed spelled name members with
    | some last => rfl
    | none =>
      by_cases hname : name = spelled pieces
      · simp [hname]
      · simp [hname, Ne.symm hname]

theorem lastNamed_squeezeMembers (name : String) (members : List (List Piece × JsonText)) :
    lastNamed spelled name (squeezeMembers members) =
      (lastNamed squeezedString name members).map squeeze := by
  induction members with
  | nil => rfl
  | cons member members ih =>
    obtain ⟨pieces, t⟩ := member
    rw [squeezeMembers, lastNamed, lastNamed, ih, Option.map_or, squeezedString]
    split_ifs <;> rfl

theorem mem_of_lastNamed {nameOf : List Piece → String} {name : String} {t : JsonText}
    {members : List (List Piece × JsonText)} (h : lastNamed nameOf name members = some t) :
    ∃ pieces, (pieces, t) ∈ members := by
  induction members with
  | nil => cases h
  | cons member members ih =>
    obtain ⟨pieces, t'⟩ := member
    rw [lastNamed, Option.or_eq_some_iff] at h
    rcases h with h | ⟨-, h⟩
    · obtain ⟨pieces', hmem⟩ := ih h
      exact ⟨pieces', List.mem_cons_of_mem _ hmem⟩
    · rw [Option.ite_none_right_eq_some] at h
      cases h.2
      exact ⟨pieces, List.mem_cons_self⟩

/-- The maps of two objects agree where the last members of each name do. -/
theorem value_object_eq_iff {members members' : List (List Piece × JsonText)} :
    (object members').squeeze.value = (object members).value ↔ ∀ name,
      (lastNamed squeezedString name members').map (fun t => t.squeeze.value) =
        (lastNamed spelled name members).map value := by
  have hlookup : ∀ name, (insertMembers [] (squeezeMembers members')).lookup name =
      (lastNamed squeezedString name members').map fun t => t.squeeze.value := by
    intro name
    rw [lookup_insertMembers, lastNamed_squeezeMembers, Option.map_map]
    simp [Function.comp_def]
  have hlookup' : ∀ name, (insertMembers [] members).lookup name =
      (lastNamed spelled name members).map value := by
    intro name
    rw [lookup_insertMembers]
    simp
  rw [squeeze, value, value, JValue.object.injEq]
  constructor
  · intro h name
    rw [← hlookup, ← hlookup', h]
  · intro h
    refine SortedMaps.eq_of_lookup_eq (sorted_insertMembers .nil _) (sorted_insertMembers .nil _)
      fun name => ?_
    rw [hlookup, hlookup', h]

theorem kept_array_iff {elements elements' : List JsonText}
    (ih : ∀ t' ∈ elements', ∀ t, Kept t' t ↔ t'.squeeze.value = t.value) :
    Kept (array elements') (array elements) ↔
      (array elements').squeeze.value = (array elements).value := by
  have hvalues : (array elements').squeeze.value = (array elements).value ↔
      List.Forall₂ (fun t' t => t'.squeeze.value = t.value) elements' elements := by
    rw [squeeze, value, value, JValue.array.injEq, squeezeElements_eq, elementValues_eq,
      elementValues_eq, List.map_map, ← List.forall₂_eq_eq_eq, List.forall₂_map_left_iff,
      List.forall₂_map_right_iff]
    rfl
  have heach : List.Forall₂ Kept elements' elements ↔
      List.Forall₂ (fun t' t => t'.squeeze.value = t.value) elements' elements := by
    rw [List.forall₂_iff_zip, List.forall₂_iff_zip]
    refine and_congr_right fun _ => forall₂_congr fun t' t => ?_
    exact forall_congr' fun hmem => ih t' (List.of_mem_zip hmem).1 t
  rw [hvalues, ← heach]
  constructor
  · intro h
    cases h with
    | array each => exact each
  · exact .array

theorem kept_object_iff {members members' : List (List Piece × JsonText)}
    (ih : ∀ member ∈ members', ∀ t, Kept member.2 t ↔ member.2.squeeze.value = t.value) :
    Kept (object members') (object members) ↔
      (object members').squeeze.value = (object members).value := by
  have hlast : Kept (object members') (object members) ↔ ∀ name, Option.Rel Kept
      (lastNamed squeezedString name members') (lastNamed spelled name members) := by
    constructor
    · intro h
      cases h with
      | object last => exact last
    · exact .object
  rw [hlast, value_object_eq_iff]
  refine forall_congr' fun name => ?_
  cases hmember : lastNamed squeezedString name members' with
  | none =>
    cases lastNamed spelled name members with
    | none => exact iff_of_true .none rfl
    | some t => exact iff_of_false (fun h => by cases h) (fun h => by cases h)
  | some t' =>
    obtain ⟨pieces, hmem⟩ := mem_of_lastNamed hmember
    cases lastNamed spelled name members with
    | none => exact iff_of_false (fun h => by cases h) (fun h => by cases h)
    | some t =>
      rw [Option.map_some, Option.map_some, Option.some.injEq, ← ih _ hmem t]
      constructor
      · intro h
        cases h with
        | some h => exact h
      · exact .some

theorem sizeOf_lt_array {t : JsonText} {elements : List JsonText} (h : t ∈ elements) :
    sizeOf t < sizeOf (array elements) := by
  have hmem := List.sizeOf_lt_of_mem h
  rw [array.sizeOf_spec]
  omega

theorem sizeOf_lt_object {member : List Piece × JsonText}
    {members : List (List Piece × JsonText)} (h : member ∈ members) :
    sizeOf member.2 < sizeOf (object members) := by
  have hmem := List.sizeOf_lt_of_mem h
  rw [Prod.mk.sizeOf_spec] at hmem
  rw [object.sizeOf_spec]
  omega

/-- **Exactly these texts keep their value.** -/
theorem kept_iff (t' t : JsonText) : Kept t' t ↔ t'.squeeze.value = t.value := by
  match t' with
  | null =>
    cases t with
    | null => exact iff_of_true .null rfl
    | _ => exact iff_of_false (fun h => by cases h) (fun h => by cases h)
  | bool b' =>
    cases t with
    | bool b =>
      constructor
      · intro h
        cases h
        rfl
      · intro h
        cases h
        exact .bool _
    | _ => exact iff_of_false (fun h => by cases h) (fun h => by cases h)
  | number text' n' _ =>
    cases t with
    | number text n _ =>
      constructor
      · intro h
        cases h
        rfl
      · intro h
        cases h
        exact .number _
    | _ => exact iff_of_false (fun h => by cases h) (fun h => by cases h)
  | string pieces' =>
    cases t with
    | string pieces =>
      constructor
      · intro h
        cases h with
        | string same => exact congrArg JValue.string same
      · intro h
        exact .string (JValue.string.inj h)
    | _ => exact iff_of_false (fun h => by cases h) (fun h => by cases h)
  | array elements' =>
    cases t with
    | array elements => exact kept_array_iff fun t' _ t => kept_iff t' t
    | _ => exact iff_of_false (fun h => by cases h) (fun h => by cases h)
  | object members' =>
    cases t with
    | object members => exact kept_object_iff fun member _ t => kept_iff member.2 t
    | _ => exact iff_of_false (fun h => by cases h) (fun h => by cases h)
termination_by sizeOf t'
decreasing_by
  · exact sizeOf_lt_array ‹_›
  · exact sizeOf_lt_object ‹_›

/-- The two blanks in a member that another one hides do not matter. -/
example : let t := object [([.raw 'a' rfl], .string [.raw ' ' rfl, .raw ' ' rfl]),
      ([.raw 'a' rfl], null)]
    t.plain = false ∧ t.Kept t :=
  ⟨rfl, (kept_iff _ _).mpr rfl⟩

/-- A plain text keeps its value; where no member hides another, no other text does. -/
theorem kept_of_plain {t : JsonText} (h : t.plain = true) : Kept t t := by
  rw [kept_iff, squeeze_of_plain t h]

theorem plain_of_kept {t : JsonText} (ht : t.Distinct) (h : Kept t t) : t.plain = true :=
  plain_of_value_squeeze ht ((kept_iff t t).mp h)

end JsonText

end Marine.Repl
