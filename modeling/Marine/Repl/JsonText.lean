import Marine.Json.Value
import Marine.Lib.SortedMaps
import Marine.Lib.Words
import Mathlib.Data.String.Basic

/-!
# JSON texts

A JSON value as it is spelled in a command line of the REPL, and what becomes of
it when the line is cut at its white space and joined again.

* `Laid.collapse`: the tokens are found again, with the runs of white space in
  their string literals squeezed.
* `tokens_squeeze`: these are the tokens of the squeezed text.
-/

namespace Marine.Repl

open Texts (isWhite)
open Words (IsWord collapse)
open Marine.Json (JValue Number)

/-! ## String literals -/

def isDigit (c : Char) : Bool := '0'.toNat ≤ c.toNat && c.toNat ≤ '9'.toNat

def isHex (c : Char) : Bool :=
  isDigit c || ('a'.toNat ≤ c.toNat && c.toNat ≤ 'f'.toNat) ||
    ('A'.toNat ≤ c.toNat && c.toNat ≤ 'F'.toNat)

/-- The characters that may stand in a literal as they are. -/
def isLiteral (c : Char) : Bool := 0x20 ≤ c.toNat && c != '"' && c != '\\'

def hexValue (c : Char) : Nat :=
  if isDigit c then c.toNat - '0'.toNat
  else if c.toNat < 'a'.toNat then c.toNat - 'A'.toNat + 10
  else c.toNat - 'a'.toNat + 10

def codeUnit (digits : List Char) : Nat := digits.foldl (fun n c => 16 * n + hexValue c) 0

def letterEscape : Char → Option Char
  | '"' => some '"'
  | '\\' => some '\\'
  | '/' => some '/'
  | 'b' => some (Char.ofNat 0x8)
  | 'f' => some (Char.ofNat 0xC)
  | 'n' => some '\n'
  | 'r' => some '\r'
  | 't' => some '\t'
  | _ => none

/-- A code unit that is no surrogate. -/
def unitEscape (unit : Nat) : Option Char :=
  if unit < 0xD800 || 0xDFFF < unit then some (Char.ofNat unit) else none

def surrogateEscape (high low : Nat) : Option Char :=
  if 0xD800 ≤ high && high ≤ 0xDBFF && 0xDC00 ≤ low && low ≤ 0xDFFF then
    some (Char.ofNat (0x10000 + 0x400 * (high - 0xD800) + (low - 0xDC00)))
  else none

/-- The character of an escape. -/
def escaped : List Char → Option Char
  | ['\\', c] => letterEscape c
  | ['\\', 'u', a, b, c, d] =>
    if [a, b, c, d].all isHex then unitEscape (codeUnit [a, b, c, d]) else none
  | ['\\', 'u', a, b, c, d, '\\', 'u', a', b', c', d'] =>
    if [a, b, c, d, a', b', c', d'].all isHex then
      surrogateEscape (codeUnit [a, b, c, d]) (codeUnit [a', b', c', d'])
    else none
  | _ => none

/-- A character of a literal, as itself or by an escape. -/
inductive Piece
  | raw (c : Char) (h : isLiteral c = true)
  | escape (text : List Char) (c : Char) (h : escaped text = some c)

namespace Piece

def value : Piece → Char
  | raw c _ => c
  | escape _ c _ => c

def chars : Piece → List Char
  | raw c _ => [c]
  | escape text _ _ => text

/-- White space that is written as it is. -/
def isGap : Piece → Bool
  | raw c _ => isWhite c
  | escape _ _ _ => false

def blank : Piece := .raw ' ' (by decide)

end Piece

/-- The string a literal stands for. -/
def spelled (pieces : List Piece) : String := String.ofList (pieces.map Piece.value)

/-- One blank for each run of white space; `gap`: the run has its blank. -/
def squeezeFrom (gap : Bool) : List Piece → List Piece
  | [] => []
  | p :: ps =>
    if p.isGap then (if gap then squeezeFrom true ps else Piece.blank :: squeezeFrom true ps)
    else p :: squeezeFrom false ps

/-- Each run of white space is one blank already. -/
def plainFrom (gap : Bool) : List Piece → Bool
  | [] => true
  | p :: ps =>
    if p.isGap then !gap && p.value == ' ' && plainFrom true ps else plainFrom false ps

/-! ## Tokens -/

inductive Token
  | word (text : List Char) (h : IsWord text)
  | quoted (pieces : List Piece)

namespace Token

def chars : Token → List Char
  | word text _ => text
  | quoted pieces => '"' :: pieces.flatMap Piece.chars ++ ['"']

def squeeze : Token → Token
  | word text h => word text h
  | quoted pieces => quoted (squeezeFrom false pieces)

/-- A character that is a token by itself. -/
def mark (c : Char) (h : isWhite c = false) : Token :=
  .word [c] ⟨List.cons_ne_nil c [], by simpa using h⟩

end Token

def openArray : Token := .mark '[' (by decide)
def closeArray : Token := .mark ']' (by decide)
def openObject : Token := .mark '{' (by decide)
def closeObject : Token := .mark '}' (by decide)
def comma : Token := .mark ',' (by decide)
def colon : Token := .mark ':' (by decide)

def nullToken : Token := .word "null".toList (by decide)

def boolToken : Bool → Token
  | true => .word "true".toList (by decide)
  | false => .word "false".toList (by decide)

/-- The white space between tokens. -/
def jsonWhite (c : Char) : Bool := c == ' ' || c == '\n' || c == '\t' || c == '\r'

/-- Tokens with white space before each. -/
inductive Laid : List Token → List Char → Prop
  | nil : Laid [] []
  | cons {gap chars : List Char} {tokens : List Token} (token : Token) :
      (∀ c ∈ gap, jsonWhite c = true) → Laid tokens chars →
      Laid (token :: tokens) (gap ++ (token.chars ++ chars))

/-! ## Texts -/

def isNumeralChar (c : Char) : Bool := isDigit c || ['+', '-', '.', 'e', 'E'].contains c

/-- The characters of a number: a sign first or a digit. -/
def isNumeral : List Char → Bool
  | [] => false
  | '-' :: cs => cs.head?.any isDigit && cs.all isNumeralChar
  | c :: cs => isDigit c && cs.all isNumeralChar

theorem not_isWhite_of_isNumeralChar {c : Char} (h : isNumeralChar c = true) :
    isWhite c = false := by
  simp [isNumeralChar, isDigit] at h
  rcases h with ⟨hlo, hhi⟩ | rfl | rfl | rfl | rfl | rfl
  · simp [isWhite]
    omega
  all_goals rfl

theorem isWord_of_isNumeral {text : List Char} (h : isNumeral text = true) : IsWord text := by
  have hne : text ≠ [] := by
    intro hnil
    rw [hnil] at h
    cases h
  refine ⟨hne, fun c hc => not_isWhite_of_isNumeralChar ?_⟩
  unfold isNumeral at h
  split at h
  · cases h
  · rw [Bool.and_eq_true, List.all_eq_true] at h
    rcases List.mem_cons.mp hc with rfl | hc
    · decide
    · exact h.2 c hc
  · rw [Bool.and_eq_true, List.all_eq_true] at h
    rcases List.mem_cons.mp hc with rfl | hc
    · simp [isNumeralChar, h.1]
    · exact h.2 c hc

def numeralToken (text : List Char) (h : isNumeral text = true) : Token :=
  .word text (isWord_of_isNumeral h)

/-- A textual form of a JSON value.  The number of a numeral is the one that the reader gives. -/
inductive JsonText
  | null
  | bool (b : Bool)
  | number (text : List Char) (n : Number) (h : isNumeral text = true)
  | string (pieces : List Piece)
  | array (elements : List JsonText)
  | object (members : List (List Piece × JsonText))

namespace JsonText

mutual

/-- The value.  Of members with one name the last counts, and the map of an object is one
in the order of the names. -/
def value : JsonText → JValue
  | null => .null
  | bool b => .bool b
  | number _ n _ => .number n
  | string pieces => .string (spelled pieces)
  | array elements => .array (elementValues elements)
  | object members => .object (insertMembers [] members)

def elementValues : List JsonText → List JValue
  | [] => []
  | t :: ts => value t :: elementValues ts

def insertMembers (entries : List (String × JValue)) :
    List (List Piece × JsonText) → List (String × JValue)
  | [] => entries
  | (name, t) :: members =>
    insertMembers (SortedMaps.insert entries (spelled name) (value t)) members

end

mutual

def tokens : JsonText → List Token
  | null => [nullToken]
  | bool b => [boolToken b]
  | number text _ h => [numeralToken text h]
  | string pieces => [.quoted pieces]
  -- the first element has no comma before it
  | array elements => openArray :: (elementTokens elements).tail ++ [closeArray]
  | object members => openObject :: (memberTokens members).tail ++ [closeObject]

/-- The elements, with a comma before each. -/
def elementTokens : List JsonText → List Token
  | [] => []
  | t :: ts => comma :: tokens t ++ elementTokens ts

def memberTokens : List (List Piece × JsonText) → List Token
  | [] => []
  | (name, t) :: members => comma :: .quoted name :: colon :: tokens t ++ memberTokens members

end

/-! ## Squeezing -/

mutual

/-- The text with its string literals squeezed, the names of members among them. -/
def squeeze : JsonText → JsonText
  | string pieces => .string (squeezeFrom false pieces)
  | array elements => .array (squeezeElements elements)
  | object members => .object (squeezeMembers members)
  | t => t

def squeezeElements : List JsonText → List JsonText
  | [] => []
  | t :: ts => squeeze t :: squeezeElements ts

def squeezeMembers : List (List Piece × JsonText) → List (List Piece × JsonText)
  | [] => []
  | (name, t) :: members => (squeezeFrom false name, squeeze t) :: squeezeMembers members

end

mutual

/-- Each run of white space in a string literal is one blank. -/
def plain : JsonText → Bool
  | string pieces => plainFrom false pieces
  | array elements => plainElements elements
  | object members => plainMembers members
  | _ => true

def plainElements : List JsonText → Bool
  | [] => true
  | t :: ts => plain t && plainElements ts

def plainMembers : List (List Piece × JsonText) → Bool
  | [] => true
  | (name, t) :: members => plainFrom false name && plain t && plainMembers members

end

mutual

/-- The string literals of a text that are values, in their order. -/
def literals : JsonText → List (List Piece)
  | string pieces => [pieces]
  | array elements => elementLiterals elements
  | object members => memberLiterals members
  | _ => []

def elementLiterals : List JsonText → List (List Piece)
  | [] => []
  | t :: ts => literals t ++ elementLiterals ts

def memberLiterals : List (List Piece × JsonText) → List (List Piece)
  | [] => []
  | (_, t) :: members => literals t ++ memberLiterals members

end

/-- The last of the members whose names read as `name`; `nameOf` is how names are read. -/
def lastNamed (nameOf : List Piece → String) (name : String) :
    List (List Piece × JsonText) → Option JsonText
  | [] => none
  | (pieces, t) :: members =>
    (lastNamed nameOf name members).or (if nameOf pieces = name then some t else none)

/-- The names of members, as strings. -/
def names (members : List (List Piece × JsonText)) : List String :=
  members.map fun member => spelled member.1

mutual

/-- No object of the text has two members of one name. -/
def Distinct : JsonText → Prop
  | array elements => DistinctElements elements
  | object members => (names members).Nodup ∧ DistinctMembers members
  | _ => True

def DistinctElements : List JsonText → Prop
  | [] => True
  | t :: ts => Distinct t ∧ DistinctElements ts

def DistinctMembers : List (List Piece × JsonText) → Prop
  | [] => True
  | (_, t) :: members => Distinct t ∧ DistinctMembers members

end

end JsonText

/-! ## Cutting and joining the tokens -/

theorem isWhite_of_jsonWhite {c : Char} (h : jsonWhite c = true) : isWhite c = true := by
  simp [jsonWhite] at h
  rcases h with ((rfl | rfl) | rfl) | rfl
  all_goals decide

theorem not_isWhite_of_isHex {c : Char} (h : isHex c = true) : isWhite c = false := by
  simp [isHex, isDigit] at h
  simp [isWhite]
  omega

theorem isWord_of_escaped {text : List Char} {c : Char} (h : escaped text = some c) :
    IsWord text := by
  have hhex : ∀ digits : List Char, digits.all isHex = true →
      ∀ c ∈ digits, isWhite c = false :=
    fun digits hdigits c hc => not_isWhite_of_isHex (List.all_eq_true.mp hdigits c hc)
  unfold escaped at h
  split at h
  · unfold letterEscape at h
    split at h
    all_goals first | decide | cases h
  · split at h
    · next hunit =>
      have hdigits := hhex _ hunit
      simp at hdigits
      simp [IsWord, hdigits]
      decide
    · cases h
  · split at h
    · next hunits =>
      have hdigits := hhex _ hunits
      simp at hdigits
      simp [IsWord, hdigits]
      decide
    · cases h
  · cases h

theorem Piece.chars_gap {p : Piece} (h : p.isGap = true) :
    ∃ c, p.chars = [c] ∧ isWhite c = true := by
  cases p with
  | raw c _ => exact ⟨c, rfl, h⟩
  | escape text c _ => cases h

theorem Piece.chars_isWord {p : Piece} (h : p.isGap = false) : IsWord p.chars := by
  cases p with
  | raw c _ => exact ⟨List.cons_ne_nil c [], fun d hd => List.mem_singleton.mp hd ▸ h⟩
  | escape text c hescape => exact isWord_of_escaped hescape

/-- What becomes of the rest of a literal, in a word and after a run of white space. -/
theorem collapse_pieces (pieces : List Piece) :
    collapse .word (pieces.flatMap Piece.chars ++ ['"']) =
        (squeezeFrom false pieces).flatMap Piece.chars ++ ['"'] ∧
      collapse .gap (pieces.flatMap Piece.chars ++ ['"']) =
        ' ' :: (squeezeFrom true pieces).flatMap Piece.chars ++ ['"'] := by
  induction pieces with
  | nil => exact ⟨rfl, rfl⟩
  | cons p ps ih =>
    obtain ⟨hword, hgap⟩ := ih
    rw [List.flatMap_cons, List.append_assoc]
    cases hp : p.isGap with
    | true =>
      obtain ⟨c, hchars, hc⟩ := Piece.chars_gap hp
      rw [hchars, List.singleton_append, Words.collapse_cons_white hc,
        Words.collapse_cons_white hc]
      simp only [squeezeFrom, hp, if_true]
      exact ⟨hgap, hgap⟩
    | false =>
      have hdense := Piece.chars_isWord hp
      have hwrite : ∀ place, collapse place (p.chars ++ (ps.flatMap Piece.chars ++ ['"'])) =
          place.lead ++ (p.chars ++ ((squeezeFrom false ps).flatMap Piece.chars ++ ['"'])) := by
        intro place
        rw [Words.collapse_word_append hdense, hword]
      simp only [squeezeFrom, hp, hwrite]
      simp [Words.Place.lead]

theorem after_pieces (pieces : List Piece) (p : Words.Place) :
    p.after (pieces.flatMap Piece.chars ++ ['"']) = .word := by
  have hquote : isWhite '"' = false := by decide
  rw [Words.after_append, Words.Place.after_cons_dense hquote]
  rfl

theorem Token.chars_cons (token : Token) :
    ∃ c rest, token.chars = c :: rest ∧ isWhite c = false := by
  cases token with
  | word text h =>
    cases text with
    | nil => exact absurd rfl h.1
    | cons c rest => exact ⟨c, rest, rfl, h.2 c (List.mem_cons_self ..)⟩
  | quoted pieces => exact ⟨'"', _, rfl, by decide⟩

/-- **Token lemma.**  A pass over a token squeezes it. -/
theorem collapse_token (token : Token) (p : Words.Place) :
    collapse p token.chars = p.lead ++ token.squeeze.chars ∧ p.after token.chars = .word := by
  cases token with
  | word text h => exact Words.collapse_word h p
  | quoted pieces =>
    have hquote : isWhite '"' = false := by decide
    obtain ⟨hword, -⟩ := collapse_pieces pieces
    constructor
    · rw [Token.chars, List.cons_append, Words.collapse_cons_dense hquote, hword]
      rfl
    · rw [Token.chars, List.cons_append, Words.Place.after_cons_dense hquote, after_pieces]

theorem collapse_laid_cons {gap : List Char} (h : ∀ c ∈ gap, jsonWhite c = true) (token : Token)
    (chars : List Char) (p : Words.Place) :
    collapse p (gap ++ (token.chars ++ chars)) =
      (p.after gap).lead ++ (token.squeeze.chars ++ collapse .word chars) := by
  obtain ⟨hcollapse, hafter⟩ := collapse_token token (p.after gap)
  rw [Words.collapse_append, Words.collapse_white fun c hc => isWhite_of_jsonWhite (h c hc),
    List.nil_append, Words.collapse_append, hcollapse, hafter, List.append_assoc]

/-- **Tokens survive**, their literals squeezed. -/
theorem Laid.collapse {tokens : List Token} {chars : List Char} (h : Laid tokens chars)
    (p : Words.Place) : Laid (tokens.map Token.squeeze) (Words.collapse p chars) := by
  induction h generalizing p with
  | nil => exact .nil
  | @cons gap chars tokens token hgap _ ih =>
    have hlead : ∀ c ∈ (p.after gap).lead, jsonWhite c = true := by
      cases p.after gap with
      | gap => simp [Words.Place.lead, jsonWhite]
      | _ => simp [Words.Place.lead]
    rw [collapse_laid_cons hgap]
    exact .cons token.squeeze hlead (ih .word)

/-- The first token of a pass that is not in a word. -/
theorem Laid.collapse_cons {token : Token} {tokens : List Token} {chars : List Char}
    (h : Laid (token :: tokens) chars) {p : Words.Place} (hp : p.pause = p) :
    ∃ c rest, Words.collapse p chars = p.lead ++ c :: rest ∧ isWhite c = false ∧
      Laid ((token :: tokens).map Token.squeeze) (c :: rest) := by
  cases h with
  | @cons gap cs _ _ hgap hcs =>
    have hafter : p.after gap = p := by
      cases gap with
      | nil => rfl
      | cons c gap =>
        rw [Words.after_white (fun c hc => isWhite_of_jsonWhite (hgap c hc))
          (List.cons_ne_nil c gap), hp]
    obtain ⟨c, rest, hchars, hc⟩ := token.squeeze.chars_cons
    have hlaid : Laid ((token :: tokens).map Token.squeeze)
        ([] ++ (token.squeeze.chars ++ Words.collapse .word cs)) :=
      .cons token.squeeze (by simp) (hcs.collapse .word)
    refine ⟨c, rest ++ Words.collapse .word cs, ?_, hc, ?_⟩
    · rw [collapse_laid_cons hgap, hafter, hchars, List.cons_append]
    · rwa [List.nil_append, hchars, List.cons_append] at hlaid

theorem Laid.after {tokens : List Token} {chars : List Char} (h : Laid tokens chars)
    (hne : tokens ≠ []) (p : Words.Place) : p.after chars = .word := by
  induction h generalizing p with
  | nil => exact absurd rfl hne
  | @cons gap chars tokens token _ hchars ih =>
    rw [Words.after_append, Words.after_append, (collapse_token token _).2]
    cases hchars with
    | nil => rfl
    | cons _ _ _ => exact ih (by simp) .word

/-! ## The tokens of a squeezed text -/

namespace JsonText

mutual

theorem tokens_squeeze : (t : JsonText) → t.squeeze.tokens = t.tokens.map Token.squeeze
  | null => rfl
  | bool true => rfl
  | bool false => rfl
  | number _ _ _ => rfl
  | string _ => rfl
  | array elements => by
    rw [squeeze, tokens, tokens, elementTokens_squeeze elements, ← List.map_tail]
    simp
    exact ⟨rfl, rfl⟩
  | object members => by
    rw [squeeze, tokens, tokens, memberTokens_squeeze members, ← List.map_tail]
    simp
    exact ⟨rfl, rfl⟩

theorem elementTokens_squeeze : (elements : List JsonText) →
    elementTokens (squeezeElements elements) = (elementTokens elements).map Token.squeeze
  | [] => rfl
  | t :: ts => by
    rw [squeezeElements, elementTokens, elementTokens, tokens_squeeze t, elementTokens_squeeze ts]
    simp
    rfl

theorem memberTokens_squeeze : (members : List (List Piece × JsonText)) →
    memberTokens (squeezeMembers members) = (memberTokens members).map Token.squeeze
  | [] => rfl
  | (name, t) :: members => by
    rw [squeezeMembers, memberTokens, memberTokens, tokens_squeeze t,
      memberTokens_squeeze members]
    simp
    exact ⟨rfl, rfl, rfl⟩

end

/-- The first token of a text does not start like the option `-nr`. -/
theorem exists_tokens (t : JsonText) : ∃ token tokens, t.tokens = token :: tokens ∧
    ∀ more rest, token.chars ++ more ≠ '-' :: 'n' :: rest := by
  cases t with
  | null => exact ⟨nullToken, [], rfl, fun more rest h => by cases h⟩
  | bool b =>
    refine ⟨boolToken b, [], rfl, fun more rest h => ?_⟩
    cases b with
    | true => cases h
    | false => cases h
  | number text n hnum =>
    refine ⟨numeralToken text hnum, [], rfl, fun more rest h => ?_⟩
    have htext : text ++ more = '-' :: 'n' :: rest := h
    cases text with
    | nil => cases hnum
    | cons c cs =>
      obtain ⟨rfl, hcs⟩ := List.cons.inj htext
      cases cs with
      | nil => cases hnum
      | cons d ds =>
        obtain ⟨rfl, -⟩ := List.cons.inj hcs
        simp [isNumeral] at hnum
        exact absurd hnum.1 (by decide)
  | string pieces => exact ⟨.quoted pieces, [], rfl, fun more rest h => by cases h⟩
  | array elements => exact ⟨openArray, _, rfl, fun more rest h => by cases h⟩
  | object members => exact ⟨openObject, _, rfl, fun more rest h => by cases h⟩

theorem not_option {t : JsonText} {chars : List Char} (h : Laid t.tokens chars)
    (more rest : List Char) : chars ++ more ≠ '-' :: 'n' :: rest := by
  obtain ⟨token, tokens, htokens, hfirst⟩ := t.exists_tokens
  rw [htokens] at h
  cases h with
  | @cons gap cs _ _ hgap _ =>
    intro heq
    cases gap with
    | nil =>
      rw [List.nil_append, List.append_assoc] at heq
      exact hfirst (cs ++ more) rest heq
    | cons c gap =>
      obtain ⟨rfl, -⟩ := List.cons.inj heq
      exact absurd (hgap '-' (List.mem_cons_self ..)) (by decide)

end JsonText

end Marine.Repl
