import Marine.Lib.Fallible
import Marine.Repl.CallArguments
import Marine.Repl.Squeezing
import Mathlib.Data.List.TakeWhile

/-!
# Lines of calls

* `joined_text`: the text that is read of a line.
* `execute_text`: what a line passes on.
* `passedUnchanged_plain`: when it is what was given, as where the white space in
  string literals is single blanks.
-/

namespace Marine.Repl

open Texts (isWhite)
open Words (IsWord words)
open Marine.Json (JValue)

variable {SecurityTetraplet : Type}

/-! ## Texts on a line -/

/-- A text of a JSON value, with white space around it and between its tokens. -/
def Spells (t : JsonText) (text : String) : Prop :=
  ∃ chars trail, text.toList = chars ++ trail ∧ Laid t.tokens chars ∧
    ∀ c ∈ trail, jsonWhite c = true

/-- The reader takes a document from its tokens, however they are laid out, and leaves what
comes after white space. -/
def Reads {α : Type} (read : List Char → Except String (α × List Char)) (tokens : List Token)
    (a : α) : Prop :=
  ∀ chars, Laid tokens chars → ∀ rest : List Char, (∀ c ∈ rest.head?, jsonWhite c = true) →
    read (chars ++ rest) = .ok (a, rest)

theorem CallParameters.ofPartial_injective {p p' : PartialCallParameters SecurityTetraplet}
    (h : CallParameters.ofPartial p = CallParameters.ofPartial p') : p = p' := by
  obtain ⟨⟨⟩⟩ := p
  obtain ⟨⟨⟩⟩ := p'
  simpa [CallParameters.ofPartial] using h

/-- Call parameters as they are given on a line.  Their string fields take some literals of the
text; nothing else of them depends on the contents of literals. -/
structure GivenParameters (de : Deserializer SecurityTetraplet) where
  text : String
  json : JsonText
  spells : Spells json text
  taken : List (List Piece)
  sublist : taken.Sublist json.literals
  make : List String → PartialCallParameters SecurityTetraplet
  make_injective : ∀ {strings strings' : List String}, strings.length = taken.length →
    strings'.length = taken.length → make strings = make strings' → strings = strings'
  reads : Reads de.partialCallParameters json.tokens (make (taken.map spelled))
  reads_squeezed : Reads de.partialCallParameters json.squeeze.tokens
    (make (taken.map fun pieces => spelled (squeezeFrom false pieces)))

namespace GivenParameters

variable {de : Deserializer SecurityTetraplet}

/-- The parameters as they are given. -/
def parameters (given : GivenParameters de) : CallParameters SecurityTetraplet :=
  .ofPartial (given.make (given.taken.map spelled))

def squeezed (given : GivenParameters de) : CallParameters SecurityTetraplet :=
  .ofPartial (given.make (given.taken.map fun pieces => spelled (squeezeFrom false pieces)))

/-- Each run of white space in a literal that is taken is one blank. -/
def plain (given : GivenParameters de) : Bool := given.taken.all (plainFrom false)

theorem squeezed_eq_iff {given : GivenParameters de} :
    given.squeezed = given.parameters ↔ given.plain = true := by
  unfold plain
  rw [List.all_eq_true]
  constructor
  · intro h pieces hpieces
    have hstrings := given.make_injective (by simp) (by simp)
      (CallParameters.ofPartial_injective h)
    exact plainFrom_of_spelled_squeezeFrom (List.map_inj_left.mp hstrings pieces hpieces)
  · intro h
    have hstrings : (given.taken.map fun pieces => spelled (squeezeFrom false pieces)) =
        given.taken.map spelled :=
      List.map_congr_left fun pieces hpieces => by rw [squeezeFrom_of_plain (h pieces hpieces)]
    rw [squeezed, parameters, hstrings]

end GivenParameters

/-- `call <module> <func> [-nr] <args> [call_params]`. -/
def callLine (moduleName funcName : String) (showResult : Bool) (texts : List String) : String :=
  " ".intercalate
    (["call", moduleName, funcName] ++ (if showResult then [] else ["-nr"]) ++ texts)

theorem Spells.collapse {t : JsonText} {text : String} (h : Spells t text) {p : Words.Place}
    (hp : p.pause = p) : ∃ c body, Words.collapse p text.toList = p.lead ++ c :: body ∧
      isWhite c = false ∧ Laid t.squeeze.tokens (c :: body) := by
  obtain ⟨chars, trail, htext, hlaid, htrail⟩ := h
  obtain ⟨token, tokens, htokens, -⟩ := t.exists_tokens
  rw [htokens] at hlaid
  obtain ⟨c, body, hcollapse, hc, hbody⟩ := hlaid.collapse_cons hp
  refine ⟨c, body, ?_, hc, ?_⟩
  · rw [htext, Words.collapse_append, hcollapse,
      Words.collapse_white fun c hc => isWhite_of_jsonWhite (htrail c hc), List.append_nil]
  · rw [JsonText.tokens_squeeze, htokens]
    exact hbody

theorem Spells.after {t : JsonText} {text : String} (h : Spells t text) (p : Words.Place) :
    (p.after text.toList).pause = .gap := by
  obtain ⟨chars, trail, htext, hlaid, htrail⟩ := h
  obtain ⟨token, tokens, htokens, -⟩ := t.exists_tokens
  have hne : t.tokens ≠ [] := by
    rw [htokens]
    exact List.cons_ne_nil token tokens
  rw [htext, Words.after_append, hlaid.after hne]
  cases trail with
  | nil => rfl
  | cons c trail =>
    rw [Words.after_white (fun c hc => isWhite_of_jsonWhite (htrail c hc))
      (List.cons_ne_nil c trail)]
    rfl

/-- The words of some texts, joined. -/
def joined (texts : List String) : String := " ".intercalate (texts.flatMap words)

theorem toList_joined (texts : List String) :
    (joined texts).toList = Words.collapse .start (" ".intercalate texts).toList := by
  rw [joined, ← Words.words_intercalate, Words.intercalate_words]

theorem joined_one {t : JsonText} {text : String} (h : Spells t text) :
    Laid t.squeeze.tokens (joined [text]).toList := by
  obtain ⟨c, body, hcollapse, -, hbody⟩ := h.collapse (p := .start) rfl
  rw [toList_joined, String.intercalate_singleton, hcollapse]
  exact hbody

theorem joined_two {t t' : JsonText} {text text' : String} (h : Spells t text)
    (h' : Spells t' text') : ∃ chars c body,
      (joined [text, text']).toList = chars ++ ' ' :: c :: body ∧ isWhite c = false ∧
      Laid t.squeeze.tokens chars ∧ Laid t'.squeeze.tokens (c :: body) := by
  obtain ⟨c, body, hcollapse, -, hbody⟩ := h.collapse (p := .start) rfl
  obtain ⟨c', body', hcollapse', hc', hbody'⟩ := h'.collapse (p := .gap) rfl
  refine ⟨c :: body, c', body', ?_, hc', hbody, hbody'⟩
  have hblank : isWhite ' ' = true := by decide
  rw [toList_joined, String.intercalate_cons_cons, String.intercalate_singleton,
    String.toList_append, String.toList_append, List.append_assoc, Words.collapse_append, hcollapse,
    show " ".toList = [' '] from rfl, List.singleton_append, Words.collapse_cons_white hblank,
    h.after, hcollapse']
  rfl

/-! ## One line -/

section Line

variable {de : Deserializer SecurityTetraplet} {t : JsonText} {text : String}

theorem passWhite_of_all {rest : List Char} (h : ∀ c ∈ rest, jsonWhite c = true) :
    passWhite rest = [] :=
  List.dropWhile_eq_nil_iff.mpr h

theorem passWhite_blank {c : Char} (hc : isWhite c = false) (rest : List Char) :
    passWhite (' ' :: c :: rest) = c :: rest := by
  have hdense : jsonWhite c = false := by
    cases hwhite : jsonWhite c with
    | true => exact absurd (isWhite_of_jsonWhite hwhite) (by simp [hc])
    | false => rfl
  simp [passWhite, List.dropWhile, hdense, show jsonWhite ' ' = true from rfl]

/-- The value that the text gives by itself. -/
theorem fromStr_eq (htext : Spells t text) (hreads : Reads de.value t.tokens t.value) :
    de.fromStr text = .ok t.value := by
  obtain ⟨chars, trail, hchars, hlaid, htrail⟩ := htext
  have hhead : ∀ c ∈ trail.head?, jsonWhite c = true :=
    fun c hc => htrail c (List.mem_of_mem_head? hc)
  have hend : atEnd trail = true := by rw [atEnd, passWhite_of_all htrail]; rfl
  refine Fallible.bind_eq_ok_iff.mpr ⟨(t.value, trail), ?_, ?_⟩
  · rw [hchars]
    exact hreads chars hlaid trail hhead
  · simp [hend]

/-- The texts after the function name are not taken for the option. -/
theorem takeOption_words {texts : List String} {chars more : List Char}
    (hlaid : Laid t.squeeze.tokens chars) (hjoined : (joined texts).toList = chars ++ more) :
    takeOption (texts.flatMap words) = (true, texts.flatMap words) := by
  unfold takeOption
  split
  · next hhead =>
    obtain ⟨rest, hwords⟩ := List.head?_eq_some_iff.mp hhead
    have hfirst : ∃ tail, (joined texts).toList = '-' :: 'n' :: tail := by
      rw [joined, hwords, String.toList_intercalate]
      simp
    obtain ⟨tail, htail⟩ := hfirst
    exact absurd (hjoined.symm.trans htail) (JsonText.not_option hlaid more tail)
  · rfl

/-- **One line** reads its documents from the joined words. -/
theorem execute_callLine {moduleName funcName : String} (hmodule : IsWord moduleName.toList)
    (hfunc : IsWord funcName.toList) (showResult : Bool) {texts : List String}
    {chars more : List Char} (hlaid : Laid t.squeeze.tokens chars)
    (hjoined : (joined texts).toList = chars ++ more) :
    execute de (words (callLine moduleName funcName showResult texts)) =
      .callModule (do
        let (args, callParameters) ← readDocuments de (joined texts)
        pure ⟨moduleName, funcName, showResult, args, callParameters⟩) := by
  have hcall : words "call" = ["call"] := Words.words_of_isWord (by decide)
  have hoption : words "-nr" = ["-nr"] := Words.words_of_isWord (by decide)
  have hnone := takeOption_words hlaid hjoined
  cases showResult with
  | true =>
    have hline : words (callLine moduleName funcName true texts) =
        "call" :: moduleName :: funcName :: texts.flatMap words := by
      rw [callLine, Words.words_intercalate]
      simp [hcall, Words.words_of_isWord hmodule, Words.words_of_isWord hfunc]
    rw [hline]
    simp [execute, parseCallModuleArguments, hnone]
    rfl
  | false =>
    have hline : words (callLine moduleName funcName false texts) =
        "call" :: moduleName :: funcName :: "-nr" :: texts.flatMap words := by
      rw [callLine, Words.words_intercalate]
      simp [hcall, Words.words_of_isWord hmodule, Words.words_of_isWord hfunc, hoption]
    rw [hline]
    simp [execute, parseCallModuleArguments, takeOption]
    rfl

/-! ## Its documents -/

def paramTexts : Option (GivenParameters de) → List String
  | none => []
  | some given => [given.text]

/-- The call parameters that are given, or the default. -/
def givenParameters : Option (GivenParameters de) → CallParameters SecurityTetraplet
  | none => .default
  | some given => given.parameters

def squeezedParameters : Option (GivenParameters de) → CallParameters SecurityTetraplet
  | none => .default
  | some given => given.squeezed

theorem readCallParameters_squeezed {given : GivenParameters de} {c : Char} {body : List Char}
    (hc : isWhite c = false) (hbody : Laid given.json.squeeze.tokens (c :: body)) :
    readCallParameters de (' ' :: c :: body) = .ok given.squeezed := by
  have hread := given.reads_squeezed (c :: body) hbody [] (by simp)
  rw [List.append_nil] at hread
  have hend : atEnd (' ' :: c :: body) = false := by rw [atEnd, passWhite_blank hc]; rfl
  unfold readCallParameters
  rw [hend, passWhite_blank hc, hread]
  rfl

/-- The joined words: the squeezed text, and the call parameters after a blank. -/
theorem joined_text (htext : Spells t text) (params : Option (GivenParameters de)) :
    ∃ chars rest, (joined (text :: paramTexts params)).toList = chars ++ rest ∧
      Laid t.squeeze.tokens chars ∧ (∀ c ∈ rest.head?, jsonWhite c = true) ∧
      readCallParameters de rest = .ok (squeezedParameters params) := by
  cases params with
  | none => exact ⟨_, [], (List.append_nil _).symm, joined_one htext, by simp, rfl⟩
  | some given =>
    obtain ⟨chars, c, body, hjoined, hc, hlaid, hbody⟩ := joined_two htext given.spells
    refine ⟨chars, ' ' :: c :: body, hjoined, hlaid, ?_, readCallParameters_squeezed hc hbody⟩
    intro d hd
    obtain rfl : ' ' = d := Option.some.inj hd
    rfl

/-! ## The call -/

/-- The line leads to a call with the value that the text gives by itself, and with the given
call parameters. -/
def PassedUnchanged (de : Deserializer SecurityTetraplet) (moduleName funcName : String)
    (showResult : Bool) (text : String) (params : Option (GivenParameters de)) : Prop :=
  ∃ j, de.fromStr text = .ok j ∧
    execute de (words (callLine moduleName funcName showResult (text :: paramTexts params))) =
      .callModule (.ok ⟨moduleName, funcName, showResult, j, givenParameters params⟩)

/-- **A line passes on** the value of the squeezed text, and the squeezed call parameters. -/
theorem execute_text {moduleName funcName : String} (hmodule : IsWord moduleName.toList)
    (hfunc : IsWord funcName.toList) (showResult : Bool) (htext : Spells t text)
    (hsqueezed : Reads de.value t.squeeze.tokens t.squeeze.value)
    (params : Option (GivenParameters de)) :
    execute de (words (callLine moduleName funcName showResult (text :: paramTexts params))) =
      .callModule (.ok ⟨moduleName, funcName, showResult, t.squeeze.value,
        squeezedParameters params⟩) := by
  obtain ⟨chars, rest, hjoined, hlaid, hhead, hparams⟩ := joined_text htext params
  have hvalue : de.value (joined (text :: paramTexts params)).toList =
      .ok (t.squeeze.value, rest) := by
    rw [hjoined]
    exact hsqueezed chars hlaid rest hhead
  have hread : readDocuments de (joined (text :: paramTexts params)) =
      .ok (t.squeeze.value, squeezedParameters params) := by
    unfold readDocuments
    rw [hvalue]
    exact Fallible.bind_eq_ok_iff.mpr ⟨_, rfl, Fallible.bind_eq_ok_iff.mpr ⟨_, hparams, rfl⟩⟩
  rw [execute_callLine hmodule hfunc showResult hlaid hjoined, hread]
  rfl

/-- A call gets what is given where squeezing changes nothing of it. -/
theorem passedUnchanged_iff_squeeze {moduleName funcName : String}
    (hmodule : IsWord moduleName.toList) (hfunc : IsWord funcName.toList) {showResult : Bool}
    (htext : Spells t text) (hreads : Reads de.value t.tokens t.value)
    (hsqueezed : Reads de.value t.squeeze.tokens t.squeeze.value)
    {params : Option (GivenParameters de)} :
    PassedUnchanged de moduleName funcName showResult text params ↔
      t.squeeze.value = t.value ∧ squeezedParameters params = givenParameters params := by
  unfold PassedUnchanged
  rw [fromStr_eq htext hreads, execute_text hmodule hfunc showResult htext hsqueezed params]
  simp

theorem squeezedParameters_eq_iff {params : Option (GivenParameters de)} :
    squeezedParameters params = givenParameters params ↔
      ∀ given ∈ params, given.plain = true := by
  cases params with
  | none => simp [squeezedParameters, givenParameters]
  | some given => simp [squeezedParameters, givenParameters, GivenParameters.squeezed_eq_iff]

theorem names_of_parse {args : List String} {result : CallModuleArguments SecurityTetraplet}
    (h : parseCallModuleArguments de args = .ok result) :
    result.moduleName ∈ args ∧ result.funcName ∈ args := by
  match args with
  | [] => cases h
  | [_] => cases h
  | moduleName :: funcName :: args =>
    obtain ⟨⟨value, callParameters⟩, -, hresult⟩ := Fallible.bind_eq_ok_iff.mp h
    cases hresult
    simp

/-- The names of a call are words of the line. -/
theorem names_of_passedUnchanged {moduleName funcName : String} {showResult : Bool}
    {params : Option (GivenParameters de)}
    (h : PassedUnchanged de moduleName funcName showResult text params) :
    moduleName ≠ "" ∧ funcName ≠ "" := by
  obtain ⟨j, -, hcall⟩ := h
  have hword : words "call" = ["call"] := Words.words_of_isWord (by decide)
  obtain ⟨args, hargs⟩ : ∃ args, words (callLine moduleName funcName showResult
      (text :: paramTexts params)) = "call" :: args := by
    rw [callLine, Words.words_intercalate]
    exact ⟨_, by rw [List.cons_append, List.cons_append, List.flatMap_cons, hword]; rfl⟩
  rw [hargs] at hcall
  obtain ⟨hmodule, hfunc⟩ := names_of_parse (Command.callModule.inj hcall)
  have hmem : ∀ word ∈ args, word ≠ "" := by
    intro word hword'
    exact Words.ne_empty_of_mem_words (hargs ▸ List.mem_cons_of_mem "call" hword')
  exact ⟨hmem _ hmodule, hmem _ hfunc⟩

/-- **Arguments are passed unchanged** from a line with a module and a function name where the
text keeps its value when the white space in its literals is squeezed, and the literals that the
call parameters take have single blanks only.  A text keeps its value where all its literals have
single blanks only; where no member of an object hides another, no other text does. -/
theorem passedUnchanged_plain {moduleName funcName : String}
    (hmodule : ∀ c ∈ moduleName.toList, isWhite c = false)
    (hfunc : ∀ c ∈ funcName.toList, isWhite c = false) (showResult : Bool) (htext : Spells t text)
    (hreads : Reads de.value t.tokens t.value)
    (hsqueezed : Reads de.value t.squeeze.tokens t.squeeze.value)
    (params : Option (GivenParameters de)) :
    (PassedUnchanged de moduleName funcName showResult text params ↔
      moduleName ≠ "" ∧ funcName ≠ "" ∧ t.Kept t ∧ ∀ given ∈ params, given.plain = true) ∧
    (t.plain = true → t.Kept t) ∧ (t.Distinct → t.Kept t → t.plain = true) := by
  have hword : ∀ {name : String}, (∀ c ∈ name.toList, isWhite c = false) → name ≠ "" →
      IsWord name.toList := fun h hne => ⟨by simpa using hne, h⟩
  refine ⟨?_, JsonText.kept_of_plain, JsonText.plain_of_kept⟩
  rw [JsonText.kept_iff, ← squeezedParameters_eq_iff]
  constructor
  · intro hpassed
    obtain ⟨hmodule', hfunc'⟩ := names_of_passedUnchanged hpassed
    exact ⟨hmodule', hfunc', (passedUnchanged_iff_squeeze (hword hmodule hmodule')
      (hword hfunc hfunc') htext hreads hsqueezed).mp hpassed⟩
  · rintro ⟨hmodule', hfunc', hkept⟩
    exact (passedUnchanged_iff_squeeze (hword hmodule hmodule') (hword hfunc hfunc') htext hreads
      hsqueezed).mpr hkept

end Line

/-! ## Two lines -/

/-- A reader of literals without escapes. -/
def readLiteral (text : List Char) : Except String (JValue × List Char) :=
  match passWhite text with
  | '"' :: cs =>
    match cs.dropWhile isLiteral with
    | '"' :: rest => .ok (.string (String.ofList (cs.takeWhile isLiteral)), rest)
    | _ => .error "EOF while parsing a string"
  | _ => .error "expected value"

/-- A reader of call parameters that are all left out. -/
def readNoParameters (text : List Char) :
    Except String (PartialCallParameters Unit × List Char) :=
  match passWhite text with
  | '{' :: cs =>
    match passWhite cs with
    | '}' :: rest => .ok (⟨⟨"", "", 0, 0, "", [], ""⟩, "", "", "", "", []⟩, rest)
    | _ => .error "key must be a string"
  | _ => .error "invalid type"

def literalDeserializer : Deserializer Unit := ⟨readLiteral, readNoParameters⟩

theorem passWhite_append {gap : List Char} (h : ∀ c ∈ gap, jsonWhite c = true) (text : List Char) :
    passWhite (gap ++ text) = passWhite text :=
  List.dropWhile_append_of_pos h

theorem readLiteral_reads {pieces : List Piece}
    (hchars : pieces.flatMap Piece.chars = pieces.map Piece.value)
    (hall : (pieces.map Piece.value).all isLiteral = true) :
    Reads readLiteral [.quoted pieces] (.string (spelled pieces)) := by
  have hliteral := List.all_eq_true.mp hall
  intro chars hlaid rest _
  cases hlaid with
  | @cons gap cs _ _ hgap hcs =>
    cases hcs
    have htext : passWhite (gap ++ ((Token.quoted pieces).chars ++ []) ++ rest) =
        '"' :: (pieces.map Piece.value ++ '"' :: rest) := by
      rw [List.append_assoc, passWhite_append hgap, Token.chars, hchars]
      simp [passWhite, show jsonWhite '"' = false from rfl]
    have hdrop : (pieces.map Piece.value ++ '"' :: rest).dropWhile isLiteral = '"' :: rest := by
      rw [List.dropWhile_append_of_pos hliteral]
      simp [List.dropWhile, show isLiteral '"' = false from rfl]
    have htake : (pieces.map Piece.value ++ '"' :: rest).takeWhile isLiteral =
        pieces.map Piece.value := by
      rw [List.takeWhile_append_of_pos hliteral]
      simp [List.takeWhile, show isLiteral '"' = false from rfl]
    unfold readLiteral
    simp only [htext, hdrop, htake]
    rfl

theorem readNoParameters_reads : Reads readNoParameters [openObject, closeObject]
    ⟨⟨"", "", 0, 0, "", [], ""⟩, "", "", "", "", []⟩ := by
  intro chars hlaid rest _
  cases hlaid with
  | @cons gap cs _ _ hgap hcs =>
    cases hcs with
    | @cons gap' cs' _ _ hgap' hcs' =>
      cases hcs'
      have hopen : passWhite (gap ++ (openObject.chars ++ (gap' ++ (closeObject.chars ++ []))) ++
          rest) = '{' :: (gap' ++ '}' :: rest) := by
        rw [List.append_assoc, passWhite_append hgap]
        simp [openObject, closeObject, Token.mark, Token.chars, passWhite,
          show jsonWhite '{' = false from rfl]
      have hclose : passWhite (gap' ++ '}' :: rest) = '}' :: rest := by
        rw [passWhite_append hgap']
        simp [passWhite, show jsonWhite '}' = false from rfl]
      unfold readNoParameters
      simp only [hopen, hclose]

/-- Tokens without white space between them. -/
theorem laid_tight (tokens : List Token) : Laid tokens (tokens.flatMap Token.chars) := by
  induction tokens with
  | nil => exact .nil
  | cons token tokens ih => exact @Laid.cons [] _ _ token (by simp) ih

theorem spells_tight {t : JsonText} {text : String}
    (h : text.toList = t.tokens.flatMap Token.chars) : Spells t text :=
  ⟨_, [], by rw [List.append_nil, h], laid_tight t.tokens, by simp⟩

def noParameters : GivenParameters literalDeserializer where
  text := "\x7b\x7d"
  json := .object []
  spells := spells_tight rfl
  taken := []
  sublist := List.nil_sublist _
  make _ := ⟨⟨"", "", 0, 0, "", [], ""⟩, "", "", "", "", []⟩
  make_injective h h' _ := by
    rw [List.length_eq_zero_iff.mp h, List.length_eq_zero_iff.mp h']
  reads := readNoParameters_reads
  reads_squeezed := readNoParameters_reads

/-- The text `"a b"`. -/
def oneBlank : JsonText := .string [.raw 'a' rfl, .raw ' ' rfl, .raw 'b' rfl]

/-- The text `"a  b"`. -/
def twoBlanks : JsonText := .string [.raw 'a' rfl, .raw ' ' rfl, .raw ' ' rfl, .raw 'b' rfl]

theorem oneBlank_reads :
    Reads literalDeserializer.value oneBlank.tokens (.string "a b") :=
  readLiteral_reads rfl rfl

theorem twoBlanks_reads :
    Reads literalDeserializer.value twoBlanks.tokens (.string "a  b") :=
  readLiteral_reads rfl rfl

/-- The line `call greeting greet -nr "a b" \x7b\x7d`. -/
theorem one_blank_passed :
    PassedUnchanged literalDeserializer "greeting" "greet" false "\"a b\""
      (some noParameters) := by
  have hmodule : IsWord "greeting".toList := by decide
  have hfunc : IsWord "greet".toList := by decide
  have hspells : Spells oneBlank "\"a b\"" := spells_tight rfl
  refine (passedUnchanged_plain hmodule.2 hfunc.2 false hspells oneBlank_reads
    oneBlank_reads _).1.mpr ⟨by decide, by decide, JsonText.kept_of_plain rfl, ?_⟩
  intro given hgiven
  obtain rfl : noParameters = given := Option.some.inj hgiven
  rfl

/-- The line `call greeting greet "a  b"`. -/
theorem two_blanks_lost :
    literalDeserializer.fromStr "\"a  b\"" = .ok (.string "a  b") ∧
      execute literalDeserializer (words (callLine "greeting" "greet" true ["\"a  b\""])) =
        .callModule (.ok ⟨"greeting", "greet", true, .string "a b", .default⟩) ∧
      ¬ PassedUnchanged literalDeserializer "greeting" "greet" true "\"a  b\"" none := by
  have hspells : Spells twoBlanks "\"a  b\"" := spells_tight rfl
  have hmodule : IsWord "greeting".toList := by decide
  have hfunc : IsWord "greet".toList := by decide
  refine ⟨fromStr_eq hspells twoBlanks_reads,
    execute_text hmodule hfunc true hspells oneBlank_reads none, fun hpassed => ?_⟩
  have hsame := (passedUnchanged_iff_squeeze hmodule hfunc hspells twoBlanks_reads
    oneBlank_reads).mp hpassed
  injection hsame.1 with hsame
  exact absurd hsame (by decide)

end Marine.Repl
