import Marine.Lib.Texts

/-!
# Words

A text is cut into words at its white space and joined again by single blanks.

* `words_intercalate`: the words of some texts with blanks between them.
* `intercalate_words`: cutting and joining is one pass over the text, which drops
  the white space at its ends and leaves one blank of each other run.
-/

namespace Words

open Texts (isWhite)

/-! ## Cutting -/

def wordLists (text : List Char) : List (List Char) :=
  (text.splitOnP isWhite).filter fun word => !word.isEmpty

/-- The parts of a text between its white space that are not empty. -/
def words (s : String) : List String := (wordLists s.toList).map String.ofList

/-- A word: not empty, and free of white space. -/
def IsWord (text : List Char) : Prop := text ≠ [] ∧ ∀ c ∈ text, isWhite c = false

instance (text : List Char) : Decidable (IsWord text) :=
  decidable_of_iff (text ≠ [] ∧ text.all (fun c => !isWhite c) = true) (by simp [IsWord])

theorem wordLists_blank (xs ys : List Char) :
    wordLists (xs ++ ' ' :: ys) = wordLists xs ++ wordLists ys := by
  have hblank : isWhite ' ' = true := by decide
  unfold wordLists
  rw [List.splitOnP_append_cons xs ys hblank, List.filter_append]

theorem wordLists_of_isWord {word : List Char} (h : IsWord word) : wordLists word = [word] := by
  have hfull : word.isEmpty = false := List.isEmpty_eq_false_iff.mpr h.1
  rw [wordLists, List.splitOnP_eq_singleton h.2]
  simp [hfull]

theorem wordLists_intercalate (texts : List (List Char)) :
    wordLists ([' '].intercalate texts) = texts.flatMap wordLists := by
  induction texts with
  | nil => rfl
  | cons text texts ih =>
    cases texts with
    | nil => simp
    | cons text' texts =>
      rw [List.intercalate_cons_cons, List.append_assoc, List.singleton_append, wordLists_blank,
        ih, ← List.flatMap_cons]

theorem words_intercalate (texts : List String) :
    words (" ".intercalate texts) = texts.flatMap words := by
  unfold words
  rw [String.toList_intercalate, show " ".toList = [' '] from rfl, wordLists_intercalate,
    List.flatMap_map, List.map_flatMap]

theorem words_of_isWord {word : String} (h : IsWord word.toList) : words word = [word] := by
  rw [words, wordLists_of_isWord h]
  simp

theorem ne_empty_of_mem_words {s word : String} (h : word ∈ words s) : word ≠ "" := by
  obtain ⟨text, htext, rfl⟩ := List.mem_map.mp h
  have hne : text ≠ [] := by simpa using (List.mem_filter.mp htext).2
  intro heq
  exact hne (by simpa using congrArg String.toList heq)

/-! ## Joining -/

/-- Where a pass over a text stands: before its first word, in a word, or after one. -/
inductive Place
  | start
  | word
  | gap
  deriving DecidableEq, Repr

namespace Place

/-- The place after a character of white space. -/
def pause : Place → Place
  | start => start
  | _ => gap

/-- What is written before the next word. -/
def lead : Place → List Char
  | gap => [' ']
  | _ => []

def next (p : Place) (c : Char) : Place := if isWhite c then p.pause else word

/-- The place after some characters. -/
def after (p : Place) (text : List Char) : Place := text.foldl next p

@[simp] theorem pause_pause (p : Place) : p.pause.pause = p.pause := by cases p <;> rfl

theorem after_cons_white {c : Char} (h : isWhite c = true) (p : Place) (cs : List Char) :
    p.after (c :: cs) = p.pause.after cs := by
  rw [after, List.foldl_cons, next, if_pos h, after]

theorem after_cons_dense {c : Char} (h : isWhite c = false) (p : Place) (cs : List Char) :
    p.after (c :: cs) = word.after cs := by
  rw [after, List.foldl_cons, next, if_neg (by simp [h]), after]

end Place

/-- The text without the white space at its ends, with a blank for each other run. -/
def collapse (p : Place) : List Char → List Char
  | [] => []
  | c :: cs => if isWhite c then collapse p.pause cs else p.lead ++ c :: collapse .word cs

theorem collapse_cons_white {c : Char} (h : isWhite c = true) (p : Place) (cs : List Char) :
    collapse p (c :: cs) = collapse p.pause cs := by
  rw [collapse, if_pos h]

theorem collapse_cons_dense {c : Char} (h : isWhite c = false) (p : Place) (cs : List Char) :
    collapse p (c :: cs) = p.lead ++ c :: collapse .word cs := by
  rw [collapse, if_neg (by simp [h])]

theorem intercalate_cons_blank (text : List Char) (texts : List (List Char)) :
    [' '].intercalate (text :: texts) = text ++ texts.flatMap fun word => ' ' :: word := by
  induction texts generalizing text with
  | nil => simp
  | cons text' texts ih =>
    rw [List.intercalate_cons_cons, ih, List.append_assoc]
    rfl

/-- What the pass writes, from the parts of the text between its white space. -/
theorem collapse_splitOnP (text : List Char) : ∃ part parts, text.splitOnP isWhite = part :: parts ∧
    collapse .word text =
      part ++ (parts.filter fun word => !word.isEmpty).flatMap (fun word => ' ' :: word) ∧
    collapse .gap text = (wordLists text).flatMap (fun word => ' ' :: word) ∧
    collapse .start text = [' '].intercalate (wordLists text) := by
  induction text with
  | nil => exact ⟨[], [], rfl, rfl, rfl, rfl⟩
  | cons c cs ih =>
    obtain ⟨part, parts, hsplit, hword, hgap, hstart⟩ := ih
    cases hc : isWhite c with
    | true =>
      have hcut : (c :: cs).splitOnP isWhite = [] :: part :: parts := by
        rw [List.splitOnP_cons_eq_if_modifyHead, if_pos hc, hsplit]
      have hlists : wordLists (c :: cs) = wordLists cs := by
        simp [wordLists, hcut, hsplit]
      refine ⟨[], part :: parts, hcut, ?_, ?_, ?_⟩
      · rw [collapse_cons_white hc, List.nil_append, ← hsplit]
        exact hgap
      · rw [collapse_cons_white hc, hlists]
        exact hgap
      · rw [collapse_cons_white hc, hlists]
        exact hstart
    | false =>
      have hcut : (c :: cs).splitOnP isWhite = (c :: part) :: parts := by
        rw [List.splitOnP_cons_eq_if_modifyHead, if_neg (by simp [hc]), hsplit,
          List.modifyHead_cons]
      have hlists : wordLists (c :: cs) =
          (c :: part) :: parts.filter fun word => !word.isEmpty := by
        simp [wordLists, hcut]
      refine ⟨c :: part, parts, hcut, ?_, ?_, ?_⟩
      · rw [collapse_cons_dense hc, hword]
        rfl
      · rw [collapse_cons_dense hc, hlists, hword]
        rfl
      · rw [collapse_cons_dense hc, hlists, hword, intercalate_cons_blank]
        rfl

/-- **Cutting and joining is one pass.** -/
theorem intercalate_words (s : String) :
    (" ".intercalate (words s)).toList = collapse .start s.toList := by
  obtain ⟨-, -, -, -, -, hstart⟩ := collapse_splitOnP s.toList
  rw [String.toList_intercalate, words, List.map_map, hstart]
  simp [Function.comp_def]

/-! ## The pass in two parts -/

theorem after_append (p : Place) (xs ys : List Char) :
    p.after (xs ++ ys) = (p.after xs).after ys :=
  List.foldl_append

theorem collapse_append (p : Place) (xs ys : List Char) :
    collapse p (xs ++ ys) = collapse p xs ++ collapse (p.after xs) ys := by
  induction xs generalizing p with
  | nil => rfl
  | cons x xs ih =>
    rw [List.cons_append]
    cases hx : isWhite x with
    | true => rw [collapse_cons_white hx, collapse_cons_white hx, ih, Place.after_cons_white hx]
    | false =>
      rw [collapse_cons_dense hx, collapse_cons_dense hx, ih, Place.after_cons_dense hx,
        List.append_assoc, List.cons_append]

/-- White space writes nothing. -/
theorem collapse_white {gap : List Char} (h : ∀ c ∈ gap, isWhite c = true) (p : Place) :
    collapse p gap = [] := by
  induction gap generalizing p with
  | nil => rfl
  | cons c gap ih =>
    rw [collapse_cons_white (h c (List.mem_cons_self ..))]
    exact ih (fun c' hc' => h c' (List.mem_cons_of_mem c hc')) p.pause

theorem after_white {gap : List Char} (h : ∀ c ∈ gap, isWhite c = true) (hne : gap ≠ [])
    (p : Place) : p.after gap = p.pause := by
  induction gap generalizing p with
  | nil => exact absurd rfl hne
  | cons c gap ih =>
    rw [Place.after_cons_white (h c (List.mem_cons_self ..))]
    cases gap with
    | nil => rfl
    | cons c' gap =>
      have hrest := ih (fun d hd => h d (List.mem_cons_of_mem c hd)) (List.cons_ne_nil c' gap)
      rw [hrest, Place.pause_pause]

/-- A word is written as it is. -/
theorem collapse_word {word : List Char} (h : IsWord word) (p : Place) :
    collapse p word = p.lead ++ word ∧ p.after word = .word := by
  have hdense : ∀ cs : List Char, (∀ c ∈ cs, isWhite c = false) →
      collapse .word cs = cs ∧ Place.word.after cs = .word := by
    intro cs hcs
    induction cs with
    | nil => exact ⟨rfl, rfl⟩
    | cons c cs ih =>
      have hc : isWhite c = false := hcs c (List.mem_cons_self ..)
      obtain ⟨hcollapse, hafter⟩ := ih fun c' hc' => hcs c' (List.mem_cons_of_mem c hc')
      rw [collapse_cons_dense hc, hcollapse, Place.after_cons_dense hc, hafter]
      exact ⟨rfl, rfl⟩
  cases word with
  | nil => exact absurd rfl h.1
  | cons c cs =>
    have hc : isWhite c = false := h.2 c (List.mem_cons_self ..)
    obtain ⟨hcollapse, hafter⟩ := hdense cs fun c' hc' => h.2 c' (List.mem_cons_of_mem c hc')
    rw [collapse_cons_dense hc, hcollapse, Place.after_cons_dense hc, hafter]
    exact ⟨rfl, rfl⟩

theorem collapse_word_append {word : List Char} (h : IsWord word) (p : Place) (text : List Char) :
    collapse p (word ++ text) = p.lead ++ (word ++ collapse .word text) := by
  obtain ⟨hcollapse, hafter⟩ := collapse_word h p
  rw [collapse_append, hcollapse, hafter, List.append_assoc]

end Words
