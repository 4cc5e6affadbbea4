import Marine.HostImports.Logger
import Marine.Lib.Texts
import Mathlib.Data.List.AList

/-!
# The filter of the log messages

`marine/src/host_imports/logger/logger_filter.rs`: the content of `WASM_LOG`, and
the level it gives a module.

* `applyDirective_text`: what one directive does to the filter.
* `fromEnvString_join`: what a list of directives leaves.
* `moduleLevel_directives`: the level of a module, from the directives.
* `exists_directives`: every content is a list of directives.
-/

namespace Marine.HostImports

open Texts

/-- `log::LevelFilter`. -/
inductive LevelFilter where
  | off
  | error
  | warn
  | info
  | debug
  | trace
  deriving DecidableEq, Repr

/-- `LevelFilter::max()`. -/
def LevelFilter.max : LevelFilter := .trace

/-- `to_level`. -/
def LevelFilter.toLevel : LevelFilter → Option Level
  | .off => none
  | .error => some .error
  | .warn => some .warn
  | .info => some .info
  | .debug => some .debug
  | .trace => some .trace

/-- The texts of the `log` crate. -/
structure LogCrate where
  /-- `LevelFilter::from_str`. -/
  parse : String → Option LevelFilter
  /-- `Level::to_string`. -/
  levelText : Level → String

structure LoggerFilter where
  defaultLogLevel : Option LevelFilter
  moduleLevels : AList fun _ : String => LevelFilter

namespace LoggerFilter

def empty : LoggerFilter := ⟨none, ∅⟩

def insert (filter : LoggerFilter) (moduleName : String) (level : LevelFilter) : LoggerFilter :=
  { filter with moduleLevels := filter.moduleLevels.insert moduleName level }

/-- The default level is set once. -/
def setDefault (filter : LoggerFilter) (level : LevelFilter) : LoggerFilter :=
  match filter.defaultLogLevel with
  | some _ => filter
  | none => { filter with defaultLogLevel := some level }

/-- One pass of the loop. -/
def applyDirective (log : LogCrate) (filter : LoggerFilter) (moduleLog : String) : LoggerFilter :=
  if moduleLog = "" then filter
  else
    match splitOn '=' moduleLog with
    | [part] =>
      match log.parse part with
      | some num => filter.setDefault num
      | none => filter.insert part .max
    | [moduleName, part] =>
      if trim part = "" then filter.insert moduleName .max
      else
        match log.parse (trim part) with
        | some logLevel => filter.insert moduleName logLevel
        | none => filter
    | _ => filter

def fromEnvString (log : LogCrate) (env : String) : LoggerFilter :=
  (splitOn ',' env).foldl (applyDirective log) empty

def moduleLevel (filter : LoggerFilter) (moduleName : String) : Option LevelFilter :=
  match filter.moduleLevels.lookup moduleName with
  | some level => some level
  | none => filter.defaultLogLevel

end LoggerFilter

/-! ## Directives -/

/-- A text without separators. -/
def Plain (s : String) : Prop := ',' ∉ s.toList ∧ '=' ∉ s.toList

/-- The shapes of a directive; the last three are passed over. -/
inductive Directive (log : LogCrate) : Type
  | nameLevel (name text : String) (level : LevelFilter) (hname : Plain name) (htext : Plain text)
      (hne : trim text ≠ "") (hlevel : log.parse (trim text) = some level)
  | nameOnly (name blank : String) (hname : Plain name) (hblank : Plain blank)
      (htrim : trim blank = "")
  | bareName (name : String) (hname : Plain name) (hne : name ≠ "") (hlevel : log.parse name = none)
  | bareLevel (text : String) (level : LevelFilter) (htext : Plain text) (hne : text ≠ "")
      (hlevel : log.parse text = some level)
  | empty
  | manyEquals (text : String) (hcomma : ',' ∉ text.toList) (hequals : 2 ≤ text.toList.count '=')
  | unknownLevel (name text : String) (hname : Plain name) (htext : Plain text)
      (hne : trim text ≠ "") (hlevel : log.parse (trim text) = none)

namespace Directive

variable {log : LogCrate}

def text : Directive log → String
  | nameLevel name text .. => name ++ "=" ++ text
  | nameOnly name blank .. => name ++ "=" ++ blank
  | bareName name .. => name
  | bareLevel text .. => text
  | empty => ""
  | manyEquals text .. => text
  | unknownLevel name text .. => name ++ "=" ++ text

/-- The module that a directive names, with its level. -/
def named : Directive log → Option (String × LevelFilter)
  | nameLevel name _ level .. => some (name, level)
  | nameOnly name .. => some (name, .max)
  | bareName name .. => some (name, .max)
  | _ => none

/-- The level of a bare level. -/
def bare : Directive log → Option LevelFilter
  | bareLevel _ level .. => some level
  | _ => none

/-- The level that a directive gives a module. -/
def levelOf (moduleName : String) (d : Directive log) : Option LevelFilter :=
  d.named.bind fun p => if p.1 = moduleName then some p.2 else none

/-- Whether a directive is not passed over. -/
def effective (d : Directive log) : Bool := d.named.isSome || d.bare.isSome

def join (ds : List (Directive log)) : String := ",".intercalate (ds.map text)

/-! ## One directive -/

theorem text_plain_comma (d : Directive log) : ',' ∉ d.text.toList := by
  cases d with
  | nameLevel name text level hname htext => simp [Directive.text, hname.1, htext.1]
  | nameOnly name blank hname hblank => simp [Directive.text, hname.1, hblank.1]
  | bareName name hname => exact hname.1
  | bareLevel text level htext => exact htext.1
  | empty => simp [Directive.text]
  | manyEquals text hcomma => exact hcomma
  | unknownLevel name text hname htext => simp [Directive.text, hname.1, htext.1]

/-- What a directive does, read off its shape. -/
def apply (filter : LoggerFilter) (d : Directive log) : LoggerFilter :=
  match d.named, d.bare with
  | some (moduleName, level), _ => filter.insert moduleName level
  | none, some level => filter.setDefault level
  | none, none => filter

theorem splitOn_named {name text : String} (hname : Plain name) (htext : Plain text) :
    splitOn '=' (name ++ "=" ++ text) = [name, text] :=
  splitOn_pair hname.2 htext.2

theorem named_ne_empty (name text : String) : name ++ "=" ++ text ≠ "" := by
  simp

/-- **Step lemma.** -/
theorem applyDirective_text (filter : LoggerFilter) (d : Directive log) :
    filter.applyDirective log d.text = d.apply filter := by
  cases d with
  | nameLevel name text level hname htext hne hlevel =>
    rw [Directive.text, LoggerFilter.applyDirective, if_neg (named_ne_empty name text),
      splitOn_named hname htext]
    simp only [if_neg hne, hlevel]
    rfl
  | nameOnly name blank hname hblank htrim =>
    rw [Directive.text, LoggerFilter.applyDirective, if_neg (named_ne_empty name blank),
      splitOn_named hname hblank]
    simp only [if_pos htrim]
    rfl
  | bareName name hname hne hlevel =>
    rw [Directive.text, LoggerFilter.applyDirective, if_neg hne, splitOn_of_notMem hname.2]
    simp only [hlevel]
    rfl
  | bareLevel text level htext hne hlevel =>
    rw [Directive.text, LoggerFilter.applyDirective, if_neg hne, splitOn_of_notMem htext.2]
    simp only [hlevel]
    rfl
  | empty => rfl
  | manyEquals text hcomma hequals =>
    have hne : text ≠ "" := by
      rintro rfl
      simp at hequals
    have hlength := length_splitOn '=' text
    rw [Directive.text, LoggerFilter.applyDirective, if_neg hne]
    split
    · rename_i hparts
      simp only [hparts, List.length_cons, List.length_nil] at hlength
      omega
    · rename_i hparts
      simp only [hparts, List.length_cons, List.length_nil] at hlength
      omega
    · rfl
  | unknownLevel name text hname htext hne hlevel =>
    rw [Directive.text, LoggerFilter.applyDirective, if_neg (named_ne_empty name text),
      splitOn_named hname htext]
    simp only [if_neg hne, hlevel]
    rfl

/-- A directive decides the level of a module that it names. -/
theorem lookup_apply (filter : LoggerFilter) (d : Directive log) (moduleName : String) :
    (d.apply filter).moduleLevels.lookup moduleName =
      (d.levelOf moduleName).or (filter.moduleLevels.lookup moduleName) := by
  unfold apply levelOf
  cases hnamed : d.named with
  | some p =>
    by_cases hname : p.1 = moduleName
    · subst hname
      simp [LoggerFilter.insert]
    · simp [LoggerFilter.insert, hname, AList.lookup_insert_ne (Ne.symm hname)]
  | none =>
    cases hbare : d.bare with
    | none => simp
    | some level =>
      unfold LoggerFilter.setDefault
      cases filter.defaultLogLevel <;> simp

/-- A directive sets the default level if there is none. -/
theorem defaultLogLevel_apply (filter : LoggerFilter) (d : Directive log) :
    (d.apply filter).defaultLogLevel = filter.defaultLogLevel.or d.bare := by
  have hone : d.named.isSome → d.bare = none := by
    intro hsome
    cases d <;> first | rfl | cases hsome
  unfold apply
  cases hnamed : d.named with
  | some p =>
    rw [hone (by rw [hnamed]; rfl)]
    simp [LoggerFilter.insert]
  | none =>
    cases hbare : d.bare with
    | none => simp
    | some level =>
      unfold LoggerFilter.setDefault
      cases hdefault : filter.defaultLogLevel <;> simp [hdefault]

/-! ## All directives -/

/-- The last level that is given to a module by name. -/
def lastLevel (moduleName : String) (ds : List (Directive log)) : Option LevelFilter :=
  (ds.filterMap (levelOf moduleName)).getLast?

/-- The first bare level. -/
def firstBare (ds : List (Directive log)) : Option LevelFilter := (ds.filterMap bare).head?

/-- **Run lemma.** -/
theorem foldl_applyDirective (filter : LoggerFilter) (ds : List (Directive log)) :
    (∀ moduleName,
      ((ds.map text).foldl (LoggerFilter.applyDirective log) filter).moduleLevels.lookup
          moduleName =
        (lastLevel moduleName ds).or (filter.moduleLevels.lookup moduleName)) ∧
    ((ds.map text).foldl (LoggerFilter.applyDirective log) filter).defaultLogLevel =
      filter.defaultLogLevel.or (firstBare ds) := by
  unfold lastLevel firstBare
  induction ds generalizing filter with
  | nil => simp
  | cons d ds ih =>
    rw [List.map_cons, List.foldl_cons, applyDirective_text]
    obtain ⟨hlookup, hdefault⟩ := ih (d.apply filter)
    constructor
    · intro moduleName
      rw [hlookup, lookup_apply]
      cases hlevel : d.levelOf moduleName with
      | none => simp [hlevel]
      | some level =>
        cases hlast : (ds.filterMap (levelOf moduleName)).getLast? <;>
          simp [hlevel, hlast, List.getLast?_cons]
    · rw [hdefault, defaultLogLevel_apply]
      cases hbare : d.bare with
      | none => simp [hbare]
      | some level => cases filter.defaultLogLevel <;> simp [hbare]

theorem fromEnvString_join (ds : List (Directive log)) :
    (∀ moduleName,
      (LoggerFilter.fromEnvString log (join ds)).moduleLevels.lookup moduleName =
        lastLevel moduleName ds) ∧
    (LoggerFilter.fromEnvString log (join ds)).defaultLogLevel = firstBare ds := by
  have hfold := foldl_applyDirective LoggerFilter.empty ds
  have hparts : (splitOn ',' (join ds)).foldl (LoggerFilter.applyDirective log) .empty =
      (ds.map text).foldl (LoggerFilter.applyDirective log) .empty := by
    by_cases hnil : ds = []
    · subst hnil
      rfl
    · have hplain : ∀ s ∈ ds.map text, ',' ∉ s.toList := by
        intro s hs
        obtain ⟨d, -, rfl⟩ := List.mem_map.mp hs
        exact d.text_plain_comma
      have hsplit : splitOn ',' (join ds) = ds.map text :=
        splitOn_intercalate hplain (by simpa using hnil)
      rw [hsplit]
  unfold LoggerFilter.fromEnvString
  rw [hparts]
  simpa [LoggerFilter.empty] using hfold

/-- **The grammar of `WASM_LOG`.**  The level of a module is the one of the last
directive that names it, or else the first bare level, and the other directives
count for nothing. -/
theorem moduleLevel_directives (ds : List (Directive log)) (moduleName : String) :
    (LoggerFilter.fromEnvString log (join ds)).moduleLevel moduleName =
        (lastLevel moduleName ds).or (firstBare ds) ∧
      (LoggerFilter.fromEnvString log (join ds)).moduleLevel moduleName =
        (LoggerFilter.fromEnvString log (join (ds.filter effective))).moduleLevel moduleName := by
  have hlevel : ∀ ds : List (Directive log),
      (LoggerFilter.fromEnvString log (join ds)).moduleLevel moduleName =
        (lastLevel moduleName ds).or (firstBare ds) := by
    intro ds
    obtain ⟨hlookup, hdefault⟩ := fromEnvString_join ds
    unfold LoggerFilter.moduleLevel
    rw [hlookup, hdefault]
    cases lastLevel moduleName ds <;> rfl
  refine ⟨hlevel ds, ?_⟩
  have hnamed : ∀ d : Directive log,
      (if d.effective then d.levelOf moduleName else none) = d.levelOf moduleName := by
    intro d
    unfold effective levelOf
    cases d.named <;> simp
  have hbare : ∀ d : Directive log, (if d.effective then d.bare else none) = d.bare := by
    intro d
    unfold effective
    cases d.bare <;> simp
  rw [hlevel, hlevel]
  simp only [lastLevel, firstBare, List.filterMap_filter, hnamed, hbare]

/-! ## Every content is a list of directives -/

/-- A text without a comma and an equals sign. -/
theorem exists_directive_plain (log : LogCrate) {s : String} (hplain : Plain s) :
    ∃ d : Directive log, d.text = s := by
  by_cases hne : s = ""
  · exact ⟨.empty, hne.symm⟩
  · cases hlevel : log.parse s with
    | none => exact ⟨.bareName s hplain hne hlevel, rfl⟩
    | some level => exact ⟨.bareLevel s level hplain hne hlevel, rfl⟩

theorem exists_directive_named (log : LogCrate) {name text : String} (hname : Plain name)
    (htext : Plain text) : ∃ d : Directive log, d.text = name ++ "=" ++ text := by
  by_cases hne : trim text = ""
  · exact ⟨.nameOnly name text hname htext hne, rfl⟩
  · cases hlevel : log.parse (trim text) with
    | none => exact ⟨.unknownLevel name text hname htext hne hlevel, rfl⟩
    | some level => exact ⟨.nameLevel name text level hname htext hne hlevel, rfl⟩

/-- Every text without a comma has one of the shapes. -/
theorem exists_directive (log : LogCrate) {s : String} (hcomma : ',' ∉ s.toList) :
    ∃ d : Directive log, d.text = s := by
  have hjoin := intercalate_splitOn '=' s
  have hequals : ∀ part ∈ splitOn '=' s, '=' ∉ part.toList := fun _ h => notMem_of_mem_splitOn h
  have hlength := length_splitOn '=' s
  rcases hparts : splitOn '=' s with _ | ⟨name, _ | ⟨text, _ | ⟨third, rest⟩⟩⟩
  · simp [hparts] at hlength
  · rw [hparts] at hjoin hequals
    rw [String.intercalate_singleton] at hjoin
    subst hjoin
    exact exists_directive_plain log ⟨hcomma, hequals name (by simp)⟩
  · rw [hparts] at hjoin hequals
    rw [String.intercalate_cons_cons, String.intercalate_singleton] at hjoin
    subst hjoin
    have hplain : ',' ∉ name.toList ∧ ',' ∉ text.toList := by
      simpa using hcomma
    exact exists_directive_named log ⟨hplain.1, hequals name (by simp)⟩
      ⟨hplain.2, hequals text (by simp)⟩
  · refine ⟨.manyEquals s hcomma ?_, rfl⟩
    simp only [hparts, List.length_cons] at hlength
    omega

theorem exists_directives (log : LogCrate) (env : String) :
    ∃ ds : List (Directive log), join ds = env := by
  have hparts : ∀ parts : List String, (∀ s ∈ parts, ',' ∉ s.toList) →
      ∃ ds : List (Directive log), ds.map text = parts := by
    intro parts
    induction parts with
    | nil => exact fun _ => ⟨[], rfl⟩
    | cons s parts ih =>
      intro h
      obtain ⟨d, hd⟩ := exists_directive log (h s (List.mem_cons_self ..))
      obtain ⟨ds, hds⟩ := ih fun t ht => h t (List.mem_cons_of_mem s ht)
      exact ⟨d :: ds, by rw [List.map_cons, hd, hds]⟩
  obtain ⟨ds, hds⟩ := hparts (splitOn ',' env) fun _ h => notMem_of_mem_splitOn h
  refine ⟨ds, ?_⟩
  rw [join, hds]
  exact intercalate_splitOn ',' env

end Directive

/-- The documented level names, in lower case. -/
def lowerCaseLevels : LogCrate where
  parse s :=
    if s = "off" then some .off else if s = "error" then some .error
    else if s = "warn" then some .warn else if s = "info" then some .info
    else if s = "debug" then some .debug else if s = "trace" then some .trace else none
  levelText
    | .error => "ERROR"
    | .warn => "WARN"
    | .info => "INFO"
    | .debug => "DEBUG"
    | .trace => "TRACE"

example : (LoggerFilter.fromEnvString lowerCaseLevels
    "info,a=debug,a=,b= off,a=loud,warn").moduleLevel "a" = some .trace := by decide

end Marine.HostImports
