import Marine.Lib.Bytes
import Marine.Lib.Fallible
import Marine.Lib.Slices

/-!
# The manifest of a module

`ModuleManifest::try_from` (`crates/module-info-parser/src/manifest`) reads five
fields, each behind its length in eight bytes.  Indexing outside of a slice and
an overflow of `usize` are panics here; `semver` and `chrono` enter as
`ManifestParsers`.

* `tryExtractPrefixedField_eq`: one field, with its panics ruled out.
* `tryExtractFieldAs_eq_ok_iff`: a field is read exactly when it is encoded at
  the offset.
* `manifest_exact`: the whole manifest.
-/

namespace Marine.ModuleInfo

open Slices

inductive ManifestError
  | notEnoughBytesForPrefix (fieldName : String)
  | notEnoughBytesForField (fieldName : String) (size : Nat)
  | fieldNotValidUtf8 (fieldName text : String)
  | tooBigFieldSize (fieldName : String) (size : Nat)
  | moduleVersionCorrupted (text : String)
  | manifestRemainderNotEmpty
  | dateTimeParseError (text : String)
  deriving DecidableEq, Repr

inductive ManifestFailure
  | error (e : ManifestError)
  | panicked
  deriving DecidableEq, Repr

abbrev ManifestResult (α : Type) := Except ManifestFailure α

structure ModuleManifest (Version DateTime : Type) where
  authors : String
  version : Version
  description : String
  repository : String
  buildTime : DateTime

/-- `semver::Version::from_str`, `chrono::DateTime::parse_from_rfc3339` and the
text of a `Utf8Error`. -/
structure ManifestParsers (Version DateTime : Type) where
  version : String → Except String Version
  buildTime : String → Except String DateTime
  utf8Error : List UInt8 → String

/-! ## Machine words -/

/-- The targets: `wasm32` and 64-bit hosts. -/
inductive PointerWidth
  | bits32
  | bits64
  deriving DecidableEq, Repr

/-- The number of values of a `usize`. -/
def PointerWidth.size : PointerWidth → Nat
  | .bits32 => 2 ^ 32
  | .bits64 => 2 ^ 64

/-- A slice holds at most `isize::MAX` bytes. -/
structure ByteSlice (width : PointerWidth) where
  bytes : List UInt8
  length_lt : 2 * bytes.length < width.size

def addUsize (width : PointerWidth) (a b : Nat) : ManifestResult Nat :=
  if a + b < width.size then .ok (a + b) else .error .panicked

/-- `&bytes[offset..]`. -/
def sliceFrom (bytes : List UInt8) (offset : Nat) : ManifestResult (List UInt8) :=
  if offset ≤ bytes.length then .ok (bytes.drop offset) else .error .panicked

/-- `&bytes[start..stop]`. -/
def sliceRange (bytes : List UInt8) (start stop : Nat) : ManifestResult (List UInt8) :=
  if start ≤ stop ∧ stop ≤ bytes.length then .ok (slice bytes start (stop - start))
  else .error .panicked

/-! ## Fields -/

section Fields

variable {Version DateTime α : Type}
variable (width : PointerWidth) (parsers : ManifestParsers Version DateTime)

/-- `PREFIX_SIZE`. -/
def prefixSize : Nat := 8

def tryExtractFieldLen (array : List UInt8) (fieldName : String) : ManifestResult Nat :=
  if array.length < prefixSize then .error (.error (.notEnoughBytesForPrefix fieldName))
  else do
    let fieldLen ← sliceRange array 0 prefixSize
    let fieldLen := LittleEndian.decode fieldLen
    if ¬ fieldLen + prefixSize < 2 ^ 64 ∨ ¬ fieldLen + prefixSize < width.size then
      .error (.error (.tooBigFieldSize fieldName fieldLen))
    else .ok fieldLen

def tryExtractField (array : List UInt8) (fieldLen : Nat) (fieldName : String) :
    ManifestResult (List UInt8) := do
  let stop ← addUsize width prefixSize fieldLen
  if array.length < stop then .error (.error (.notEnoughBytesForField fieldName fieldLen))
  else sliceRange array prefixSize stop

def tryExtractPrefixedField (array : List UInt8) (fieldName : String) :
    ManifestResult (List UInt8 × Nat) := do
  let fieldLen ← tryExtractFieldLen width array fieldName
  let field ← tryExtractField width array fieldLen fieldName
  let readSize ← addUsize width prefixSize field.length
  return (field, readSize)

def tryToStr (value : List UInt8) (fieldName : String) : ManifestResult String :=
  match Utf8.decode value with
  | some s => .ok s
  | none => .error (.error (.fieldNotValidUtf8 fieldName (parsers.utf8Error value)))

/-- A field that is converted from a string. -/
def tryExtractFieldAs (convert : String → ManifestResult α) (rawManifest : List UInt8)
    (offset : Nat) (fieldName : String) : ManifestResult (α × Nat) := do
  let rawManifest ← sliceFrom rawManifest offset
  let (fieldAsBytes, readLen) ← tryExtractPrefixedField width rawManifest fieldName
  let fieldAsStr ← tryToStr parsers fieldAsBytes fieldName
  let field ← convert fieldAsStr
  let nextOffset ← addUsize width offset readLen
  return (field, nextOffset)

def tryExtractFieldAsString (rawManifest : List UInt8) (offset : Nat) (fieldName : String) :
    ManifestResult (String × Nat) :=
  tryExtractFieldAs width parsers .ok rawManifest offset fieldName

/-- `semver::Version::from_str` with the error of the manifest. -/
def versionFromStr (text : String) : ManifestResult Version :=
  (parsers.version text).mapError fun e => .error (.moduleVersionCorrupted e)

def tryExtractFieldAsVersion (rawManifest : List UInt8) (offset : Nat) (fieldName : String) :
    ManifestResult (Version × Nat) :=
  tryExtractFieldAs width parsers (versionFromStr parsers) rawManifest offset fieldName

/-- `chrono::DateTime::parse_from_rfc3339` with the error of the manifest. -/
def parseFromRfc3339 (text : String) : ManifestResult DateTime :=
  (parsers.buildTime text).mapError fun e => .error (.dateTimeParseError e)

def tryFrom (value : List UInt8) : ManifestResult (ModuleManifest Version DateTime) := do
  let (authors, nextOffset) ← tryExtractFieldAsString width parsers value 0 "authors"
  let (version, nextOffset) ← tryExtractFieldAsVersion width parsers value nextOffset "version"
  let (description, nextOffset) ←
    tryExtractFieldAsString width parsers value nextOffset "description"
  let (repository, nextOffset) ←
    tryExtractFieldAsString width parsers value nextOffset "repository"
  let (buildTime, nextOffset) ←
    tryExtractFieldAsString width parsers value nextOffset "build time"
  if nextOffset ≠ value.length then .error (.error .manifestRemainderNotEmpty)
  else do
    let buildTime ← parseFromRfc3339 parsers buildTime
    return ⟨authors, version, description, repository, buildTime⟩

end Fields

/-! ## One field -/

section Field

variable {width : PointerWidth} {array field : List UInt8} {fieldName : String}

theorem width_size_le (width : PointerWidth) : width.size ≤ 2 ^ 64 := by
  cases width <;> decide

/-- Where the slice is long enough for what is added, nothing overflows. -/
theorem addUsize_of_le {a b n : Nat} (hn : 2 * n < width.size) (h : a + b ≤ n) :
    addUsize width a b = .ok (a + b) := by
  apply if_pos
  omega

theorem tryExtractFieldLen_eq (fieldName : String) :
    tryExtractFieldLen width array fieldName =
      if array.length < prefixSize then .error (.error (.notEnoughBytesForPrefix fieldName))
      else if ¬ LittleEndian.decode (array.take prefixSize) + prefixSize < width.size then
        .error (.error (.tooBigFieldSize fieldName (LittleEndian.decode (array.take prefixSize))))
      else .ok (LittleEndian.decode (array.take prefixSize)) := by
  unfold tryExtractFieldLen
  by_cases hlength : array.length < prefixSize
  · rw [if_pos hlength, if_pos hlength]
  · have hrange : sliceRange array 0 prefixSize = .ok (array.take prefixSize) := by
      rw [sliceRange, if_pos ⟨Nat.zero_le _, Nat.le_of_not_lt hlength⟩]
      rfl
    have hsize := width_size_le width
    rw [if_neg hlength, if_neg hlength, hrange]
    show (if _ then _ else _) = _
    congr 1
    simp only [eq_iff_iff]
    omega

/-- **Spec of a field.**  None of the additions and slices panics. -/
theorem tryExtractPrefixedField_eq (fieldName : String) :
    tryExtractPrefixedField width array fieldName =
      (tryExtractFieldLen width array fieldName >>= fun fieldLen =>
        if array.length < prefixSize + fieldLen then
          .error (.error (.notEnoughBytesForField fieldName fieldLen))
        else .ok (slice array prefixSize fieldLen, prefixSize + fieldLen)) := by
  rw [tryExtractPrefixedField, tryExtractFieldLen_eq]
  by_cases hlength : array.length < prefixSize
  · rw [if_pos hlength]
    rfl
  · rw [if_neg hlength]
    by_cases hbig : ¬ LittleEndian.decode (array.take prefixSize) + prefixSize < width.size
    · rw [if_pos hbig]
      rfl
    · rw [if_neg hbig]
      generalize LittleEndian.decode (array.take prefixSize) = fieldLen at hbig
      have hadd : addUsize width prefixSize fieldLen = .ok (prefixSize + fieldLen) := by
        apply if_pos
        omega
      show (tryExtractField width array fieldLen fieldName >>= fun field =>
        addUsize width prefixSize field.length >>= fun readSize => .ok (field, readSize)) = _
      rw [tryExtractField, hadd]
      show ((if array.length < prefixSize + fieldLen then _ else _) >>= _) = if _ then _ else _
      by_cases henough : array.length < prefixSize + fieldLen
      · rw [if_pos henough, if_pos henough]
        rfl
      · have hslice : (slice array prefixSize fieldLen).length = fieldLen :=
          length_slice_eq_iff.mpr (.inl (Nat.le_of_not_lt henough))
        have hrange : sliceRange array prefixSize (prefixSize + fieldLen) =
            .ok (slice array prefixSize fieldLen) := by
          rw [sliceRange, if_pos ⟨Nat.le_add_right _ _, Nat.le_of_not_lt henough⟩,
            Nat.add_sub_cancel_left]
        rw [if_neg henough, if_neg henough, hrange]
        show (addUsize width prefixSize (slice array prefixSize fieldLen).length >>= _) = _
        rw [hslice, hadd]
        rfl

/-- **A field is read** exactly when it stands at the start of the bytes. -/
theorem tryExtractPrefixedField_eq_ok_iff {n : Nat} (h : 2 * array.length < width.size) :
    tryExtractPrefixedField width array fieldName = .ok (field, n) ↔
      n = prefixSize + field.length ∧
        ∃ rest, array = LittleEndian.encode prefixSize field.length ++ (field ++ rest) := by
  rw [tryExtractPrefixedField_eq, tryExtractFieldLen_eq]
  constructor
  · intro hok
    obtain ⟨fieldLen, hlen, hok⟩ := Fallible.bind_eq_ok_iff.mp hok
    split at hlen
    · cases hlen
    · rename_i hlength
      split at hlen
      · cases hlen
      · cases hlen
        split at hok
        · cases hok
        · rename_i henough
          cases hok
          have hslice : (slice array prefixSize
              (LittleEndian.decode (array.take prefixSize))).length =
                LittleEndian.decode (array.take prefixSize) :=
            length_slice_eq_iff.mpr (.inl (Nat.le_of_not_lt henough))
          have htake : (array.take prefixSize).length = prefixSize :=
            List.length_take_of_le (Nat.le_of_not_lt hlength)
          have hdigits := LittleEndian.encode_decode (array.take prefixSize)
          rw [htake] at hdigits
          refine ⟨by rw [hslice], array.drop (prefixSize +
            LittleEndian.decode (array.take prefixSize)), ?_⟩
          rw [hslice, hdigits, take_append_slice]
  · rintro ⟨rfl, rest, rfl⟩
    have hsize := width_size_le width
    simp only [List.length_append, LittleEndian.length_encode] at h
    have hlt : field.length < 256 ^ prefixSize := by
      show field.length < 2 ^ 64
      omega
    have htake : (LittleEndian.encode prefixSize field.length ++ (field ++ rest)).take prefixSize =
        LittleEndian.encode prefixSize field.length :=
      List.take_left' (LittleEndian.length_encode _ _)
    have hslice : slice (LittleEndian.encode prefixSize field.length ++ (field ++ rest)) prefixSize
        field.length = field := by
      rw [slice_append_right _ _ (Nat.le_of_eq (LittleEndian.length_encode _ _)),
        LittleEndian.length_encode, Nat.sub_self, slice_zero_append]
    rw [htake, LittleEndian.decode_encode hlt, if_neg (by simp), if_neg (by omega)]
    show (if _ then _ else _) = _
    rw [hslice, if_neg (by simp)]

theorem tryExtractPrefixedField_ne_panicked :
    tryExtractPrefixedField width array fieldName ≠ .error .panicked := by
  rw [tryExtractPrefixedField_eq, tryExtractFieldLen_eq]
  refine Fallible.bind_ne_error_iff.mpr ⟨?_, fun fieldLen _ => ?_⟩
  · split
    · simp
    · split <;> simp
  · split <;> simp

end Field

/-! ## Converted fields -/

/-- `ByteEncoder::add_utf8_field`. -/
def encodeField (field : String) : List UInt8 :=
  LittleEndian.encode prefixSize (Utf8.encode field).length ++ Utf8.encode field

theorem length_encodeField (field : String) :
    (encodeField field).length = prefixSize + (Utf8.encode field).length := by
  rw [encodeField, List.length_append, LittleEndian.length_encode]

section Converted

variable {Version DateTime α : Type} {width : PointerWidth}
  {parsers : ManifestParsers Version DateTime} {convert : String → ManifestResult α}
  {value : List UInt8} {offset : Nat} {fieldName : String}

theorem tryToStr_eq_ok_iff {bytes : List UInt8} {field : String} :
    tryToStr parsers bytes fieldName = .ok field ↔ Utf8.encode field = bytes := by
  rw [← Utf8.decode_eq_some_iff, tryToStr]
  cases Utf8.decode bytes with
  | none => simp
  | some s => simp

theorem sliceFrom_of_le (h : offset ≤ value.length) :
    sliceFrom value offset = .ok (value.drop offset) := if_pos h

/-- **A converted field is read** exactly when it is encoded at the offset. -/
theorem tryExtractFieldAs_eq_ok_iff (hvalue : 2 * value.length < width.size)
    (hoffset : offset ≤ value.length) {a : α} {next : Nat} :
    tryExtractFieldAs width parsers convert value offset fieldName = .ok (a, next) ↔
      ∃ field rest, value.drop offset = encodeField field ++ rest ∧ convert field = .ok a ∧
        next = offset + (encodeField field).length := by
  have hdrop : 2 * (value.drop offset).length < width.size := by
    rw [List.length_drop]
    omega
  rw [tryExtractFieldAs, sliceFrom_of_le hoffset]
  show (tryExtractPrefixedField width (value.drop offset) fieldName >>= _) = _ ↔ _
  constructor
  · intro h
    obtain ⟨⟨bytes, readLen⟩, hbytes, h⟩ := Fallible.bind_eq_ok_iff.mp h
    obtain ⟨field, hfield, h⟩ := Fallible.bind_eq_ok_iff.mp h
    obtain ⟨b, hconvert, h⟩ := Fallible.bind_eq_ok_iff.mp h
    obtain ⟨next', hnext, h⟩ := Fallible.bind_eq_ok_iff.mp h
    cases h
    obtain ⟨rfl, rest, hrest⟩ := (tryExtractPrefixedField_eq_ok_iff hdrop).mp hbytes
    rw [← tryToStr_eq_ok_iff.mp hfield] at hrest hnext
    refine ⟨field, rest, ?_, hconvert, ?_⟩
    · rw [hrest, encodeField, List.append_assoc]
    · rw [length_encodeField]
      unfold addUsize at hnext
      split at hnext
      · cases hnext
        rfl
      · cases hnext
  · rintro ⟨field, rest, hrest, hconvert, rfl⟩
    have hlength := congrArg List.length hrest
    rw [List.length_drop, List.length_append] at hlength
    have hbytes : tryExtractPrefixedField width (value.drop offset) fieldName =
        .ok (Utf8.encode field, prefixSize + (Utf8.encode field).length) := by
      rw [tryExtractPrefixedField_eq_ok_iff hdrop]
      exact ⟨rfl, rest, by rw [hrest, encodeField, List.append_assoc]⟩
    have hnext : addUsize width offset (encodeField field).length =
        .ok (offset + (encodeField field).length) := addUsize_of_le hvalue (by omega)
    refine Fallible.bind_eq_ok_iff.mpr ⟨_, hbytes, ?_⟩
    refine Fallible.bind_eq_ok_iff.mpr ⟨field, tryToStr_eq_ok_iff.mpr rfl, ?_⟩
    refine Fallible.bind_eq_ok_iff.mpr ⟨a, hconvert, ?_⟩
    refine Fallible.bind_eq_ok_iff.mpr ⟨_, ?_, rfl⟩
    rw [← length_encodeField]
    exact hnext

/-- What is left behind a field. -/
theorem drop_field {field : String} {rest : List UInt8} (hoffset : offset ≤ value.length)
    (h : value.drop offset = encodeField field ++ rest) :
    offset + (encodeField field).length ≤ value.length ∧
      value.drop (offset + (encodeField field).length) = rest := by
  have hlength := congrArg List.length h
  rw [List.length_drop, List.length_append] at hlength
  refine ⟨by omega, ?_⟩
  rw [← List.drop_drop, h, List.drop_left]

/-- A field is read off the front of what is left. -/
theorem read_field (parsers : ManifestParsers Version DateTime)
    (convert : String → ManifestResult α) (fieldName : String)
    (hvalue : 2 * value.length < width.size) (hoffset : offset ≤ value.length) {field : String}
    {rest : List UInt8} (hrest : value.drop offset = encodeField field ++ rest) {a : α}
    (hconvert : convert field = .ok a) :
    ∃ next, tryExtractFieldAs width parsers convert value offset fieldName = .ok (a, next) ∧
      next ≤ value.length ∧ value.drop next = rest := by
  obtain ⟨hnext, hdrop⟩ := drop_field hoffset hrest
  exact ⟨_, (tryExtractFieldAs_eq_ok_iff hvalue hoffset).mpr ⟨field, rest, hrest, hconvert, rfl⟩,
    hnext, hdrop⟩

/-- **No field panics** when its conversion does not. -/
theorem tryExtractFieldAs_ne_panicked (hvalue : 2 * value.length < width.size)
    (hoffset : offset ≤ value.length)
    (hconvert : ∀ field, convert field ≠ .error .panicked) :
    tryExtractFieldAs width parsers convert value offset fieldName ≠ .error .panicked := by
  have hdrop : 2 * (value.drop offset).length < width.size := by
    rw [List.length_drop]
    omega
  rw [tryExtractFieldAs, sliceFrom_of_le hoffset]
  show (tryExtractPrefixedField width (value.drop offset) fieldName >>= _) ≠ _
  refine Fallible.bind_ne_error_iff.mpr ⟨tryExtractPrefixedField_ne_panicked, ?_⟩
  rintro ⟨bytes, readLen⟩ hbytes
  obtain ⟨rfl, rest, hrest⟩ := (tryExtractPrefixedField_eq_ok_iff hdrop).mp hbytes
  have hlength := congrArg List.length hrest
  simp only [List.length_drop, List.length_append, LittleEndian.length_encode] at hlength
  refine Fallible.bind_ne_error_iff.mpr ⟨?_, fun field _ => ?_⟩
  · rw [tryToStr]
    split <;> simp
  · refine Fallible.bind_ne_error_iff.mpr ⟨hconvert field, fun a _ => ?_⟩
    rw [addUsize_of_le hvalue (by omega)]
    simp

end Converted

/-! ## The manifest -/

/-- The five fields one after the other. -/
def encodeManifest (authors version description repository buildTime : String) : List UInt8 :=
  encodeField authors ++ (encodeField version ++ (encodeField description ++
    (encodeField repository ++ encodeField buildTime)))

section Manifest

variable {Version DateTime : Type} {width : PointerWidth}
  {parsers : ManifestParsers Version DateTime}

/-- The bytes are the fields of the manifest, with texts of its version and its
build time. -/
def IsManifest (parsers : ManifestParsers Version DateTime) (bytes : List UInt8)
    (m : ModuleManifest Version DateTime) : Prop :=
  ∃ version buildTime, parsers.version version = .ok m.version ∧
    parsers.buildTime buildTime = .ok m.buildTime ∧
    bytes = encodeManifest m.authors version m.description m.repository buildTime

/-- A string field and what is behind it. -/
theorem string_field {value : List UInt8} {offset next : Nat} {fieldName field : String}
    (hvalue : 2 * value.length < width.size) (hoffset : offset ≤ value.length)
    (h : tryExtractFieldAsString width parsers value offset fieldName = .ok (field, next)) :
    next ≤ value.length ∧ value.drop offset = encodeField field ++ value.drop next := by
  obtain ⟨field', rest, hrest, hfield, rfl⟩ := (tryExtractFieldAs_eq_ok_iff hvalue hoffset).mp h
  cases hfield
  obtain ⟨hnext, hdrop⟩ := drop_field hoffset hrest
  exact ⟨hnext, by rw [hdrop, hrest]⟩

theorem version_field {value : List UInt8} {offset next : Nat} {fieldName : String}
    {version : Version} (hvalue : 2 * value.length < width.size) (hoffset : offset ≤ value.length)
    (h : tryExtractFieldAsVersion width parsers value offset fieldName = .ok (version, next)) :
    next ≤ value.length ∧ ∃ field, parsers.version field = .ok version ∧
      value.drop offset = encodeField field ++ value.drop next := by
  obtain ⟨field, rest, hrest, hfield, rfl⟩ := (tryExtractFieldAs_eq_ok_iff hvalue hoffset).mp h
  obtain ⟨hnext, hdrop⟩ := drop_field hoffset hrest
  exact ⟨hnext, field, Fallible.mapError_eq_ok_iff.mp hfield, by rw [hdrop, hrest]⟩

/-- **Soundness.** -/
theorem isManifest_of_tryFrom {value : List UInt8} {m : ModuleManifest Version DateTime}
    (hvalue : 2 * value.length < width.size) (h : tryFrom width parsers value = .ok m) :
    IsManifest parsers value m := by
  obtain ⟨⟨authors, n₁⟩, h₁, h⟩ := Fallible.bind_eq_ok_iff.mp h
  obtain ⟨⟨version, n₂⟩, h₂, h⟩ := Fallible.bind_eq_ok_iff.mp h
  obtain ⟨⟨description, n₃⟩, h₃, h⟩ := Fallible.bind_eq_ok_iff.mp h
  obtain ⟨⟨repository, n₄⟩, h₄, h⟩ := Fallible.bind_eq_ok_iff.mp h
  obtain ⟨⟨buildTime, n₅⟩, h₅, h⟩ := Fallible.bind_eq_ok_iff.mp h
  dsimp only at h₂ h₃ h₄ h₅ h
  split at h
  · cases h
  · rename_i hend
    obtain ⟨time, htime, h⟩ := Fallible.bind_eq_ok_iff.mp h
    cases h
    obtain ⟨hn₁, hauthors⟩ := string_field hvalue (Nat.zero_le _) h₁
    obtain ⟨hn₂, text, hversion, htext⟩ := version_field hvalue hn₁ h₂
    obtain ⟨hn₃, hdescription⟩ := string_field hvalue hn₂ h₃
    obtain ⟨hn₄, hrepository⟩ := string_field hvalue hn₃ h₄
    obtain ⟨hn₅, hbuildTime⟩ := string_field hvalue hn₄ h₅
    refine ⟨text, buildTime, hversion, Fallible.mapError_eq_ok_iff.mp htime, ?_⟩
    rw [List.drop_zero] at hauthors
    rw [encodeManifest, hauthors, htext, hdescription, hrepository, hbuildTime, not_not.mp hend,
      List.drop_length, List.append_nil]

/-- **Completeness.** -/
theorem tryFrom_of_isManifest {value : List UInt8} {m : ModuleManifest Version DateTime}
    (hvalue : 2 * value.length < width.size) (h : IsManifest parsers value m) :
    tryFrom width parsers value = .ok m := by
  obtain ⟨version, buildTime, hversion, hbuildTime, hbytes⟩ := h
  obtain ⟨n₁, h₁, hn₁, hr₁⟩ := read_field parsers .ok "authors" hvalue (Nat.zero_le _) hbytes rfl
  obtain ⟨n₂, h₂, hn₂, hr₂⟩ := read_field parsers (versionFromStr parsers) "version" hvalue hn₁
    hr₁ (Fallible.mapError_eq_ok_iff.mpr hversion)
  obtain ⟨n₃, h₃, hn₃, hr₃⟩ := read_field parsers .ok "description" hvalue hn₂ hr₂ rfl
  obtain ⟨n₄, h₄, hn₄, hr₄⟩ := read_field parsers .ok "repository" hvalue hn₃ hr₃ rfl
  obtain ⟨n₅, h₅, hn₅, hr₅⟩ := read_field parsers .ok "build time" hvalue hn₄
    (hr₄.trans (List.append_nil _).symm) rfl
  have hend : n₅ = value.length := by
    have hleft := congrArg List.length hr₅
    rw [List.length_drop, List.length_nil] at hleft
    omega
  refine Fallible.bind_eq_ok_iff.mpr ⟨_, h₁, Fallible.bind_eq_ok_iff.mpr ⟨_, h₂, ?_⟩⟩
  refine Fallible.bind_eq_ok_iff.mpr ⟨_, h₃, Fallible.bind_eq_ok_iff.mpr ⟨_, h₄, ?_⟩⟩
  refine Fallible.bind_eq_ok_iff.mpr ⟨_, h₅, ?_⟩
  show (if n₅ ≠ value.length then _ else _) = _
  rw [if_neg (not_not.mpr hend)]
  exact Fallible.bind_eq_ok_iff.mpr ⟨_, Fallible.mapError_eq_ok_iff.mpr hbuildTime, rfl⟩

theorem tryFrom_ne_panicked {value : List UInt8} (hvalue : 2 * value.length < width.size) :
    tryFrom width parsers value ≠ .error .panicked := by
  have hmapError : ∀ {ε α : Type} (x : Except ε α) (f : ε → ManifestError),
      (x.mapError fun e => ManifestFailure.error (f e)) ≠ .error .panicked := by
    intro ε α x f
    cases x <;> simp [Except.mapError]
  have hstring : ∀ (offset : Nat) (fieldName : String), offset ≤ value.length →
      tryExtractFieldAsString width parsers value offset fieldName ≠ .error .panicked :=
    fun offset fieldName hoffset =>
      tryExtractFieldAs_ne_panicked hvalue hoffset fun field => by simp
  have hversion : ∀ (offset : Nat) (fieldName : String), offset ≤ value.length →
      tryExtractFieldAsVersion width parsers value offset fieldName ≠ .error .panicked :=
    fun offset fieldName hoffset =>
      tryExtractFieldAs_ne_panicked hvalue hoffset fun field => hmapError _ _
  refine Fallible.bind_ne_error_iff.mpr ⟨hstring _ _ (Nat.zero_le _), ?_⟩
  rintro ⟨authors, n₁⟩ h₁
  have hn₁ := (string_field hvalue (Nat.zero_le _) h₁).1
  refine Fallible.bind_ne_error_iff.mpr ⟨hversion _ _ hn₁, ?_⟩
  rintro ⟨version, n₂⟩ h₂
  have hn₂ := (version_field hvalue hn₁ h₂).1
  refine Fallible.bind_ne_error_iff.mpr ⟨hstring _ _ hn₂, ?_⟩
  rintro ⟨description, n₃⟩ h₃
  have hn₃ := (string_field hvalue hn₂ h₃).1
  refine Fallible.bind_ne_error_iff.mpr ⟨hstring _ _ hn₃, ?_⟩
  rintro ⟨repository, n₄⟩ h₄
  have hn₄ := (string_field hvalue hn₃ h₄).1
  refine Fallible.bind_ne_error_iff.mpr ⟨hstring _ _ hn₄, ?_⟩
  rintro ⟨buildTime, n₅⟩ -
  dsimp only
  split
  · simp
  · refine Fallible.bind_ne_error_iff.mpr ⟨hmapError _ _, fun time _ hpanic => ?_⟩
    cases hpanic

end Manifest

/-- **Manifests.**  On every slice and every target the parser returns, and it
accepts exactly the encoded manifests; in particular it decodes what was encoded
with texts that the parsers of the version and the build time read back. -/
theorem manifest_exact {Version DateTime : Type} (width : PointerWidth)
    (parsers : ManifestParsers Version DateTime) (b : ByteSlice width) :
    tryFrom width parsers b.bytes ≠ .error .panicked ∧
    (∀ m, tryFrom width parsers b.bytes = .ok m ↔ IsManifest parsers b.bytes m) ∧
    ∀ (versionText : Version → String) (buildTimeText : DateTime → String)
      (m : ModuleManifest Version DateTime),
      parsers.version (versionText m.version) = .ok m.version →
      parsers.buildTime (buildTimeText m.buildTime) = .ok m.buildTime →
      b.bytes = encodeManifest m.authors (versionText m.version) m.description m.repository
        (buildTimeText m.buildTime) →
      tryFrom width parsers b.bytes = .ok m := by
  refine ⟨tryFrom_ne_panicked b.length_lt, fun m => ?_, ?_⟩
  · exact ⟨isManifest_of_tryFrom b.length_lt, tryFrom_of_isManifest b.length_lt⟩
  · intro versionText buildTimeText m hversion hbuildTime hbytes
    exact tryFrom_of_isManifest b.length_lt ⟨_, _, hversion, hbuildTime, hbytes⟩

end Marine.ModuleInfo
