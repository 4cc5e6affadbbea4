import Marine.Backend.Memory
import Marine.Lib.Bytes

/-!
# Logging from a guest

`log_utf8_string` (`marine/src/host_imports/logger`).  The guest chooses all four
numbers; `none` is a panic of the host.

* `logged_iff`: what is logged is the string at the place the guest names.
* `logging_returns_iff`: the host survives a call exactly when the mask drops the
  message or its place lies in the memory.
-/

namespace Marine.HostImports

open Marine.Backend
open Slices

/-- `log::Level`. -/
inductive Level where
  | error
  | warn
  | info
  | debug
  | trace
  deriving DecidableEq, Repr

/-- `log::Level::max()`. -/
def Level.max : Level := .trace

/-- What comes of a call. -/
inductive LogOutcome where
  | dropped
  | logged (level : Level) (target msg : String)
  | incorrectString
  deriving DecidableEq, Repr

def levelFromI32 (level : Int32) : Level :=
  if level = 1 then .error
  else if level = 2 then .warn
  else if level = 3 then .info
  else if level = 4 then .debug
  else if level = 5 then .trace
  else Level.max

variable {Mem : Type} [LinearMemory Mem]

/-- `memory` is `ctx.memory(0)`, which is unwrapped. -/
def readString (backend : WasmBackend) (memory : Option Mem) (offset size : Int32) :
    Option (Option String) := do
  let view ← memory
  let bytes ← backend.readVec view offset.toUInt32 size.toUInt32
  return Utf8.decode bytes

def logUtf8String (backend : WasmBackend) (module : String) (memory : Option Mem)
    (level msgOffset msgSize : Int32) : Option LogOutcome := do
  match ← readString backend memory msgOffset msgSize with
  | some msg => return .logged (levelFromI32 level) module msg
  | none => return .incorrectString

def logUtf8StringClosure (backend : WasmBackend) (loggingMask : Int32) (module : String)
    (memory : Option Mem) (level target msgOffset msgSize : Int32) : Option LogOutcome :=
  if target = 0 ∨ target &&& loggingMask ≠ 0 then
    logUtf8String backend module memory level msgOffset msgSize
  else some .dropped

/-- A named target whose bits the mask lacks. -/
def DroppedByMask (loggingMask target : Int32) : Prop :=
  target ≠ 0 ∧ target &&& loggingMask = 0

/-- The guest has a memory, and the message can be read from it. -/
def MessageInMemory (backend : WasmBackend) (memory : Option Mem)
    (msgOffset msgSize : Int32) : Prop :=
  ∃ mem, memory = some mem ∧
    backend.Readable (LinearMemory.length mem) msgOffset.toUInt32 msgSize.toUInt32

section Logging

variable {backend : WasmBackend} {loggingMask : Int32} {module : String}
  {memory : Option Mem} {level target msgOffset msgSize : Int32}

theorem closure_of_dropped (h : DroppedByMask loggingMask target) :
    logUtf8StringClosure backend loggingMask module memory level target msgOffset msgSize =
      some .dropped := by
  apply if_neg
  rintro (hzero | hmask)
  · exact h.1 hzero
  · exact hmask h.2

theorem closure_of_not_dropped (h : ¬ DroppedByMask loggingMask target) :
    logUtf8StringClosure backend loggingMask module memory level target msgOffset msgSize =
      logUtf8String backend module memory level msgOffset msgSize := by
  apply if_pos
  by_contra hneither
  apply h
  simpa [DroppedByMask] using hneither

theorem readString_eq_some_iff {read : Option String} :
    readString backend memory msgOffset msgSize = some read ↔ ∃ mem, memory = some mem ∧
      backend.Readable (LinearMemory.length mem) msgOffset.toUInt32 msgSize.toUInt32 ∧
      Utf8.decode (slice (LinearMemory.bytes mem) msgOffset.toUInt32.toNat
        msgSize.toUInt32.toNat) = read := by
  cases memory with
  | none => simp [readString]
  | some mem =>
    simp only [readString, Option.bind_eq_bind, Option.bind_some, Option.bind_eq_some_iff,
      Option.pure_def, Option.some.injEq, WasmBackend.readVec_eq_some_iff]
    constructor
    · rintro ⟨bytes, ⟨hreadable, rfl⟩, hread⟩
      exact ⟨mem, rfl, hreadable, hread⟩
    · rintro ⟨_, rfl, hreadable, hread⟩
      exact ⟨_, ⟨hreadable, rfl⟩, hread⟩

theorem readString_isSome_iff :
    (readString backend memory msgOffset msgSize).isSome ↔
      MessageInMemory backend memory msgOffset msgSize := by
  rw [Option.isSome_iff_exists]
  constructor
  · rintro ⟨read, hread⟩
    obtain ⟨mem, hmem, hreadable, -⟩ := readString_eq_some_iff.mp hread
    exact ⟨mem, hmem, hreadable⟩
  · rintro ⟨mem, hmem, hreadable⟩
    exact ⟨_, readString_eq_some_iff.mpr ⟨mem, hmem, hreadable, rfl⟩⟩

theorem logUtf8String_isSome_iff :
    (logUtf8String backend module memory level msgOffset msgSize).isSome ↔
      MessageInMemory backend memory msgOffset msgSize := by
  rw [← readString_isSome_iff, logUtf8String]
  cases readString backend memory msgOffset msgSize with
  | none => simp
  | some read => cases read <;> simp

theorem closure_isSome_iff :
    (logUtf8StringClosure backend loggingMask module memory level target msgOffset
        msgSize).isSome ↔
      DroppedByMask loggingMask target ∨ MessageInMemory backend memory msgOffset msgSize := by
  by_cases hdrop : DroppedByMask loggingMask target
  · rw [closure_of_dropped hdrop]
    simp [hdrop]
  · rw [closure_of_not_dropped hdrop, logUtf8String_isSome_iff]
    simp [hdrop]

/-- **Logged messages.**  A message is logged under the name of its module and at
its level when it passes the mask and is UTF-8 in the memory of the guest. -/
theorem logged_iff {level' : Level} {target' msg : String} :
    logUtf8StringClosure backend loggingMask module memory level target msgOffset msgSize =
        some (.logged level' target' msg) ↔
      ¬ DroppedByMask loggingMask target ∧ level' = levelFromI32 level ∧ target' = module ∧
      ∃ mem, memory = some mem ∧
        backend.Readable (LinearMemory.length mem) msgOffset.toUInt32 msgSize.toUInt32 ∧
        Utf8.encode msg = slice (LinearMemory.bytes mem) msgOffset.toUInt32.toNat
          msgSize.toUInt32.toNat := by
  by_cases hdrop : DroppedByMask loggingMask target
  · rw [closure_of_dropped hdrop]
    simp [hdrop]
  · rw [closure_of_not_dropped hdrop]
    have hread : logUtf8String backend module memory level msgOffset msgSize =
          some (.logged level' target' msg) ↔
        readString backend memory msgOffset msgSize = some (some msg) ∧
          level' = levelFromI32 level ∧ target' = module := by
      rw [logUtf8String]
      cases readString backend memory msgOffset msgSize with
      | none => simp
      | some read =>
        cases read with
        | none => simp
        | some msg' =>
          simp only [Option.bind_eq_bind, Option.bind_some, Option.pure_def, Option.some.injEq,
            LogOutcome.logged.injEq]
          constructor
          · rintro ⟨rfl, rfl, rfl⟩
            exact ⟨rfl, rfl, rfl⟩
          · rintro ⟨rfl, rfl, rfl⟩
            exact ⟨rfl, rfl, rfl⟩
    rw [hread, readString_eq_some_iff]
    simp only [Utf8.decode_eq_some_iff]
    constructor
    · rintro ⟨hmem, hlevel, htarget⟩
      exact ⟨hdrop, hlevel, htarget, hmem⟩
    · rintro ⟨-, hlevel, htarget, hmem⟩
      exact ⟨hmem, hlevel, htarget⟩

end Logging

/-- **Logging.**  The host gets over a call exactly when the mask drops the
message or the guest has a memory in which the message lies. -/
theorem logging_returns_iff (backend : WasmBackend) (loggingMask : Int32) (module : String)
    (memory : Option Mem) (level target msgOffset msgSize : Int32) :
    (logUtf8StringClosure backend loggingMask module memory level target msgOffset
        msgSize).isSome ↔
      DroppedByMask loggingMask target ∨ MessageInMemory backend memory msgOffset msgSize :=
  closure_isSome_iff

/-- A message behind the end of a memory of one page. -/
theorem message_outside_panics :
    logUtf8StringClosure .wasmtime 0 "curl" (some onePage) 3 0 65536 1 = none ∧
      logUtf8StringClosure .js 0 "curl" (some onePage) 3 0 65536 1 = none := by
  have hnamed : ¬ DroppedByMask 0 0 := fun hdrop => hdrop.1 rfl
  constructor
  · rw [← Option.not_isSome_iff_eq_none, closure_isSome_iff]
    rintro (hdrop | ⟨_, ⟨⟩, hreadable⟩)
    · exact hnamed hdrop
    · rw [length_onePage] at hreadable
      revert hreadable
      show ¬ (65536 + 1 ≤ 65536)
      decide
  · rw [← Option.not_isSome_iff_eq_none, closure_isSome_iff]
    rintro (hdrop | ⟨_, ⟨⟩, hreadable⟩)
    · exact hnamed hdrop
    · rw [length_onePage] at hreadable
      revert hreadable
      show ¬ (1 ≤ JsMemory.isizeMax ∧ 65536 + 1 < 2 ^ 32 ∧ (65536 + 1 ≤ 65536 ∨ 1 = 0))
      decide

end Marine.HostImports
