import PtyHost.Text.Bytes
import PtyHost.Text.Utf8

/-!
# Escape sequences

The state machine of a video terminal, one byte at a time. It finds the control characters, the
operating system commands (`ESC ]`) and the control sequences (`ESC [`) in terminal output.
Device control strings and the other strings are skipped, and so is text: no byte of a character
beyond ASCII means anything to the machine, so text needs no decoding.

Blocks of output matter in one place. If a block ends within a two-byte character, the block that
completes the character may lose an ASCII byte behind it (`heeded`). Where no block ends so, the way
in which output is cut does not matter.
-/

namespace PtyHost.Escape

/-- The byte that starts an escape sequence. -/
def esc : UInt8 := 0x1B

/-- The bell, which also ends a command. -/
def bel : UInt8 := 0x07

/-- A complete control sequence. It is `malformed` if it has more values or intermediate bytes
than the machine keeps. -/
structure ControlSequence where
  values : List UInt16
  intermediates : Bytes
  malformed : Bool
  final : UInt8
deriving DecidableEq, Repr

/-- What the machine finds: a control character, the fields of a command, or a control sequence. -/
inductive Token
  | control (code : UInt8)
  | command (fields : List Bytes)
  | sequence (s : ControlSequence)
deriving DecidableEq, Repr

/-- The number of values that a control sequence keeps. -/
def maxValues : Nat := 32

/-- The number of intermediate bytes that a control sequence keeps. -/
def maxIntermediates : Nat := 2

/-- The number of fields that a command keeps. -/
def maxFields : Nat := 16

/-- A control sequence being read: its finished values and its intermediate bytes, the newest
first, and the value of the digits since. -/
structure Arguments where
  finished : List UInt16 := []
  current : UInt16 := 0
  intermediates : Bytes := []
  malformed : Bool := false
deriving DecidableEq, Repr

namespace Arguments

/-- Whether no further value is kept. -/
def isFull (a : Arguments) : Bool := maxValues ≤ a.finished.length

/-- Reads a digit. Values stop at the largest 16-bit number. -/
def digit (a : Arguments) (d : Nat) : Arguments :=
  if a.isFull then { a with malformed := true }
  else { a with current := (min 65535 (a.current.toNat * 10 + d)).toUInt16 }

/-- Ends a value. -/
def endValue (a : Arguments) : Arguments :=
  if a.isFull then { a with malformed := true }
  else { a with finished := a.current :: a.finished, current := 0 }

/-- Reads an intermediate byte or a private marker. -/
def collect (a : Arguments) (b : UInt8) : Arguments :=
  if maxIntermediates ≤ a.intermediates.length then { a with malformed := true }
  else { a with intermediates := b :: a.intermediates }

/-- Ends the control sequence with its final byte. -/
def close (a : Arguments) (final : UInt8) : ControlSequence :=
  let last := a.endValue
  ⟨last.finished.reverse, last.intermediates.reverse, last.malformed, final⟩

end Arguments

/-- The part of a control sequence or device control string in front of its final byte. -/
inductive Phase
  | entry
  | values
  | intermediates
deriving DecidableEq, Repr

/-- Where the machine is: in text, with the mark of a two-byte character that has only begun, behind
an ESC, in a control sequence, in one that is skipped, in a command with the bytes read so far, the
newest first, at the start of a device control string, in its contents, or in a string that is
skipped. -/
inductive State
  | ground (begun : Bool)
  | escape
  | escapeIntermediate
  | sequence (phase : Phase) (args : Arguments)
  | skippedSequence
  | command (collected : Bytes)
  | deviceEntry (phase : Phase)
  | deviceString
  | skippedString
deriving DecidableEq, Repr

/-- Text in which no two-byte character has begun. -/
abbrev State.text : State := .ground false

/-- The control characters that cancel a sequence. -/
def isCancel (b : UInt8) : Bool := b = 0x18 || b = 0x1A

/-- The control characters that neither cancel nor start a sequence. -/
def isPlainControl (b : UInt8) : Bool := b < 0x20 && !isCancel b && b ≠ esc

/-- Intermediate bytes. -/
def isIntermediate (b : UInt8) : Bool := 0x20 ≤ b && b < 0x30

/-- Bytes that values are made of, and private markers. -/
def isParameter (b : UInt8) : Bool := 0x30 ≤ b && b < 0x40

/-- Decimal digits. -/
def isDigit (b : UInt8) : Bool := 0x30 ≤ b && b < 0x3A

/-- The two bytes that end a value. -/
def isSeparator (b : UInt8) : Bool := b = 0x3A || b = 0x3B

/-- Bytes that end a control sequence. -/
def isFinal (b : UInt8) : Bool := 0x40 ≤ b && b < 0x7F

section Kinds

variable {b : UInt8}

/-- The characters that cancel, by their numbers. -/
theorem isCancel_iff : isCancel b = true ↔ b.toNat = 0x18 ∨ b.toNat = 0x1A := by
  simp [isCancel, ← UInt8.toNat_inj]

/-- The control characters that neither cancel nor start a sequence, by their numbers. -/
theorem isPlainControl_iff :
    isPlainControl b = true ↔
      b.toNat < 0x20 ∧ b.toNat ≠ 0x18 ∧ b.toNat ≠ 0x1A ∧ b.toNat ≠ 0x1B := by
  simp [isPlainControl, isCancel, esc, ← UInt8.toNat_inj, UInt8.lt_iff_toNat_lt, and_assoc]

/-- The range of the intermediate bytes. -/
theorem isIntermediate_iff : isIntermediate b = true ↔ 0x20 ≤ b.toNat ∧ b.toNat < 0x30 := by
  simp [isIntermediate, UInt8.le_iff_toNat_le, UInt8.lt_iff_toNat_lt]

/-- The range of the bytes that values are made of, and of the private markers. -/
theorem isParameter_iff : isParameter b = true ↔ 0x30 ≤ b.toNat ∧ b.toNat < 0x40 := by
  simp [isParameter, UInt8.le_iff_toNat_le, UInt8.lt_iff_toNat_lt]

/-- The range of the digits. -/
theorem isDigit_iff : isDigit b = true ↔ 0x30 ≤ b.toNat ∧ b.toNat < 0x3A := by
  simp [isDigit, UInt8.le_iff_toNat_le, UInt8.lt_iff_toNat_lt]

/-- The bytes that end a value, by their numbers. -/
theorem isSeparator_iff : isSeparator b = true ↔ b.toNat = 0x3A ∨ b.toNat = 0x3B := by
  simp [isSeparator, ← UInt8.toNat_inj]

/-- The range of the bytes that end a control sequence. -/
theorem isFinal_iff : isFinal b = true ↔ 0x40 ≤ b.toNat ∧ b.toNat < 0x7F := by
  simp [isFinal, UInt8.le_iff_toNat_le, UInt8.lt_iff_toNat_lt]

end Kinds

/-- What every state but those of text, ESC and strings with an end of their own makes of a byte
that it does not know: cancelling characters and ESC leave the state, and nothing else does. -/
def otherwise (s : State) (b : UInt8) : State × List Token :=
  if isCancel b then (.text, [.control b])
  else if b = esc then (.escape, [])
  else (s, [])

/-- The bytes that begin a character of two bytes. -/
def beginsPair (b : UInt8) : Bool := 0xC2 ≤ b && b < 0xE0

/-- A step in text. A byte that begins a character does so whatever stands before it. -/
def stepGround (b : UInt8) : State × List Token :=
  if b = esc then (.escape, [])
  else if b < 0x20 then (.text, [.control b])
  else (.ground (beginsPair b), [])

/-- A step behind an ESC. -/
def stepEscape (b : UInt8) : State × List Token :=
  if isCancel b then (.text, [.control b])
  else if isPlainControl b then (.escape, [.control b])
  else if b = esc ∨ 0x7F ≤ b then (.escape, [])
  else if isIntermediate b then (.escapeIntermediate, [])
  else if b = 0x50 then (.deviceEntry .entry, [])
  else if b = 0x5B then (.sequence .entry {}, [])
  else if b = 0x5D then (.command [], [])
  else if b = 0x58 ∨ b = 0x5E ∨ b = 0x5F then (.skippedString, [])
  else (.text, [])

/-- A step behind an ESC and intermediate bytes. -/
def stepEscapeIntermediate (b : UInt8) : State × List Token :=
  if isPlainControl b then (.escapeIntermediate, [.control b])
  else if 0x30 ≤ b ∧ b < 0x7F then (.text, [])
  else otherwise .escapeIntermediate b

/-- A step in a control sequence. Control characters in it count as if they stood before it, and a
private marker may only be its first byte. -/
def stepSequence (phase : Phase) (a : Arguments) (b : UInt8) : State × List Token :=
  if isPlainControl b then (.sequence phase a, [.control b])
  else if isFinal b then (.text, [.sequence (a.close b)])
  else if isIntermediate b then (.sequence .intermediates (a.collect b), [])
  else if isParameter b then
    if phase = .intermediates then (.skippedSequence, [])
    else if isDigit b then (.sequence .values (a.digit (b.toNat - 0x30)), [])
    else if isSeparator b then (.sequence .values a.endValue, [])
    else if phase = .entry then (.sequence .values (a.collect b), [])
    else (.skippedSequence, [])
  else otherwise (.sequence phase a) b

/-- A step in a control sequence that is skipped. -/
def stepSkippedSequence (b : UInt8) : State × List Token :=
  if isPlainControl b then (.skippedSequence, [.control b])
  else if isFinal b then (.text, [])
  else otherwise .skippedSequence b

/-- The command of the bytes collected. -/
def closeCommand (collected : Bytes) : Token :=
  .command ((Bytes.fields 0x3B collected.reverse).take maxFields)

/-- A step in a command. It ends at a bell, at a cancelling character, which counts by itself too,
or at an ESC; other control characters in it are dropped. -/
def stepCommand (collected : Bytes) (b : UInt8) : State × List Token :=
  if b = bel then (.text, [closeCommand collected])
  else if isCancel b then (.text, [closeCommand collected, .control b])
  else if b = esc then (.escape, [closeCommand collected])
  else if b < 0x20 then (.command collected, [])
  else (.command (b :: collected), [])

/-- A step at the start of a device control string, up to its final byte. -/
def stepDeviceEntry (phase : Phase) (b : UInt8) : State × List Token :=
  if isFinal b then (.deviceString, [])
  else if isIntermediate b then (.deviceEntry .intermediates, [])
  else if isParameter b then
    if phase = .intermediates then (.skippedString, [])
    else if isDigit b ∨ isSeparator b ∨ phase = .entry then (.deviceEntry .values, [])
    else (.skippedString, [])
  else otherwise (.deviceEntry phase) b

/-- A step in the contents of a device control string, which an 8-bit terminator ends as well. -/
def stepDeviceString (b : UInt8) : State × List Token :=
  if b = 0x9C then (.text, []) else otherwise .deviceString b

/-- Reads one byte. -/
def step : State → UInt8 → State × List Token
  | .ground _ => stepGround
  | .escape => stepEscape
  | .escapeIntermediate => stepEscapeIntermediate
  | .sequence phase a => stepSequence phase a
  | .skippedSequence => stepSkippedSequence
  | .command collected => stepCommand collected
  | .deviceEntry phase => stepDeviceEntry phase
  | .deviceString => stepDeviceString
  | .skippedString => otherwise .skippedString

/-- Reads bytes: the state behind them and the tokens in them. -/
def run (s : State) : Bytes → State × List Token
  | [] => (s, [])
  | b :: bytes =>
    let (next, found) := step s b
    let (last, rest) := run next bytes
    (last, found ++ rest)

/-- What the machine heeds of a block. If the block completes a two-byte character, an ASCII byte
right behind that character is lost whenever a byte beyond ASCII follows it. -/
def heeded (s : State) : Bytes → Bytes
  | b :: lost :: next :: block =>
    if s = .ground true ∧ Utf8.isContinuation b ∧ lost < 0x80 ∧ 0x80 ≤ next then
      b :: next :: block
    else b :: lost :: next :: block
  | block => block

/-- Reads a block: the state behind it and the tokens in it. -/
def feed (s : State) (block : Bytes) : State × List Token := run s (heeded s block)

/-- Reading goes on where it stopped. -/
theorem run_append (s : State) (a b : Bytes) :
    run s (a ++ b) = ((run (run s a).1 b).1, (run s a).2 ++ (run (run s a).1 b).2) := by
  induction a generalizing s with
  | nil => simp [run]
  | cons x a ih => simp [run, ih]

end PtyHost.Escape
