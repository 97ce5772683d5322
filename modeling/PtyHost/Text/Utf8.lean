import PtyHost.Text.Bytes

/-!
# UTF-8

A decoder that reads one byte at a time. It turns a byte string into pieces, each a character or
the mark of a malformed stretch: the longest beginning of a character that the next byte does not
continue, or a single byte that begins none. The strict reading wants no such mark; the lossy one
shows each as U+FFFD.

Main statements: `pieces_append_ascii` says that an ASCII byte ends whatever came before it, so
lossy text can be cut at ASCII separators (`decodeLossy_append_ascii`).
-/

namespace PtyHost.Utf8

/-- The UTF-8 form of a text. -/
def encode (s : String) : Bytes := s.toList.flatMap String.utf8EncodeChar

/-- What the decoder holds between two bytes: nothing, or a character begun, with the number of
bytes still to come, the range of the next one and the value so far. -/
inductive Pending
  | nothing
  | begun (missing : Nat) (low high : UInt8) (value : Nat)
deriving DecidableEq, Repr

/-- A character, or `none` for a malformed stretch. -/
abbrev Piece := Option Char

/-- Reads the first byte of a character. The ranges of the second byte exclude overlong forms,
surrogates and values beyond U+10FFFF. -/
def begin (b : UInt8) : Pending × List Piece :=
  if b < 0x80 then (.nothing, [some (Char.ofNat b.toNat)])
  else if b < 0xC2 then (.nothing, [none])
  else if b < 0xE0 then (.begun 1 0x80 0xBF (b.toNat - 0xC0), [])
  else if b = 0xE0 then (.begun 2 0xA0 0xBF 0, [])
  else if b = 0xED then (.begun 2 0x80 0x9F 0xD, [])
  else if b < 0xF0 then (.begun 2 0x80 0xBF (b.toNat - 0xE0), [])
  else if b = 0xF0 then (.begun 3 0x90 0xBF 0, [])
  else if b < 0xF4 then (.begun 3 0x80 0xBF (b.toNat - 0xF0), [])
  else if b = 0xF4 then (.begun 3 0x80 0x8F 4, [])
  else (.nothing, [none])

/-- Bytes that only occur inside a character. -/
def isContinuation (b : UInt8) : Bool := 0x80 ≤ b && b < 0xC0

/-- The range of the bytes that go on with a character. -/
theorem isContinuation_iff {b : UInt8} :
    isContinuation b = true ↔ 0x80 ≤ b.toNat ∧ b.toNat < 0xC0 := by
  simp [isContinuation, UInt8.le_iff_toNat_le, UInt8.lt_iff_toNat_lt]

/-- Reads one byte. A byte that does not continue the character begun ends it as malformed and is
read afresh. -/
def step : Pending → UInt8 → Pending × List Piece
  | .nothing, b => begin b
  | .begun missing low high value, b =>
    if isContinuation b ∧ low ≤ b ∧ b ≤ high then
      let value := value * 64 + (b.toNat - 0x80)
      if missing ≤ 1 then (.nothing, [some (Char.ofNat value)])
      else (.begun (missing - 1) 0x80 0xBF value, [])
    else
      let (next, found) := begin b
      (next, none :: found)

/-- What the end of input makes of the character begun. -/
def Pending.finish : Pending → List Piece
  | .nothing => []
  | .begun .. => [none]

/-- A decoder at work: what it holds and the pieces found, the newest first. -/
structure Decoder where
  pending : Pending := .nothing
  found : List Piece := []

/-- Reads one byte. -/
def Decoder.push (d : Decoder) (b : UInt8) : Decoder :=
  let (pending, pieces) := step d.pending b
  ⟨pending, pieces.reverse ++ d.found⟩

/-- Reads a byte string. -/
def Decoder.run (d : Decoder) (s : Bytes) : Decoder := s.foldl Decoder.push d

/-- The pieces of a byte string. -/
def pieces (s : Bytes) : List Piece :=
  let d := Decoder.run {} s
  d.found.reverse ++ d.pending.finish

/-- The text of a byte string that holds nothing malformed. -/
def decode? (s : Bytes) : Option String := ((pieces s).mapM id).map String.ofList

/-- The text of a byte string, with U+FFFD for each malformed stretch. -/
def decodeLossy (s : Bytes) : String := String.ofList ((pieces s).map (·.getD '\uFFFD'))

/-- A decoder that has found pieces before finds the same ones after them. -/
theorem Decoder.run_found (p : Pending) (found : List Piece) (s : Bytes) :
    Decoder.run ⟨p, found⟩ s =
      ⟨(Decoder.run ⟨p, []⟩ s).pending, (Decoder.run ⟨p, []⟩ s).found ++ found⟩ := by
  induction s generalizing p found with
  | nil => simp [run]
  | cons b s ih =>
    simp only [run, List.foldl_cons, push, List.append_nil] at ih ⊢
    rw [ih, ih (step p b).1 (step p b).2.reverse]
    simp

/-- An ASCII byte continues no character. -/
theorem isContinuation_ascii {b : UInt8} (h : b < 0x80) : isContinuation b = false := by
  simp [isContinuation, UInt8.not_le.2 h]

/-- An ASCII byte ends the character begun, if any, and stands for itself. -/
theorem step_ascii (p : Pending) {b : UInt8} (h : b < 0x80) :
    step p b = (.nothing, p.finish ++ [some (Char.ofNat b.toNat)]) := by
  cases p with
  | nothing => simp [step, begin, h, Pending.finish]
  | begun missing low high value =>
    simp [step, begin, h, Pending.finish, isContinuation_ascii h]

/-- An ASCII byte cuts a byte string where nothing can be in the middle of a character. -/
theorem pieces_append_ascii (s rest : Bytes) {b : UInt8} (h : b < 0x80) :
    pieces (s ++ b :: rest) = pieces s ++ some (Char.ofNat b.toNat) :: pieces rest := by
  simp only [pieces, Decoder.run, List.foldl_append, List.foldl_cons]
  rw [Decoder.push, step_ascii _ h]
  have hrun := Decoder.run_found .nothing
    ((Pending.finish (Decoder.run {} s).pending ++ [some (Char.ofNat b.toNat)]).reverse ++
      (Decoder.run {} s).found) rest
  simp only [Decoder.run] at hrun
  rw [hrun]
  simp

/-- Lossy text can be cut at an ASCII byte. -/
theorem decodeLossy_append_ascii (s rest : Bytes) {b : UInt8} (h : b < 0x80) :
    decodeLossy (s ++ b :: rest) =
      decodeLossy s ++ String.ofList [Char.ofNat b.toNat] ++ decodeLossy rest := by
  rw [decodeLossy, pieces_append_ascii s rest h, ← String.toList_inj]
  simp [decodeLossy]

end PtyHost.Utf8
