import PtyHost.Emulation.Basic
import PtyHost.Emulation.Escape
import PtyHost.Emulation.Sink
import PtyHost.Text.Numeral
import PtyHost.Text.Utf8

/-!
# The title tracker

An emulation that copies output to a sink and reports the few sequences that a session has to act
on: titles, bells, status reports and requests for another window size. Scroll lock holds the
output until it is let go.
-/

namespace PtyHost.Emulation

/-- The kinds of title: 0 for user title and icon text, 1 for the icon text, 2 for the user title,
30 for the session's title and 32 for the icon name. -/
def titleKinds : List UInt16 := [0, 1, 2, 30, 32]

/-- The answer to a status report: the terminal is in order. -/
def statusAnswer : Bytes := [0x1B, 0x5B, 0x30, 0x6E]

/-- The caption in the fields of a title, which itself may hold semicolons. -/
def caption (fields : List Bytes) : String := ";".intercalate (fields.map Utf8.decodeLossy)

/-- What the fields of a command report: a title, if the first is the number of a kind of title
and there are more. -/
def ofCommand : List Bytes → Option Event
  | what :: field :: fields => do
    let kind ← Numeral.word? (← Utf8.decode? what)
    guard (kind ∈ titleKinds)
    return .userTitle kind (caption (field :: fields))
  | _ => none

/-- What a control sequence reports: a status report asked for, or a window size. Sequences with
private markers or intermediate bytes mean something else. -/
def ofSequence (s : Escape.ControlSequence) : Option Event :=
  if s.malformed ∨ s.intermediates ≠ [] then none
  else if s.final = 0x6E ∧ s.values = [5] then some (.write statusAnswer)
  else if s.final = 0x74 then
    match s.values with
    | [8, rows, cols] => some (.sizeRequest ⟨rows, cols⟩)
    | _ => none
  else none

/-- What a token reports. -/
def ofToken : Escape.Token → Option Event
  | .control code => if code = Escape.bel then some .bell else none
  | .command fields => ofCommand fields
  | .sequence s => ofSequence s

/-- A title tracker: its sink, the state of its parser, the events not yet handed out, the newest
first, the window size that it was last told, and whether scroll lock holds the output. -/
structure TitleTracker where
  sink : Sink := {}
  parser : Escape.State := .text
  reported : List Event := []
  size : WindowSize := ⟨0, 0⟩
  held : Bool := false
deriving DecidableEq, Repr

namespace TitleTracker

/-- Reads one byte of output. -/
def push (t : TitleTracker) (b : UInt8) : TitleTracker :=
  let (parser, found) := Escape.step t.parser b
  { t with parser, reported := (found.filterMap ofToken).reverse ++ t.reported }

/-- Copies a block of output and reads it. A sink that refuses the block does not keep it from
being read. -/
def receive (t : TitleTracker) (block : Bytes) : TitleTracker :=
  (Escape.heeded t.parser block).foldl push { t with sink := t.sink.write block }

/-- Pushing bytes is one run of the parser. -/
theorem foldl_push (t : TitleTracker) (bytes : Bytes) :
    bytes.foldl push t =
      { t with
        parser := (Escape.run t.parser bytes).1
        reported :=
          ((Escape.run t.parser bytes).2.filterMap ofToken).reverse ++ t.reported } := by
  induction bytes generalizing t with
  | nil => simp [Escape.run]
  | cons b bytes ih => simp [ih, push, Escape.run]

/-- A block is fed to the parser, and the events of its tokens are reported. -/
theorem receive_eq (t : TitleTracker) (block : Bytes) :
    t.receive block =
      { t with
        sink := t.sink.write block
        parser := (Escape.feed t.parser block).1
        reported :=
          ((Escape.feed t.parser block).2.filterMap ofToken).reverse ++ t.reported } := by
  simp [receive, foldl_push, Escape.feed]

/-- The user toggled scroll lock. Only a change is reported. -/
def scrollLock (t : TitleTracker) (locked : Bool) : TitleTracker :=
  if t.held = locked then t
  else { t with held := locked, reported := .lock locked :: t.reported }

instance : Emulation TitleTracker where
  receive := receive
  takeEvents t := (t.reported.reverse, { t with reported := [] })
  resized t size := { t with size }
  scrollLock := scrollLock

end TitleTracker

end PtyHost.Emulation
