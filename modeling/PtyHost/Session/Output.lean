import PtyHost.Clock
import PtyHost.Session.Basic

/-!
# Output and titles

Output goes to the emulation, and what the emulation reports is acted on at once. Output that
arrives after a quiet spell is announced, and so is the silence after it.
-/

namespace PtyHost.Session

variable {ε : Type}

/-- Tells the owner something. -/
def notify (s : Session ε) (n : Notification) : Traced ε := ⟨s, [.notified n]⟩

/-- Sets a title of some kind. The owner is told if this changes anything. -/
def setUserTitle (s : Session ε) (what : UInt16) (caption : String) : Traced ε :=
  match s.titles.put? what caption with
  | none => ⟨s, []⟩
  | some titles =>
    if titles = s.titles then ⟨s, []⟩ else { s with titles }.notify (.titleChanged s.id)

/-- Suspends or resumes the reading of output. -/
def lockOutput (s : Session ε) (locked : Bool) : Session ε :=
  { s with outputLocked := locked }.modifyRunning fun r ↦ { r with locked }

/-- Queues input for the running program. -/
def enqueue (s : Session ε) (data : Bytes) : Traced ε :=
  match s.running? with
  | some r => ⟨s.setRunning { r with pending := r.pending ++ [data] }, [.queued data]⟩
  | none => ⟨s, []⟩

/-- Acts on an event of the emulation. -/
def apply (s : Session ε) : Emulation.Event → Traced ε
  | .write data => s.enqueue data
  | .userTitle what caption => s.setUserTitle what caption
  | .sizeRequest size => s.notify (.resizeRequested s.id size)
  | .bell => s.notify (.bell s.id)
  | .lock locked => ⟨s.lockOutput locked, []⟩

/-- Acts on events, one after the other. -/
def applyAll (s : Session ε) (events : List Emulation.Event) : Traced ε :=
  events.foldl (fun t e ↦ t.andThen (·.apply e)) ⟨s, []⟩

/-- Acts on the events that the emulation has reported. -/
def takeEvents [Emulation ε] (s : Session ε) : Traced ε :=
  let (events, emulation) := Emulation.takeEvents s.emulation
  { s with emulation }.applyAll events

/-- Hands a block of output to the emulation and acts on what it reports. -/
def feed [Emulation ε] (s : Session ε) (block : Bytes) : Traced ε :=
  (⟨{ s with emulation := Emulation.receive s.emulation block }, [.fed block]⟩ : Traced ε).andThen
    takeEvents

/-- Starts the silence countdown of a running program; `none` if the clock cannot show its end. -/
def armSilence (s : Session ε) (now : Nat) : Option (Session ε) :=
  (Clock.after? now s.options.silenceTimeout).map fun t ↦
    s.modifyRunning fun r ↦ { r with silenceAt := some t }

/-- Whether output is watched for at all. -/
def monitorsOutput (s : Session ε) : Bool := s.options.monitorActivity || s.options.monitorSilence

/-- Announces output, once in each burst. -/
def announce (s : Session ε) : Traced ε :=
  if s.notified then ⟨s, []⟩
  else if s.options.monitorActivity then { s with notified := true }.notify (.activity s.id)
  else ⟨{ s with notified := true }, []⟩

/-- Takes note of a block of output and hands it on. If output is watched for, it is announced and
the silence countdown starts again; if the clock cannot show its end, the block is lost. -/
def noteOutput [Emulation ε] (s : Session ε) (block : Bytes) (now : Nat) : Outcome ε Nat :=
  if s.monitorsOutput then
    let announced := s.announce
    match announced.session.armSilence now with
    | none => announced.ending .overflow
    | some armed =>
      ((⟨armed, announced.trace⟩ : Traced ε).andThen fun s ↦ s.feed block).ending
        (.done block.length)
  else (s.feed block).ending (.done block.length)

/-- The silence countdown has come to its end. -/
def silenceElapsed (s : Session ε) : Traced ε :=
  let quiet := { s with notified := false }.modifyRunning fun r ↦ { r with silenceAt := none }
  if s.options.monitorSilence then quiet.notify (.silence s.id) else ⟨quiet, []⟩

/-- Setting a title changes the titles and nothing else. -/
theorem session_setUserTitle (s : Session ε) (what : UInt16) (caption : String) :
    (s.setUserTitle what caption).session =
      { s with titles := (s.titles.put? what caption).getD s.titles } := by
  unfold setUserTitle
  split
  · simp [*]
  · rename_i titles h
    by_cases ht : titles = s.titles
    · simp [h, ht]
    · simp [h, ht, notify]

end PtyHost.Session
