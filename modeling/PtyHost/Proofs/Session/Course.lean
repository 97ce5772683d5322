import PtyHost.Session.Dispatch
import PtyHost.Session.Start

/-!
# The course of a session

A session is led through moves: its operations, and the moments at which something happens that an
operation has been waiting for. An operation that waits is given up when anything else is done to
the session. A course is a session with all that happened to it so far.

Main statements: `Course.run_append`, and `Course.invariant_run`, by which what every move keeps is
so throughout a course.
-/

namespace PtyHost

/-- The verdict on a value that something is made of. -/
def Verdict.map {α β : Type} (f : α → β) : Verdict α → Verdict β
  | .done value => .done (f value)
  | .failed e => .failed e
  | .overflow => .overflow

namespace Session

variable {ε : Type}

/-- Something that is done to a session, or that happens to it. -/
inductive Move
  | run (program : String) (a : Answers)
  | send (data : Bytes)
  | resize (size : WindowSize) (a : Answers)
  | signal (sig : Signal) (a : Answers)
  | sendSignal (number : Int) (a : Answers)
  | setScrollLock (locked : Bool)
  | setMonitorActivity (monitor : Bool)
  | setMonitorSilence (monitor : Bool) (now : Nat)
  | setSilenceTimeout (span now : Nat)
  | setWriteable (allowed : Bool) (a : Answers)
  | setUserTitle (what : UInt16) (caption : String)
  | setKeymap (keymap : String)
  | process
  | runUntilFinished
  | terminate (a : Answers)
  | kill (a : Answers)
  | abandon
  | happen (wake : Wake) (a : Answers)

/-- What an operation waits for, if it has not ended. -/
def Progress.wait? : Progress → Option Wait
  | .waiting w => some w
  | .ended _ => none

/-- An operation that does not wait for anything, as one that has ended. -/
def finished (o : Outcome ε Unit) : Advance ε :=
  reaching o.toTraced (.ended (o.verdict.map fun () ↦ 0))

/-- Makes a move on a session. The operation that waits goes on if something happens to it. -/
def Move.act [Emulation ε] (m : Move) (s : Session ε) (waiting : Option Wait) : Advance ε :=
  match m with
  | .run program a => finished (s.run program a)
  | .send data => finished (s.send data)
  | .resize size a => finished (s.resize size a)
  | .signal sig a => finished (s.signal sig a)
  | .sendSignal number a => finished (s.sendSignal number a)
  | .setScrollLock locked => finished ((s.setScrollLock locked).ending (.done ()))
  | .setMonitorActivity monitor => reaching ⟨s.setMonitorActivity monitor, []⟩ (.ended (.done 0))
  | .setMonitorSilence monitor now => finished (s.setMonitorSilence monitor now)
  | .setSilenceTimeout span now => finished (s.setSilenceTimeout span now)
  | .setWriteable allowed a => finished (s.setWriteable allowed a)
  | .setUserTitle what caption => finished ((s.setUserTitle what caption).ending (.done ()))
  | .setKeymap keymap => reaching ⟨s.setKeymap keymap, []⟩ (.ended (.done 0))
  | .process => s.process
  | .runUntilFinished => s.runUntilFinished
  | .terminate a => s.terminate a
  | .kill a => s.kill a
  | .abandon => reaching ⟨s, []⟩ (.ended (.done 0))
  | .happen wake a =>
    match waiting with
    | some w => s.resume w wake a
    | none => reaching ⟨s, []⟩ (.ended (.done 0))

/-- A session with what it did so far, the operation that waits, and the statuses that its program
was reported to have ended with. -/
structure Course (ε : Type) extends Traced ε where
  waiting : Option Wait := none
  exits : List ExitStatus := []

namespace Course

/-- The beginning of a course. -/
def start (s : Session ε) : Course ε := { session := s }

/-- What happens in a move to the operation that waits, if it waits for that. -/
def heard? (c : Course ε) : Move → Option Wake
  | .happen wake a =>
    match c.session.current?, c.waiting with
    | some r, some w => if enables r w wake a.now then some wake else none
    | _, _ => none
  | _ => none

/-- The status that a move reports the program to have ended with. -/
def exit? (c : Course ε) (m : Move) : Option ExitStatus :=
  match c.heard? m with
  | some (.exited status) => some status
  | _ => none

/-- What is heard in a move happens to the operation that waits, while the program is running. -/
theorem heard?_eq_some_iff {c : Course ε} {m : Move} {wake : Wake} :
    c.heard? m = some wake ↔
      ∃ a r w, m = .happen wake a ∧ c.session.current? = some r ∧ c.waiting = some w ∧
        enables r w wake a.now = true := by
  cases m with
  | happen wake a =>
    cases hp : c.session.current? <;> cases hw : c.waiting <;> simp [heard?, hp, hw]
    grind
  | _ => simp [heard?]

/-- What is heard is no end of the program if it is something else. -/
theorem exit?_eq_none {c : Course ε} {m : Move} {wake : Wake} (h : c.heard? m = some wake)
    (hwake : ∀ status, wake ≠ .exited status) : c.exit? m = none := by
  unfold exit?
  rw [h]
  split
  · next status hs => exact absurd (Option.some.inj hs) (hwake status)
  · rfl

/-- The course that goes on with what a move has made of the session. -/
def after (c : Course ε) (m : Move) (next : Advance ε) : Course ε where
  session := next.session
  trace := c.trace ++ next.trace
  waiting := next.progress.wait?
  exits := c.exits ++ (c.exit? m).toList

variable [Emulation ε]

/-- What a move makes of the session. -/
def advance (c : Course ε) (m : Move) : Advance ε := m.act c.session c.waiting

/-- Makes a move. -/
def step (c : Course ε) (m : Move) : Course ε := c.after m (c.advance m)

/-- Whether a move asks for a point in time that the clock cannot show. -/
def overflows (c : Course ε) (m : Move) : Bool := (c.advance m).progress = .ended .overflow

/-- Makes moves, one after the other. -/
def run (c : Course ε) (moves : List Move) : Course ε := moves.foldl step c

/-- Whether no move on the way asks for a point in time that the clock cannot show. -/
def staysInTime (c : Course ε) : List Move → Bool
  | [] => true
  | m :: moves => !c.overflows m && (c.step m).staysInTime moves

@[simp] theorem run_nil (c : Course ε) : c.run [] = c := rfl

@[simp] theorem run_cons (c : Course ε) (m : Move) (moves : List Move) :
    c.run (m :: moves) = (c.step m).run moves := rfl

/-- Moves may be made in two parts. -/
theorem run_append (c : Course ε) (first second : List Move) :
    c.run (first ++ second) = (c.run first).run second := by
  simp [run, List.foldl_append]

/-- What every move keeps is so throughout a course. -/
theorem always_run {P : Course ε → Prop} (hstep : ∀ c m, P c → P (c.step m)) {c : Course ε}
    (hc : P c) (moves : List Move) : P (c.run moves) := by
  induction moves generalizing c with
  | nil => exact hc
  | cons m moves ih => exact ih (hstep c m hc)

/-- What every move keeps that stays in time is so throughout a course that does. -/
theorem invariant_run {P : Course ε → Prop}
    (hstep : ∀ c m, P c → c.overflows m = false → P (c.step m)) {c : Course ε} (hc : P c)
    {moves : List Move} (h : c.staysInTime moves = true) : P (c.run moves) := by
  induction moves generalizing c with
  | nil => exact hc
  | cons m moves ih =>
    simp only [staysInTime, Bool.and_eq_true, Bool.not_eq_true'] at h
    exact ih (hstep c m hc h.1) h.2

end Course

end Session

end PtyHost
