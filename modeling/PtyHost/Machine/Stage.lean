import PtyHost.Machine.Seat
import PtyHost.Session.Start

/-!
# Running a session on a machine

A session with its seat, on a machine with a clock. An operation that waits is led on until it has
ended: what the seat has in store happens at once, and only when nothing does the clock goes on, to
the next point in time that the operation waits for.
-/

namespace PtyHost.Machine

/-- A machine, and who decides about permissions on it. -/
structure Setting where
  host : Host
  authority : Authority := .client .nobody

/-- What the setting answers to a session. -/
def Setting.answers (s : Setting) (now : Nat) : Answers where
  now
  grant := s.authority.answer s.host .grant
  revoke := s.authority.answer s.host .revoke

/-- A session on a machine. -/
structure Stage (ε : Type) where
  setting : Setting
  now : Nat
  session : Session ε
  seat : Seat := {}

/-- How the leading on of an operation ends: with the operation, because enough was seen, because
the time is up, or because nothing more can happen. -/
inductive Ending
  | ended (v : Verdict Nat)
  | enough
  | late
  | stuck
deriving DecidableEq, Repr

namespace Stage

variable {ε : Type}

/-- Whether there is nobody any more in the process group of the program: it has been reaped, and
what it left behind has ended. -/
def isDeserted (st : Stage ε) : Bool :=
  st.session.running?.any (!·.child.isRunning) && !st.seat.isFollowed

/-- What the machine answers at present. -/
def answers (st : Stage ε) : Answers :=
  { st.setting.answers st.now with
    deliver := if st.isDeserted then .error .noProcess else .ok () }

/-- Goes on to what an operation has made of the session. -/
def reach (st : Stage ε) (t : Traced ε) : Stage ε :=
  { st with session := t.session, seat := st.seat.performAll t.trace }

/-- Starts a program. -/
def run (st : Stage ε) (program : String) (args : List String) (term : String) :
    Verdict Unit × Stage ε :=
  let start := st.setting.host.start (st.session.launch program args term)
  let a := { st.answers with spawn := start.map fun _ ↦ 1 }
  let o := st.session.run program a
  (o.verdict,
    { st with session := o.session, seat := st.seat.performAll o.trace start.toOption })

/-- Does what takes no time. -/
def act {α : Type} (st : Stage ε) (f : Session ε → Answers → Outcome ε α) :
    Verdict α × Stage ε :=
  let o := f st.session st.answers
  (o.verdict, st.reach o.toTraced)

/-- What comes next for an operation: something happens to it, or the clock goes on, but not beyond
`limit`; `none` if nothing does. -/
def next? [Emulation ε] (st : Stage ε) (w : Session.Wait) (limit : Option Nat) :
    Option (Session.Progress × Stage ε) :=
  match st.session.running? with
  | none =>
    let step := st.session.resume w .silence st.answers
    some (step.progress, st.reach step.toTraced)
  | some r =>
    match st.seat.next? r w st.now with
    | some wake =>
      let step := st.session.resume w wake st.answers
      some (step.progress, { st with seat := st.seat.taken wake }.reach step.toTraced)
    | none =>
      match (Seat.deadlines r w).min? with
      | none => none
      | some t =>
        if limit.any (· < t) then none
        else some (.waiting w, { st with now := max st.now t })

/-- Leads an operation on, for at most `fuel` moments, until `enough` of the session is so. -/
def lead [Emulation ε] (enough : Session ε → Seat → Bool) (limit : Option Nat) :
    Nat → Session.Progress → Stage ε → Ending × Stage ε
  | 0, _, st => (.stuck, st)
  | fuel + 1, progress, st =>
    match progress with
    | .ended v => (.ended v, st)
    | .waiting w =>
      if enough st.session st.seat then (.enough, st)
      else
        match st.next? w limit with
        | some (progress, st) => lead enough limit fuel progress st
        | none =>
          match limit with
          | some t => (.late, { st with now := max st.now t })
          | none => (.stuck, st)

/-- More moments than any script takes. -/
def patience : Nat := 1000000

/-- Begins an operation and leads it on. -/
def drive [Emulation ε] (st : Stage ε) (begin : Session ε → Answers → Session.Advance ε)
    (enough : Session ε → Seat → Bool := fun _ _ ↦ false) (limit : Option Nat := none) :
    Ending × Stage ε :=
  let step := begin st.session st.answers
  lead enough limit patience step.progress (st.reach step.toTraced)

/-- Takes one dispatch step. -/
def process [Emulation ε] (st : Stage ε) : Ending × Stage ε := st.drive fun s _ ↦ s.process

/-- Waits until the session has finished. -/
def waitForEnd [Emulation ε] (st : Stage ε) : Ending × Stage ε :=
  st.drive fun s _ ↦ s.runUntilFinished

/-- Waits until `enough` of the session is so or the session has finished. -/
def waitUntil [Emulation ε] (st : Stage ε) (enough : Session ε → Bool) : Ending × Stage ε :=
  st.drive (fun s _ ↦ s.runUntilFinished) fun s _ ↦ enough s

/-- Waits until there has been a notification of a kind. -/
def waitForNews [Emulation ε] (st : Stage ε) (kind : Notification → Bool) : Ending × Stage ε :=
  st.drive (fun s _ ↦ s.runUntilFinished) fun _ seat ↦ seat.notifications.any kind

/-- Lets time go by, for a span. -/
def idle [Emulation ε] (st : Stage ε) (span : Nat) : Ending × Stage ε :=
  st.drive (fun s _ ↦ s.runUntilFinished) (fun _ _ ↦ false) (some (st.now + span))

/-- Asks the program to end. -/
def terminate [Emulation ε] (st : Stage ε) : Ending × Stage ε := st.drive fun s a ↦ s.terminate a

/-- Kills the program. -/
def kill [Emulation ε] (st : Stage ε) : Ending × Stage ε := st.drive fun s a ↦ s.kill a

/-- Lets go of the session. -/
def drop (st : Stage ε) : Seat := st.seat.performAll (st.session.drop st.answers)

end Stage

end PtyHost.Machine
