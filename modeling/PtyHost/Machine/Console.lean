import PtyHost.CommandLine.Bridge
import PtyHost.CommandLine.Setup
import PtyHost.Emulation.TitleTracker
import PtyHost.Input.Reader
import PtyHost.Machine.Stage

/-!
# Running the command line on a machine

The program with a user in front of it, who types, sends signals and changes the size of the window,
each when enough output has been seen. All that can happen by itself happens before the user does
the next thing, and all that before the clock goes on.
-/

namespace PtyHost.Machine

open CommandLine

/-- What the user does: type something, end the input, send the program a signal, or change the size
of the window. -/
inductive Action
  | type (data : Bytes)
  | endInput
  | signal (s : Signal)
  | resize (size : WindowSize)
deriving DecidableEq, Repr

/-- Something that the user does once a number of bytes of output has been seen. -/
structure Act where
  seen : Nat
  action : Action
deriving DecidableEq, Repr

/-- The user: the size of their window, if they have one, what they will do, and whether they end
the input after that. -/
structure User where
  window : Option WindowSize := none
  acts : List Act := []
  endsInput : Bool := true
deriving DecidableEq, Repr

/-- The user after an action, with what they will do then. -/
def User.after (user : User) (rest : List Act) : Action → User
  | .resize size => { user with acts := rest, window := user.window.map fun _ ↦ size }
  | _ => { user with acts := rest }

/-- How the program ends: with a code, by a signal, or not at all. -/
inductive Exit
  | code (n : Nat)
  | signal (s : Signal)
  | never
deriving DecidableEq, Repr

/-- What can be seen of the program when it has ended: how it did, its output, the lines in which it
told of failures, and the requests for permissions that were heard. -/
structure Report where
  exit : Exit
  output : Bytes := []
  failures : List String := []
  requests : List Broker.Mode := []
deriving DecidableEq, Repr

/-- The code of a program that failed. -/
def failureCode : Nat := 1

/-- The code of a program that could not use its arguments. -/
def usageCode : Nat := 2

/-- The code of a program that was given up because the clock overflowed. -/
def abortCode : Nat := 101

/-- The size of the blocks that input is forwarded in. -/
def inputBlock : Nat := 1024

/-- The program while its session is running. -/
structure Console where
  setting : Setting
  now : Nat
  standing : Standing Emulation.TitleTracker
  seat : Seat
  user : User

namespace Console

/-- Something happens to the program. -/
def meet (c : Console) (b : Bridge Emulation.TitleTracker) (o : Occurrence) : Console :=
  let (standing, trace) := b.step o (c.setting.answers c.now)
  { c with standing, seat := c.seat.performAll trace }

/-- Several things happen to the program, as long as it goes on. -/
def meetAll (c : Console) (os : List Occurrence) : Console :=
  os.foldl
    (fun c o ↦
      match c.standing with
      | .crossing b => c.meet b o
      | _ => c)
    c

/-- The output so far. -/
def output (c : Console) : Bytes := c.standing.session.emulation.sink.contents

/-- The signals that a program does not die of, and that ask for nothing either. -/
def unheard : List Signal := Signal.pipe :: .stop :: Process.harmless

/-- What an action of the user is for the program: things that happen to it, or its death. -/
def occurrences (user : User) : Action → List Occurrence ⊕ Signal
  | .type data => .inl (if data = [] then [] else (Input.blocksOf inputBlock data).map .input)
  | .endInput => .inl [.inputEnded]
  | .signal .term | .signal .hup => .inl [.stopRequested]
  | .signal .winch => .inl [.windowChanged (usableSize? user.window)]
  | .signal s => if s ∈ unheard then .inl [] else .inr s
  | .resize size =>
    .inl (if user.window.isSome ∧ user.window ≠ some size then
      [.windowChanged (usableSize? (some size))] else [])

/-- What comes next: what happens by itself, or what the user does, or else the clock goes on. -/
def next (c : Console) (b : Bridge Emulation.TitleTracker) (r : Running) : Console ⊕ Exit :=
  let w := b.activity.wait
  match b.activity, b.notifications with
  | .stepping _, _ :: _ => .inl (c.meet b .notified)
  | _, _ =>
    match c.seat.next? r w c.now with
    | some wake => .inl ({ c with seat := c.seat.taken wake }.meet b (.woke wake))
    | none =>
      let shown := b.session.emulation.sink.contents.length
      match c.user.acts.head?.filter fun act ↦ act.seen ≤ shown with
      | some act =>
        let user := c.user.after c.user.acts.tail act.action
        match occurrences c.user act.action with
        | .inl os =>
          let os := if b.inputOpen then os else os.filter fun o ↦
            match o with
            | .input _ => false
            | _ => true
          .inl ({ c with user }.meetAll os)
        | .inr s => .inr (.signal s)
      | none =>
        if c.user.acts.isEmpty && c.user.endsInput then
          .inl ({ c with user := { c.user with endsInput := false } }.meetAll [.inputEnded])
        else
          match (Seat.deadlines r w).min? with
          | some t => .inl { c with now := max c.now t }
          | none => .inr .never

/-- What can be seen when the program ends as it stands. -/
def report (c : Console) (exit : Exit) (failures : List String) (seat : Seat) : Report where
  exit
  output := c.output
  failures
  requests := if c.setting.authority.hears c.setting.host then seat.requests else []

/-- The seat after the program has let go of its session. -/
def letGo (c : Console) (s : Session Emulation.TitleTracker) : Seat :=
  c.seat.performAll (s.drop (c.setting.answers c.now))

/-- Goes on until the program has ended, for at most `fuel` moments. -/
def lead : Nat → Console → Report
  | 0, c => c.report .never [] c.seat
  | fuel + 1, c =>
    match c.standing with
    | .ended s code => c.report (.code code) [] (c.letGo s)
    | .failed s e => c.report (.code failureCode) [(Failure.session e).line] (c.letGo s)
    | .overflow s => c.report (.code abortCode) [] (c.letGo s)
    | .crossing b =>
      match b.session.running? with
      | none => lead fuel { c with standing := b.settle }
      | some r =>
        match c.next b r with
        | .inl c => lead fuel c
        | .inr exit => c.report exit [] c.seat

end Console

/-- The report of a program that failed before it ran anything. -/
def Report.ofFailure (f : Failure) : Report := { exit := .code failureCode, failures := [f.line] }

/-- The variable that names the home directory. -/
def homeVariable : Bytes := Bytes.ofAscii "HOME"

/-- Runs what was planned, in the first session of a registry. -/
def runPlan (h : Host) (now : Nat) (user : User) (p : Plan) : Report :=
  let authority := Authority.client (Broker.Client.ofConfig p.config.broker)
  let home := (h.environment.get? homeVariable).map fun dir ↦ (⟨dir⟩ : Path)
  match Registry.ofConfig home p.config with
  | .error e => .ofFailure (.config e)
  | .ok registry =>
    match registry.create ({} : Emulation.TitleTracker) with
    | .error e => .ofFailure (.session e)
    | .ok (id, registry) =>
      match registry.get? id with
      | none => .ofFailure (.session .notRunning)
      | some session =>
        let stage : Stage Emulation.TitleTracker :=
          { setting := ⟨h, authority⟩, now, session }
        let (verdict, stage) := stage.run p.program p.args p.term
        let standing := Standing.begun stage.session verdict (usableSize? user.window).isSome
        Console.lead Stage.patience
          { setting := stage.setting, now, standing, seat := stage.seat, user }

/-- Text as the user sees it. A terminal processes what is printed while nothing runs on it. -/
def User.sees (user : User) (lines : List String) : Bytes :=
  let data := Utf8.encode (String.join (lines.map fun line ↦ line ++ "\n"))
  if user.window.isSome then withReturns data else data

/-- Runs the program with arguments, those behind its name. -/
def runCommand (h : Host) (now : Nat) (user : User) (args : List Bytes) : Report :=
  match request? args with
  | none => { exit := .code usageCode }
  | some .help => { exit := .code 0 }
  | some .version => { exit := .code 0, output := user.sees [versionLine] }
  | some .shells => { exit := .code 0, output := user.sees (Shell.detect h.files h.directory) }
  | some (.run args) =>
    match plan h.files h.directory h.environment user.window args with
    | .error e => .ofFailure (.config e)
    | .ok p => runPlan h now user p

end PtyHost.Machine
