import PtyHost.CommandLine.Bridge
import PtyHost.Proofs.Session.Deadlines
import PtyHost.Proofs.Session.Resumption

/-!
# The bridge and the course of its session

A crossing is all that happens to a bridge, from the start of the program on. Whatever happens, and
in whatever order, the session of the bridge goes through moves of its own: each step of the bridge
is a few of them, and a step that was given up is begun again by one. So what holds throughout the
course of a session holds throughout a crossing.

Main statements: `Bridge.turn`, what an occurrence can be for a bridge; `Mirrors.step` and
`OnCourse.run`, by which the session of a bridge is on a course.
-/

namespace PtyHost

namespace Session

variable {ε : Type}

/-- A program that was started is running. -/
theorem isRunning_run {s : Session ε} (hs : s.phase.WellFormed) {program : String} {a : Answers}
    (h : (s.run program a).verdict = .done ()) : (s.run program a).session.isRunning = true := by
  have hattempt := attempt hs program a
  revert hattempt h
  generalize s.run program a = o
  intro h hattempt
  cases hattempt with
  | started => rfl
  | refused | failed | aborted => cases h

variable [Emulation ε]

/-- A program is running that an operation waits for after a move, if one was running before. -/
theorem Passage.isRunning_of_waiting {c : Course ε} {m : Move}
    {next : Advance ε} (h : Passage c m next) (hc : c.session.isRunning = true) {w : Wait}
    (hw : next.progress = .waiting w) : next.session.isRunning = true := by
  cases h with
  | edits _ _ edits _ => exact edits.alike.isRunning.trans hc
  | output _ before after _ _ _ => exact (before.alike.through after.alike).isRunning.trans hc
  | closed | reaped => rfl
  | lost | refused | aborted | started | ended | drained => cases hw

/-- A session that runs a program or has ended does so after any move. -/
theorem begun_step {c : Course ε} (hc : c.session.phase.WellFormed)
    (h : c.session.isRunning = true ∨ c.session.isTerminated = true) (m : Move) :
    (c.step m).session.isRunning = true ∨ (c.step m).session.isTerminated = true := by
  obtain hnext | ⟨r, hnext⟩ | ⟨status, hnext⟩ := Course.wellFormed_step hc m
  · have hidle := Course.idle_of_step hc hnext
    simp [isRunning_of_idle hidle, isTerminated_of_idle hidle] at h
  · exact .inl (isRunning_of_running hnext)
  · exact .inr (by simp [isTerminated, hnext])

end Session

namespace CommandLine

open Session (Course Move Advance Wait finished)

variable {ε : Type}

/-- What is heard in an occurrence, if the bridge waits for it. -/
def Bridge.heard? (b : Bridge ε) (o : Occurrence) (a : Answers) : Option Session.Wake :=
  match o, b.session.current? with
  | .woke wake, some r =>
    if Session.enables r b.activity.wait wake a.now then some wake else none
  | _, _ => none

/-- The status that the program is reported to have ended with in an occurrence. -/
def Bridge.exit? (b : Bridge ε) (o : Occurrence) (a : Answers) : Option ExitStatus :=
  match b.heard? o a with
  | some (.exited status) => some status
  | _ => none

/-- The window size that a bridge is asked for in an occurrence: that of the user's window, or the
one that its program has requested, when it is the turn of that. -/
def Bridge.asked? (b : Bridge ε) (o : Occurrence) : Option WindowSize :=
  match b.activity, o with
  | .stepping _, .windowChanged size => if b.followsWindow then size else none
  | .stepping _, .notified =>
    match b.notifications with
    | .resizeRequested _ size :: _ => some size
    | _ => none
  | _, _ => none

namespace Bridge

/-- No end of the program is reported in what the session does not wait for. -/
theorem exit?_eq_none {b : Bridge ε} {o : Occurrence} {a : Answers}
    (h : ∀ wake, o ≠ .woke wake) : b.exit? o a = none := by
  unfold exit? heard?
  cases o with
  | woke wake => exact absurd rfl (h wake)
  | _ => rfl

/-- A bridge that begins its next step has not failed, and it has ended if its session has. -/
theorem settle_eq (b : Bridge ε) :
    (∃ w, b.settle = .crossing { b with activity := .stepping w }) ∨
      b.session.isRunning = false ∧
        b.settle = .ended b.session (exitCode b.session.exitStatus?) := by
  unfold settle
  split
  · exact .inl ⟨_, rfl⟩
  · next h => exact .inr ⟨Bool.eq_false_iff.2 h, rfl⟩

/-- A bridge goes on after an operation according to its verdict. -/
theorem afterwards_eq (b : Bridge ε) (o : Outcome ε Unit) :
    (b.afterwards o).1 =
      match o.verdict with
      | .done () => (b.take o.toTraced).settle
      | .failed e => .failed o.session e
      | .overflow => .overflow o.session := by
  unfold afterwards
  cases o.verdict <;> rfl

/-- A bridge goes on after an operation that waits according to how far it has come. -/
theorem advance_eq (b : Bridge ε) (again : Wait → Activity) (next : Advance ε) :
    (b.advance again next).1 =
      match next.progress with
      | .waiting w => .crossing { b.take next.toTraced with activity := again w }
      | .ended (.done _) => (b.take next.toTraced).settle
      | .ended (.failed e) => .failed next.session e
      | .ended .overflow => .overflow next.session := by
  unfold advance
  cases next.progress with
  | waiting => rfl
  | ended v => cases v <;> rfl

/-- What an occurrence can be for a bridge. While it waits for the end of the program, it heeds
nothing but that. Otherwise the owner's input is sent, the size of the user's window is followed, a
request to stop is begun to be met, a request of the program for another window size is granted if
it can be, and all else does nothing to the session. -/
inductive Turn [Emulation ε] (b : Bridge ε) (a : Answers) :
    Occurrence → Standing ε × List Effect → Prop
  | ignored {o : Occurrence} (deaf : ∀ wake, o ≠ .woke wake) (unasked : b.asked? o = none) :
      Turn b a o (.crossing b, [])
  | driven (again : Wait → Activity) (resumes : ∀ w, (again w).wait = w) (wake : Session.Wake)
      (unasked : b.asked? (.woke wake) = none) :
      Turn b a (.woke wake) (b.advance again (b.session.resume b.activity.wait wake a))
  | sent (data : Bytes) (unasked : b.asked? (.input data) = none) :
      Turn b a (.input data) (b.afterwards (b.session.send data))
  | followed (size : WindowSize) (asked : b.asked? (.windowChanged (some size)) = some size) :
      Turn b a (.windowChanged (some size)) (b.afterwards (b.session.resize size a))
  | stopped (unasked : b.asked? .stopRequested = none) :
      Turn b a .stopRequested (b.advance .stopping (b.session.terminate a))
  | granted {id : SessionId} {size : WindowSize} {rest : List Notification}
      (next : b.notifications = .resizeRequested id size :: rest)
      (asked : b.asked? .notified = some size) :
      Turn b a .notified
        ((take { b with notifications := rest } (b.session.resize size a).toTraced).settle,
          (b.session.resize size a).trace)
  | passed {o : Occurrence} {next : Bridge ε} (deaf : ∀ wake, o ≠ .woke wake)
      (session : next.session = b.session)
      (notifications : next.notifications <:+ b.notifications) (unasked : b.asked? o = none) :
      Turn b a o (next.settle, [])

/-- Each step of a bridge is a turn. -/
theorem turn [Emulation ε] (b : Bridge ε) (o : Occurrence) (a : Answers) :
    Turn b a o (b.step o a) := by
  have hnone : b.notifications <:+ b.notifications := List.suffix_refl _
  unfold step
  split
  · next w wake hactivity =>
    have hwait : w = b.activity.wait := by rw [hactivity, Activity.wait]
    rw [hwait]
    exact .driven .stopping (fun _ ↦ rfl) wake (by simp [asked?])
  · next hactivity hdeaf =>
    exact .ignored (fun wake ho ↦ hdeaf wake ho) (by simp [asked?, hactivity])
  · next w wake hactivity =>
    have hwait : w = b.activity.wait := by rw [hactivity, Activity.wait]
    rw [hwait]
    exact .driven .stepping (fun _ ↦ rfl) wake (by simp [asked?])
  · next data _ => exact .sent data (by simp [asked?])
  · exact .passed (by simp) rfl hnone (by simp [asked?])
  · next hactivity => exact .passed (by simp) rfl hnone (by simp [asked?, hactivity])
  · next size hactivity =>
    split
    · next hfollows => exact .followed size (by simp [asked?, hactivity, hfollows])
    · next hfollows =>
      exact .passed (by simp) rfl hnone (by simp [asked?, hactivity, hfollows])
  · exact .stopped (by simp [asked?])
  · next hactivity =>
    unfold attend
    split
    · next hnext => exact .passed (by simp) rfl hnone (by simp [asked?, hactivity, hnext])
    · next hnext => exact .granted hnext (by simp [asked?, hactivity, hnext])
    · next first rest hother hnext =>
      refine .passed (by simp) rfl ?_ ?_
      · rw [hnext]
        exact List.suffix_cons first rest
      · cases first with
        | resizeRequested id size => exact absurd rfl (hother id size)
        | _ => simp [asked?, hactivity, hnext]

end Bridge

/-- How a bridge stands, with all that its session did and the statuses that its program was
reported to have ended with. -/
structure Crossing (ε : Type) where
  standing : Standing ε
  trace : List Effect := []
  exits : List ExitStatus := []

namespace Crossing

/-- The beginning of a crossing: the attempt of a session to run a program. -/
def start (s : Session ε) (program : String) (a : Answers) (followsWindow : Bool) : Crossing ε where
  standing := .begun (s.run program a).session (s.run program a).verdict followsWindow
  trace := (s.run program a).trace

/-- The session of the bridge. -/
def session (x : Crossing ε) : Session ε := x.standing.session

variable [Emulation ε]

/-- Something happens, with what the world answers. A bridge that does not go on heeds nothing. -/
def step (x : Crossing ε) (event : Occurrence × Answers) : Crossing ε :=
  match x.standing with
  | .crossing b =>
    { standing := (b.step event.1 event.2).1
      trace := x.trace ++ (b.step event.1 event.2).2
      exits := x.exits ++ (b.exit? event.1 event.2).toList }
  | _ => x

/-- Several things happen, one after the other. -/
def run (x : Crossing ε) (events : List (Occurrence × Answers)) : Crossing ε := events.foldl step x

@[simp] theorem run_nil (x : Crossing ε) : x.run [] = x := rfl

@[simp] theorem run_cons (x : Crossing ε) (event : Occurrence × Answers)
    (events : List (Occurrence × Answers)) : x.run (event :: events) = (x.step event).run events :=
  rfl

/-- Something happens to a bridge that goes on. -/
theorem step_of_crossing {x : Crossing ε} {b : Bridge ε} (h : x.standing = .crossing b)
    (o : Occurrence) (a : Answers) :
    x.step (o, a) =
      ⟨(b.step o a).1, x.trace ++ (b.step o a).2, x.exits ++ (b.exit? o a).toList⟩ := by
  rw [step, h]

/-- A bridge that does not go on stays as it is. -/
theorem run_of_stopped {x : Crossing ε} (h : ∀ b, x.standing ≠ .crossing b)
    (events : List (Occurrence × Answers)) : x.run events = x := by
  induction events with
  | nil => rfl
  | cons event events ih =>
    have hstep : x.step event = x := by
      unfold step
      split
      · next b hb => exact absurd hb (h b)
      · rfl
    rw [run_cons, hstep, ih]

/-- A bridge that goes on no more has stopped in one event. -/
theorem stopped_in {x : Crossing ε} {b : Bridge ε} (hb : x.standing = .crossing b)
    {events : List (Occurrence × Answers)} (h : ∀ b, (x.run events).standing ≠ .crossing b) :
    ∃ before o a b, (o, a) ∈ events ∧ (x.run before).standing = .crossing b ∧
      x.run events = (x.run before).step (o, a) := by
  induction events generalizing x b with
  | nil => exact absurd hb (h b)
  | cons event events ih =>
    cases hnext : (x.step event).standing with
    | crossing next =>
      obtain ⟨before, o, a, last, hmem, hlast, hrun⟩ := ih hnext h
      exact ⟨event :: before, o, a, last, List.mem_cons_of_mem _ hmem, hlast, hrun⟩
    | ended | failed | overflow =>
      refine ⟨[], event.1, event.2, b, List.mem_cons_self, hb, ?_⟩
      exact run_of_stopped (by simp [hnext]) events

end Crossing

/-- Whether a crossing is where the course of its session is. A bridge that goes on has a program
running, and waits for what the operation of the course waits for. -/
structure Mirrors (x : Crossing ε) (c : Course ε) : Prop where
  session : x.session = c.session
  trace : x.trace = c.trace
  exits : x.exits = c.exits
  crossing : ∀ b, x.standing = .crossing b →
    b.session.isRunning = true ∧ c.waiting = some b.activity.wait

/-- The session of a bridge that goes on is that of the course. -/
theorem Mirrors.session_eq {x : Crossing ε} {c : Course ε} {b : Bridge ε} (h : Mirrors x c)
    (hb : x.standing = .crossing b) : b.session = c.session := by
  rw [← h.session, Crossing.session, hb]
  rfl

/-- The course of the session hears what the bridge waits for. -/
theorem Mirrors.heard? {x : Crossing ε} {c : Course ε} {b : Bridge ε} (h : Mirrors x c)
    (hb : x.standing = .crossing b) (wake : Session.Wake) (a : Answers) :
    c.heard? (.happen wake a) = b.heard? (.woke wake) a := by
  unfold Course.heard? Bridge.heard?
  rw [(h.crossing b hb).2, h.session_eq hb]
  cases c.session.current? <;> rfl

/-- Whether a move is one that a bridge makes. -/
def isCrossing : Move → Bool
  | .happen .. | .send _ | .resize .. | .process | .terminate _ => true
  | _ => false

/-- The course of a session whose program was started by a bridge: operations have been given up on
it, its options are the same as in the beginning, and the program is running or has ended. -/
structure Underway [Emulation ε] (id : SessionId) (options : SessionOptions) (c : Course ε) :
    Prop where
  resumable : Session.Resumable id c
  options : c.session.options = options
  begun : c.session.isRunning = true ∨ c.session.isTerminated = true

/-- A crossing that is where the course of its session is after some moves of a bridge. -/
def Follows [Emulation ε] (x : Crossing ε) (c : Course ε) : Prop :=
  ∃ moves, (∀ m ∈ moves, isCrossing m = true) ∧ Mirrors x (c.run moves)

section

variable [Emulation ε] {x : Crossing ε} {c : Course ε} {b : Bridge ε}

/-- A crossing is where its course is after no moves. -/
theorem Mirrors.follows (h : Mirrors x c) : Follows x c := ⟨[], by simp, h⟩

/-- A crossing that follows what a move makes of a course follows the course. -/
theorem Follows.of_step {m : Move} (hm : isCrossing m = true) (h : Follows x (c.step m)) :
    Follows x c := by
  obtain ⟨moves, hmoves, hmirrors⟩ := h
  exact ⟨m :: moves, List.forall_mem_cons.2 ⟨hm, hmoves⟩, hmirrors⟩

/-- A step begins by waiting for what happens next. -/
theorem step_process (hc : c.session.phase.WellFormed) (h : c.session.isRunning = true) :
    c.step .process = { c with waiting := some (.dispatching .step) } := by
  obtain ⟨r, hr⟩ := (Session.isRunning_iff hc).1 h
  have hadvance : c.advance .process =
      Session.reaching ⟨c.session, []⟩ (.waiting (.dispatching .step)) := by
    simp only [Course.advance, Move.act, Session.process, Session.await,
      Session.current?_of_running hr]
  rw [Course.step, hadvance, Course.after, Session.reaching]
  simp [Course.exit?, Course.heard?, Session.Progress.wait?]

/-- A bridge begins its next step where the course begins an operation. -/
theorem follows_settle (hc : c.session.phase.WellFormed) (hsession : b.session = c.session) :
    Follows ⟨b.settle, c.trace, c.exits⟩ c := by
  unfold Bridge.settle
  split
  · next hrunning =>
    -- whatever was waiting is given up, and a step is begun
    refine .of_step (m := .process) rfl (Mirrors.follows ?_)
    rw [step_process hc (hsession ▸ hrunning)]
    refine ⟨hsession, rfl, rfl, ?_⟩
    intro b' hb'
    cases hb'
    exact ⟨hrunning, rfl⟩
  · refine Mirrors.follows ⟨hsession, rfl, rfl, ?_⟩
    intro b' hb'
    cases hb'

/-- Where a course is after a move that is an operation which does not wait. -/
theorem step_finished {m : Move} {o : Outcome ε Unit} (hadvance : c.advance m = finished o)
    (hsilent : c.heard? m = none) :
    (c.step m).session = o.session ∧ (c.step m).trace = c.trace ++ o.trace ∧
      (c.step m).exits = c.exits := by
  rw [Course.step, hadvance]
  refine ⟨rfl, rfl, ?_⟩
  show c.exits ++ (c.exit? m).toList = c.exits
  rw [Course.exit?, hsilent]
  exact List.append_nil _

/-- A bridge begins its next step after an operation, whatever came of that. -/
theorem follows_settled (hc : c.session.phase.WellFormed) {m : Move} {o : Outcome ε Unit}
    (hm : isCrossing m = true) (hadvance : c.advance m = finished o) (hsilent : c.heard? m = none)
    (hsession : b.session = o.session) : Follows ⟨b.settle, c.trace ++ o.trace, c.exits⟩ c := by
  obtain ⟨hnext, htrace, hexits⟩ := step_finished hadvance hsilent
  rw [← htrace, ← hexits]
  exact .of_step hm (follows_settle (Course.wellFormed_step hc m) (hsession.trans hnext.symm))

/-- A bridge goes on after an operation that does not wait where the course goes on after the
move. -/
theorem follows_afterwards (hc : c.session.phase.WellFormed) {m : Move} {o : Outcome ε Unit}
    (hm : isCrossing m = true) (hadvance : c.advance m = finished o)
    (hsilent : c.heard? m = none) (b : Bridge ε) :
    Follows ⟨(b.afterwards o).1, c.trace ++ (b.afterwards o).2, c.exits⟩ c := by
  obtain ⟨hnext, htrace, hexits⟩ := step_finished hadvance hsilent
  have hstuck {standing : Standing ε} (hsession : standing.session = o.session)
      (hstanding : ∀ b', standing ≠ .crossing b') :
      Follows ⟨standing, c.trace ++ o.trace, c.exits⟩ c := by
    refine .of_step hm (Mirrors.follows ⟨hsession.trans hnext.symm, htrace.symm, hexits.symm, ?_⟩)
    intro b' hb'
    exact absurd hb' (hstanding b')
  unfold Bridge.afterwards
  dsimp only
  split
  · exact follows_settled hc hm hadvance hsilent rfl
  · exact hstuck rfl (by simp)
  · exact hstuck rfl (by simp)

/-- A bridge goes on with an operation that waits where the course goes on with it. -/
theorem follows_advance (hc : c.session.phase.WellFormed) {m : Move} {again : Wait → Activity}
    (hm : isCrossing m = true) (hagain : ∀ w, (again w).wait = w)
    (hrunning : ∀ w, (c.advance m).progress = .waiting w → (c.advance m).session.isRunning = true)
    (b : Bridge ε) :
    Follows ⟨(b.advance again (c.advance m)).1, c.trace ++ (b.advance again (c.advance m)).2,
      c.exits ++ (c.exit? m).toList⟩ c := by
  refine .of_step hm ?_
  have hnext : (c.step m).session.phase.WellFormed := Course.wellFormed_step hc m
  have hstep : c.step m = c.after m (c.advance m) := rfl
  rw [hstep] at hnext
  revert hstep hrunning hnext
  generalize c.advance m = next
  intro hrunning hnext hstep
  rw [hstep]
  unfold Bridge.advance
  dsimp only
  split
  · next w hprogress =>
    refine Mirrors.follows ⟨rfl, rfl, rfl, ?_⟩
    intro b' hb'
    cases hb'
    refine ⟨hrunning w hprogress, ?_⟩
    show next.progress.wait? = some (again w).wait
    rw [hprogress, hagain]
    rfl
  · exact follows_settle hnext rfl
  · refine Mirrors.follows ⟨rfl, rfl, rfl, ?_⟩
    intro b' hb'
    cases hb'
  · refine Mirrors.follows ⟨rfl, rfl, rfl, ?_⟩
    intro b' hb'
    cases hb'

namespace Mirrors

/-- What happens to the operation of the bridge happens to that of the course. -/
theorem advance (h : Mirrors x c) (hb : x.standing = .crossing b) (wake : Session.Wake)
    (a : Answers) :
    c.advance (.happen wake a) = b.session.resume b.activity.wait wake a := by
  unfold Course.advance Move.act
  rw [(h.crossing b hb).2, h.session_eq hb]

/-- A bridge makes the moves of a course in each step, and remains where the course is. -/
theorem step (hc : c.session.phase.WellFormed) (h : Mirrors x c) (o : Occurrence) (a : Answers) :
    Follows (x.step (o, a)) c := by
  cases hb : x.standing with
  | ended | failed | overflow =>
    rw [Crossing.step, hb]
    exact h.follows
  | crossing b =>
  obtain ⟨hrunning, hwaiting⟩ := h.crossing b hb
  have hsession := h.session_eq hb
  have hunaware (ho : ∀ wake, o ≠ .woke wake) : x.exits ++ (b.exit? o a).toList = c.exits := by
    rw [h.exits, Bridge.exit?_eq_none ho, Option.toList_none, List.append_nil]
  rw [Crossing.step_of_crossing hb, h.trace]
  have hturn := b.turn o a
  revert hturn
  generalize b.step o a = next
  intro hturn
  cases hturn with
  | ignored deaf =>
    rw [hunaware deaf, List.append_nil]
    refine Mirrors.follows ⟨hsession, rfl, rfl, ?_⟩
    intro b' hb'
    cases hb'
    exact ⟨hrunning, hwaiting⟩
  | driven again resumes wake =>
    have hexit : b.exit? (.woke wake) a = c.exit? (.happen wake a) := by
      unfold Bridge.exit? Course.exit?
      exact h.heard? hb wake a ▸ rfl
    rw [← h.advance hb, hexit, h.exits]
    refine follows_advance hc rfl resumes ?_ b
    intro w hw
    exact (c.passage hc _).isRunning_of_waiting (hsession ▸ hrunning) hw
  | sent data =>
    rw [hunaware (by simp), hsession]
    exact follows_afterwards hc (m := .send data) rfl rfl rfl b
  | followed size =>
    rw [hunaware (by simp), hsession]
    exact follows_afterwards hc (m := .resize size a) rfl rfl rfl b
  | stopped =>
    have hterminate : b.session.terminate a = c.advance (.terminate a) := by
      rw [hsession]
      rfl
    have hnone : c.exits = c.exits ++ (c.exit? (.terminate a)).toList := (List.append_nil _).symm
    rw [hunaware (by simp), hterminate, hnone]
    refine follows_advance hc rfl (fun _ ↦ rfl) ?_ b
    intro w _
    exact (Session.Served.stop c.session _ _ a).isRunning.trans (hsession ▸ hrunning)
  | granted next =>
    rw [hunaware (by simp), hsession]
    exact follows_settled hc (m := .resize _ a) rfl rfl rfl rfl
  | passed deaf session notifications =>
    rw [hunaware deaf, List.append_nil]
    exact follows_settle hc (session.trans hsession)

end Mirrors

variable {id : SessionId} {options : SessionOptions} {e : ε} {program : String} {a : Answers}

/-- The crossing of a program that was started follows the course of its session. -/
theorem follows_start (h : ((Session.new id options e).run program a).verdict = .done ())
    (followsWindow : Bool) :
    Follows (Crossing.start (.new id options e) program a followsWindow)
      ((Course.start (.new id options e)).step (.run program a)) := by
  obtain ⟨hsession, htrace, hexits⟩ :=
    step_finished (c := Course.start (.new id options e)) (m := .run program a) rfl rfl
  have hrunning := Session.isRunning_run Phase.wellFormed_idle h
  refine .of_step (m := .process) rfl (Mirrors.follows ?_)
  rw [step_process (Course.wellFormed_step Phase.wellFormed_idle _) (hsession ▸ hrunning)]
  refine ⟨?_, htrace.symm, hexits.symm, ?_⟩
  · rw [Crossing.session, Crossing.start, h]
    exact hsession.symm
  · intro b hb
    rw [Crossing.start, h] at hb
    cases hb
    exact ⟨hrunning, rfl⟩

/-- The course of a session is underway throughout the moves of a bridge. -/
theorem Underway.run (h : Underway id options c) {moves : List Move}
    (hmoves : ∀ m ∈ moves, isCrossing m = true) : Underway id options (c.run moves) := by
  induction moves generalizing c with
  | nil => exact h
  | cons m moves ih =>
    rw [List.forall_mem_cons] at hmoves
    have hkeeps : m.keepsOptions = true := by
      cases m with
      | setMonitorActivity | setMonitorSilence | setSilenceTimeout => cases hmoves.1
      | _ => rfl
    have hoptions := Course.options_step h.resumable.wellFormed hkeeps
    exact ih ⟨h.resumable.step m, hoptions.trans h.options,
      Session.begun_step h.resumable.wellFormed h.begun m⟩ hmoves.2

/-- Whether the session of a bridge is on the course of one whose program was started. -/
def OnCourse (id : SessionId) (options : SessionOptions) (x : Crossing ε) : Prop :=
  ∃ c, Mirrors x c ∧ Underway id options c

namespace OnCourse

/-- A crossing is on the course that it follows. -/
theorem of_follows (h : Follows x c) (hc : Underway id options c) : OnCourse id options x := by
  obtain ⟨moves, hmoves, hmirrors⟩ := h
  exact ⟨c.run moves, hmirrors, hc.run hmoves⟩

/-- The session of a bridge whose program was started is on course. -/
theorem start (h : ((Session.new id options e).run program a).verdict = .done ())
    (followsWindow : Bool) :
    OnCourse id options (Crossing.start (.new id options e) program a followsWindow) := by
  have hrunning := Session.isRunning_run Phase.wellFormed_idle h
  refine of_follows (follows_start h followsWindow) ⟨?_, ?_, .inl hrunning⟩
  · exact (Session.Resumable.start id options e).step (.run program a)
  · exact Course.options_step (c := Course.start (.new id options e)) (m := .run program a)
      Phase.wellFormed_idle rfl

/-- The session stays on course whatever happens. -/
theorem step (h : OnCourse id options x) (event : Occurrence × Answers) :
    OnCourse id options (x.step event) := by
  obtain ⟨c, hmirrors, hunderway⟩ := h
  have hw := hunderway.resumable.wellFormed
  exact of_follows (hmirrors.step hw event.1 event.2) hunderway

/-- The session stays on course whatever happens, in whatever order. -/
theorem run (h : OnCourse id options x) (events : List (Occurrence × Answers)) :
    OnCourse id options (x.run events) := by
  induction events generalizing x with
  | nil => exact h
  | cons event events ih => exact ih (h.step event)

/-- The program of a bridge that goes on is running, and its terminal is open. -/
theorem held (h : OnCourse id options x) (hb : x.standing = .crossing b) :
    b.session.current?.isSome = true ∧ b.session.device.isOpen = true := by
  obtain ⟨c, hmirrors, hunderway⟩ := h
  have hrunning := (hmirrors.crossing b hb).1
  rw [hmirrors.session_eq hb] at hrunning ⊢
  rw [Session.isSome_current? hunderway.resumable.wellFormed]
  exact ⟨hrunning, (hunderway.resumable.held hrunning).1⟩

end OnCourse

end

end CommandLine

end PtyHost
