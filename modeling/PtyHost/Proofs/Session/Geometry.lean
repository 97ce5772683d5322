import PtyHost.Machine.Seat
import PtyHost.Proofs.Session.Display
import PtyHost.Proofs.Session.Retry

/-!
# The size of a session and the window of its terminal

A session notes the size that it is asked for, gives it to its terminal, and then tells its
emulation. The terminal may refuse, and the program may give its terminal another window size
itself, of which the session does not learn. Apart from that, the session has the size of the window
for as long as its program is running.

Main statements: `Passage.running_cases` and `Course.keepsSize`, what a move can do about the window
of a running program, `Frame.inStep_step` and `Frame.inStep_run` on what keeps the two in step, and
`size_in_step`. On a machine, windows change in the same ways (`Seat.window_perform`,
`Process.window_perform`).
-/

namespace PtyHost

/-- The window of the terminal of a session after something that the session does. A new terminal
has an empty window. -/
def Effect.window (w : Option WindowSize) : Effect → Option WindowSize
  | .openedMaster => some ⟨0, 0⟩
  | .closedMaster => none
  | .sizedWindow size => w.map fun _ ↦ size
  | _ => w

/-- Whatever a session does changes the window of its seat in this way. -/
theorem Machine.Seat.window_perform (s : Machine.Seat) (e : Effect) :
    (s.perform none e).terminal.map (·.window) = e.window (s.terminal.map (·.window)) := by
  cases e with
  | sizedWindow size =>
    show (s.resize size).terminal.map (·.window) = _
    unfold resize
    cases hterminal : s.terminal with
    | none => rw [hterminal]; rfl
    | some t =>
      dsimp only
      split <;> rfl
  | spawned pid => cases hterminal : s.terminal <;> simp [perform, Effect.window, hterminal]
  | openedSlave | configuredLine | setMessages | wrote =>
    cases hterminal : s.terminal <;>
      simp [perform, onTerminal, Effect.window, hterminal, Machine.Terminal.openSlave,
        Machine.Terminal.configure, Machine.Terminal.setMessages, Machine.Terminal.type]
  | _ => rfl

/-- A process changes the window of its terminal by the one step that sets it, while it has the
terminal open. -/
theorem Machine.Process.window_perform {p q : Machine.Process} {t u : Machine.Terminal}
    {step : Machine.Step} (h : p.perform t step = some (q, u)) :
    u.window = t.window ∨ p.onTerminal = true ∧ step = .resize u.window := by
  cases step with
  | resize size =>
    simp only [perform] at h
    split at h
    · cases h
      exact .inl rfl
    · next hopen =>
      cases h
      simp only [Bool.not_eq_true', not_or, Bool.not_eq_false] at hopen
      exact .inr ⟨hopen.1, rfl⟩
  | read count back =>
    simp only [perform] at h
    left
    split at h
    · cases h
      rfl
    split at h
    · cases h
    · cases h
      split <;> rfl
  | die signal =>
    simp only [perform] at h
    split at h <;> cases h <;> exact .inl rfl
  | hang => cases h
  | awaitResize =>
    simp only [perform] at h
    split at h <;> cases h
    exact .inl rfl
  | write | writeAnew | tell =>
    cases h
    left
    split <;> rfl
  | exit | react | close | skip =>
    cases h
    exact .inl rfl

namespace Session

/-- The window of the terminal after all that is done in a trace. -/
def windowAfter (w : Option WindowSize) (trace : List Effect) : Option WindowSize :=
  trace.foldl Effect.window w

section

variable {w : Option WindowSize} {trace : List Effect}

/-- There is a window after a trace in which no terminal is opened or closed exactly if there was
one before. -/
theorem isSome_windowAfter (h : ∀ e ∈ trace, e.isDealing = false) :
    (windowAfter w trace).isSome = w.isSome := by
  induction trace generalizing w with
  | nil => rfl
  | cons e trace ih =>
    obtain ⟨he, htrace⟩ := List.forall_mem_cons.1 h
    show (windowAfter (e.window w) trace).isSome = _
    rw [ih htrace]
    cases e with
    | openedMaster | closedMaster => cases he
    | sizedWindow => exact Option.isSome_map
    | _ => rfl

/-- The window stays as it is if no terminal is opened or closed and none is given a size. -/
theorem windowAfter_eq (h : ∀ e ∈ trace, e.isDealing = false) (hsized : sized trace = []) :
    windowAfter w trace = w := by
  induction trace generalizing w with
  | nil => rfl
  | cons e trace ih =>
    obtain ⟨he, htrace⟩ := List.forall_mem_cons.1 h
    obtain ⟨hunsized, hrest⟩ := List.forall_mem_cons.1 (List.filterMap_eq_nil_iff.1 hsized)
    show windowAfter (e.window w) trace = w
    rw [ih htrace (List.filterMap_eq_nil_iff.2 hrest)]
    cases e with
    | openedMaster | closedMaster => cases he
    | sizedWindow => cases hunsized
    | _ => rfl

end

variable {ε : Type}

/-- What leaves the size of a session and the window of its terminal as they are. -/
structure KeepsSize (s : Session ε) (t : Traced ε) : Prop where
  size : t.session.size = s.size
  sized : sized t.trace = []

namespace KeepsSize

variable {s : Session ε} {t : Traced ε}

/-- Nothing is done. -/
theorem refl (s : Session ε) : KeepsSize s ⟨s, []⟩ := ⟨rfl, rfl⟩

/-- What is done to a session of the same size. -/
theorem noted {u : Session ε} (h : KeepsSize u t) (hsize : u.size = s.size) : KeepsSize s t :=
  ⟨h.size.trans hsize, h.sized⟩

/-- What is done about the running program alone does not change the size. -/
theorem modifyRunning (s : Session ε) (f : Running → Running) :
    KeepsSize s ⟨s.modifyRunning f, []⟩ := by
  unfold Session.modifyRunning
  split <;> exact ⟨rfl, rfl⟩

/-- What is done when nobody asks for a size. -/
theorem of_displays [Emulation ε] (h : Displays s none true t) :
    KeepsSize s t where
  size := h.size
  sized := by
    rw [h.sized]
    rfl

/-- Acting on events. -/
theorem applyAll (s : Session ε) (events : List Emulation.Event) :
    KeepsSize s (s.applyAll events) :=
  ⟨(Relays.applyAll s events).size, (Relays.applyAll s events).sized⟩

/-- Setting a title. -/
theorem setUserTitle (s : Session ε) (what : UInt16) (caption : String) :
    KeepsSize s (s.setUserTitle what caption) := by
  unfold Session.setUserTitle
  split
  · exact refl s
  · split <;> exact ⟨rfl, rfl⟩

/-- Starting the countdown again. -/
theorem rearmed (s : Session ε) (now : Nat) : KeepsSize s (s.rearmed now).toTraced := by
  unfold Session.rearmed
  split
  · next armed harmed =>
    obtain ⟨t, -, rfl⟩ := Option.map_eq_some_iff.1 harmed
    exact modifyRunning s _
  · exact refl s

/-- Turning silence monitoring on or off. -/
theorem setMonitorSilence (s : Session ε) (monitor : Bool) (now : Nat) :
    KeepsSize s (s.setMonitorSilence monitor now).toTraced := by
  unfold Session.setMonitorSilence
  split
  · exact refl s
  · dsimp only
    split
    · exact (rearmed _ now).noted rfl
    · split
      · exact ⟨rfl, rfl⟩
      · exact (modifyRunning _ _).noted rfl

/-- Changing the time that counts as silence. -/
theorem setSilenceTimeout (s : Session ε) (span now : Nat) :
    KeepsSize s (s.setSilenceTimeout span now).toTraced := by
  unfold Session.setSilenceTimeout
  dsimp only
  split
  · exact (rearmed _ now).noted rfl
  · exact ⟨rfl, rfl⟩

/-- Allowing or forbidding messages. -/
theorem setWriteable (s : Session ε) (allowed : Bool) (a : Answers) :
    KeepsSize s (s.setWriteable allowed a).toTraced := by
  unfold Session.setWriteable
  split
  · split <;> exact ⟨rfl, rfl⟩
  · exact refl s

variable [Emulation ε]

/-- Beginning to end the program. -/
theorem stop (s : Session ε) (sig : Signal) (grace : Option Nat) (a : Answers) :
    KeepsSize s (s.stop sig grace a).toTraced := by
  unfold Session.stop
  split
  · exact refl s
  · exact refl s
  · exact of_displays (.signal s sig a)

end KeepsSize

/-- Whether a move asks for a size. -/
def Move.isResize : Move → Bool
  | .resize .. => true
  | _ => false

/-- A program that is started has a terminal with the size of the session. -/
theorem started_window {s : Session ε} {program : String} {a : Answers} {pid : Pid}
    {silenceAt : Option Nat} (idle : s.phase = .idle) (hidle : s.Fresh ∨ s.LeftOver)
    (success : (s.startup program a).result = .ok pid) {t : Traced ε}
    (ht : t = (⟨{ s.opened (s.startup program a) with notified := false },
      (s.startup program a).trace⟩ : Traced ε).andThen (·.started program pid silenceAt a)) :
    t.session.device.isOpen = true ∧ ∀ w, windowAfter w t.trace = some t.session.size := by
  subst ht
  rcases hidle with hfresh | hleft
  · obtain ⟨slave, hstartup⟩ := startup_of_result_eq_ok hfresh.device hfresh.granted success
    rw [hstartup]
    refine ⟨rfl, fun w ↦ ?_⟩
    show windowAfter (some s.size) (if _ then _ else _) = some s.size
    split <;> rfl
  · -- what is left over keeps a program from being started
    have hfailed := congrArg (·.verdict) (hleft.run program a)
    exact absurd hfailed (verdict_run_ne_failed idle success)

section Moves

variable [Emulation ε]

/-- A session without a running program refuses to take another size. -/
theorem resize_of_not_running {s : Session ε} (h : s.isRunning = false) (size : WindowSize)
    (a : Answers) : s.resize size a = { session := s, verdict := .failed .notRunning } := by
  rw [Session.resize, current?_of_not_running h]

/-- While a program is running, only a request for a size changes the size of the session or the
window of its terminal. -/
theorem Course.keepsSize {c : Course ε} {m : Move} (hrunning : c.session.isRunning = true)
    (hm : m.isResize = false) : KeepsSize c.session (c.advance m).toTraced := by
  cases m with
  | resize => cases hm
  | run program a =>
    show KeepsSize c.session (c.session.run program a).toTraced
    unfold Session.run
    rw [of_decide_eq_true hrunning]
    exact .refl c.session
  | send data => exact .of_displays (.send c.session data)
  | signal sig a => exact .of_displays (.signal c.session sig a)
  | sendSignal number a =>
    show KeepsSize c.session (c.session.sendSignal number a).toTraced
    unfold Session.sendSignal
    split
    · exact .of_displays (.signal c.session _ a)
    · exact .refl c.session
  | setScrollLock locked => exact (KeepsSize.applyAll _ _).noted rfl
  | setMonitorActivity monitor => exact ⟨rfl, rfl⟩
  | setMonitorSilence monitor now => exact .setMonitorSilence c.session monitor now
  | setSilenceTimeout span now => exact .setSilenceTimeout c.session span now
  | setWriteable allowed a => exact .setWriteable c.session allowed a
  | setUserTitle what caption => exact .setUserTitle c.session what caption
  | setKeymap keymap => exact ⟨rfl, rfl⟩
  | process | runUntilFinished => exact .refl c.session
  | terminate a => exact .of_displays (.terminate c.session a)
  | kill a => exact .stop c.session .kill none a
  | abandon => exact .refl c.session
  | happen wake a =>
    show KeepsSize c.session (Move.act (.happen wake a) c.session c.waiting).toTraced
    unfold Move.act
    cases c.waiting with
    | none => exact .refl c.session
    | some w => exact .of_displays (.resume c.session w wake a)

/-- A session has a program running behind a move if it had one before, on the terminal that it
keeps, or if it has just started one, on a terminal that it has given its size. -/
theorem Passage.running_cases {c : Course ε} {m : Move} {next : Advance ε} (h : Passage c m next)
    (hidle : c.session.phase = .idle → c.session.Fresh ∨ c.session.LeftOver)
    (hnext : next.session.isRunning = true) :
    (c.session.isRunning = true ∧ next.session.device = c.session.device ∧
      ∀ e ∈ next.trace, e.isDealing = false) ∨
    (next.session.device.isOpen = true ∧
      ∀ w, windowAfter w next.trace = some next.session.size) := by
  have hminor {trace : List Effect} (h : ∀ e ∈ trace, e.isMinor = true) :
      ∀ e ∈ trace, e.isDealing = false := fun e he ↦ Effect.isDealing_of_isMinor (h e he)
  have halike {s : Session ε} (h : c.session.Alike s) (hs : s.isRunning = true) :
      c.session.isRunning = true := h.isRunning ▸ hs
  have hstill {s : Session ε} (h : s.phase = .idle) (k : s.isRunning = true) : False := by
    rw [isRunning_of_idle h] at k
    cases k
  have hended {s : Session ε} {status : ExitStatus} (h : s.phase = .terminated status)
      (k : s.isRunning = true) : False := by
    rw [isRunning_of_terminated h] at k
    cases k
  cases h with
  | edits _ _ edits _ =>
    exact .inl ⟨halike edits.alike hnext, edits.alike.device, hminor edits.isMinor⟩
  | output _ before after trace _ _ =>
    have hreached := before.alike.through after.alike
    refine .inl ⟨halike hreached hnext, hreached.device, fun e he ↦ ?_⟩
    rw [trace] at he
    rcases before.fed_or_isMinor after e he with rfl | hm
    · rfl
    · exact Effect.isDealing_of_isMinor hm
  | lost _ before =>
    exact .inl ⟨halike before.alike hnext, before.alike.device, hminor before.isMinor⟩
  | closed running | reaped _ running =>
    exact .inl ⟨isRunning_of_running running, rfl, by simp [reaching]⟩
  | refused idle | aborted idle => exact (hstill idle hnext).elim
  | started silenceAt idle _ success =>
    exact .inr (started_window idle (hidle idle) success rfl)
  | ended a | drained a => exact (hended (phase_complete _ _ a) hnext).elim

end Moves

/-! ### Frames -/

/-- A course of a session, with the window of its terminal. -/
structure Frame (ε : Type) where
  course : Course ε
  window : Option WindowSize := none

/-- What changes a frame: a move of the session, or another window size that the program gives to
its terminal itself. -/
inductive Frame.Turn
  | move (m : Move)
  | altered (size : WindowSize)

namespace Frame

/-- The session of a frame. -/
abbrev session (f : Frame ε) : Session ε := f.course.session

/-- The beginning: a session that has no terminal yet. -/
def start (s : Session ε) : Frame ε := { course := .start s }

/-- Whether the session has the size of the window while its program is running. -/
def InStep (f : Frame ε) : Prop := f.session.isRunning = true → f.window = some f.session.size

instance (f : Frame ε) : Decidable f.InStep := inferInstanceAs (Decidable (_ → _))

/-- Whether a turn brings the two apart: the terminal refuses a size, or the program changes it. -/
def parts (f : Frame ε) : Turn → Bool
  | .move (.resize _ a) => f.session.isRunning && !a.setWindowSize.toBool
  | .move _ => false
  | .altered _ => true

/-- What is so of every frame: an idle session has no terminal, or one left over of an attempt to
start a program, and while a program is running there is a terminal with a window. -/
structure Sound (f : Frame ε) : Prop where
  wellFormed : f.session.phase.WellFormed
  idle : f.session.phase = .idle → f.session.Fresh ∨ f.session.LeftOver
  device : f.session.isRunning = true → f.session.device.isOpen = true
  window : f.session.isRunning = true → f.window.isSome = true

/-- A session that has not run anything is in a sound frame. -/
theorem sound_start (id : SessionId) (options : SessionOptions) (e : ε) :
    (start (.new id options e)).Sound where
  wellFormed := Phase.wellFormed_idle
  idle := fun _ ↦ .inl ⟨rfl, rfl, rfl⟩
  device := fun h ↦ by cases h
  window := fun h ↦ by cases h

variable [Emulation ε] {f : Frame ε} {a : Answers}

/-- Takes a turn. -/
def step (f : Frame ε) : Turn → Frame ε
  | .move m => ⟨f.course.step m, windowAfter f.window (f.course.advance m).trace⟩
  | .altered size => { f with window := f.window.map fun _ ↦ size }

/-- The turn in which the session is asked for a size. -/
def resize (f : Frame ε) (size : WindowSize) (a : Answers) : Frame ε :=
  f.step (.move (.resize size a))

/-- Takes turns, one after the other. -/
def run (f : Frame ε) (turns : List Turn) : Frame ε := turns.foldl step f

/-- Whether no turn on the way brings the size and the window apart. -/
def undisturbed (f : Frame ε) : List Turn → Bool
  | [] => true
  | turn :: turns => !f.parts turn && (f.step turn).undisturbed turns

/-- Every turn keeps a frame sound. -/
theorem Sound.step (hf : f.Sound) (turn : Turn) : (f.step turn).Sound := by
  cases turn with
  | altered size =>
    exact ⟨hf.wellFormed, hf.idle, hf.device, fun h ↦ Option.isSome_map.trans (hf.window h)⟩
  | move m =>
    have hcases := (f.course.passage hf.wellFormed m).running_cases hf.idle
    refine ⟨Course.wellFormed_step hf.wellFormed m, fun h ↦ ?_, fun hnext ↦ ?_, fun hnext ↦ ?_⟩
    · have hidle := hf.idle (Course.idle_of_step hf.wellFormed h)
      exact (idle_step hf.wellFormed h hidle).symm.imp And.right And.right
    · rcases hcases hnext with ⟨hrunning, hdevice, -⟩ | ⟨hopen, -⟩
      · exact (congrArg Pty.Device.isOpen hdevice).trans (hf.device hrunning)
      · exact hopen
    · rcases hcases hnext with ⟨hrunning, -, hsteady⟩ | ⟨-, hwindow⟩
      · exact (isSome_windowAfter hsteady).trans (hf.window hrunning)
      · exact Option.isSome_iff_exists.2 ⟨_, hwindow f.window⟩

/-- Every frame that is reached from a sound one is sound. -/
theorem Sound.run (hf : f.Sound) (turns : List Turn) : (f.run turns).Sound := by
  induction turns generalizing f with
  | nil => exact hf
  | cons turn turns ih => exact ih (hf.step turn)

/-- A size that the terminal takes is that of the session, of the window and of the emulation. -/
theorem Sound.resize_taken (hf : f.Sound) (hrunning : f.session.isRunning = true)
    (size : WindowSize) (ha : a.setWindowSize = .ok ()) :
    (f.session.resize size a).verdict = .done () ∧
      (f.resize size a).session =
        { f.session with size, emulation := Emulation.resized f.session.emulation size } ∧
      (f.resize size a).window = some size := by
  have hcurrent := (isSome_current? hf.wellFormed).trans hrunning
  have hresize := resize_of_isOpen hcurrent (hf.device hrunning) size a
  rw [ha] at hresize
  obtain ⟨w, hw⟩ := Option.isSome_iff_exists.1 (hf.window hrunning)
  refine ⟨congrArg (·.verdict) hresize, congrArg (·.session) hresize, ?_⟩
  show windowAfter f.window (f.session.resize size a).trace = some size
  rw [hresize, hw]
  rfl

/-- A size that the terminal refuses is noted, and nothing else becomes of it. -/
theorem Sound.resize_refused (hf : f.Sound) (hrunning : f.session.isRunning = true)
    (size : WindowSize) {cause : OsError} (ha : a.setWindowSize = .error cause) :
    (f.session.resize size a).verdict = .failed (.device cause) ∧
      (f.resize size a).session = { f.session with size } ∧
      (f.resize size a).window = f.window := by
  have hcurrent := (isSome_current? hf.wellFormed).trans hrunning
  have hresize := resize_of_isOpen hcurrent (hf.device hrunning) size a
  rw [ha] at hresize
  refine ⟨congrArg (·.verdict) hresize, congrArg (·.session) hresize, ?_⟩
  show windowAfter f.window (f.session.resize size a).trace = f.window
  rw [hresize]
  rfl

/-- A turn that does not bring the size and the window apart leaves them in step. -/
theorem inStep_step (hf : f.Sound) (h : f.InStep) {turn : Turn} (hparts : f.parts turn = false) :
    (f.step turn).InStep := by
  cases turn with
  | altered size => cases hparts
  | move m =>
    intro hnext
    rcases (f.course.passage hf.wellFormed m).running_cases hf.idle hnext with
      ⟨hrunning, -, hsteady⟩ | ⟨-, hwindow⟩
    · cases hm : m.isResize with
      | false =>
        obtain ⟨hsize, hsized⟩ := Course.keepsSize hrunning hm
        have hwindow := windowAfter_eq hsteady hsized (w := f.window)
        exact hwindow.trans ((h hrunning).trans (congrArg some hsize.symm))
      | true =>
        cases m with
        | resize size a =>
          have htaken : a.setWindowSize = .ok () := by
            cases ha : a.setWindowSize with
            | ok => rfl
            | error cause => simp [parts, hrunning, ha, Except.toBool] at hparts
          obtain ⟨-, hsession, hwindow⟩ := hf.resize_taken hrunning size htaken
          exact hwindow.trans (congrArg (fun s ↦ some s.size) hsession.symm)
        | _ => cases hm
    · exact hwindow f.window

/-- Size and window stay in step until something brings them apart. -/
theorem inStep_run (hf : f.Sound) (h : f.InStep) {turns : List Turn}
    (hturns : f.undisturbed turns = true) : (f.run turns).InStep := by
  induction turns generalizing f with
  | nil => exact h
  | cons turn turns ih =>
    rw [undisturbed, Bool.and_eq_true, Bool.not_eq_true'] at hturns
    exact ih (hf.step turn) (inStep_step hf h hturns.1) hturns.2

end Frame

/-- A session and its terminal have the same size. Whatever has happened, with whatever answers: as
long as the terminal has not refused a size and the program has not changed it itself, the session
has the size of the window while its program is running; and once they have the same size they keep
it until one of the two happens. A size that the terminal takes is that of the session, of the
window and of the emulation from then on. One that it refuses is noted by the session, which fails,
and becomes neither that of the window nor known to the emulation. A session without a running
program fails and stays as it is. -/
theorem size_in_step [Emulation ε] (id : SessionId) (options : SessionOptions) (e : ε)
    {report : ε → WindowSize} (hreport : ∀ e size, report (Emulation.resized e size) = size)
    (turns : List Frame.Turn) :
    let start := Frame.start (.new id options e)
    let f := start.run turns
    (start.undisturbed turns = true → f.InStep) ∧
    (f.InStep → ∀ later, f.undisturbed later = true → (f.run later).InStep) ∧
    (f.session.isRunning = true → ∀ size a,
      (a.setWindowSize = .ok () →
        (f.session.resize size a).verdict = .done () ∧
        (f.resize size a).session.isRunning = true ∧
        (f.resize size a).session.size = size ∧
        (f.resize size a).window = some size ∧
        report (f.resize size a).session.emulation = size) ∧
      ∀ cause, a.setWindowSize = .error cause →
        (f.session.resize size a).verdict = .failed (.device cause) ∧
        (f.resize size a).session = { f.session with size } ∧
        (f.resize size a).window = f.window) ∧
    (f.session.isRunning = false → ∀ size a,
      (f.session.resize size a).verdict = .failed .notRunning ∧
      (f.resize size a).session = f.session ∧
      (f.resize size a).window = f.window ∧
      (f.session.resize size a).trace = []) := by
  intro start f
  have hstart : start.Sound := Frame.sound_start id options e
  have hf : f.Sound := hstart.run turns
  refine ⟨?_, fun h later hlater ↦ Frame.inStep_run hf h hlater, ?_, ?_⟩
  · exact fun h ↦ Frame.inStep_run hstart (fun hrunning ↦ by cases hrunning) h
  · refine fun hrunning size a ↦ ⟨fun ha ↦ ?_, fun cause ha ↦ hf.resize_refused hrunning size ha⟩
    obtain ⟨hverdict, hsession, hwindow⟩ := hf.resize_taken hrunning size ha
    rw [hsession]
    exact ⟨hverdict, hrunning, rfl, hwindow, hreport _ size⟩
  · intro hrunning size a
    have hresize := resize_of_not_running hrunning size a
    refine ⟨congrArg (·.verdict) hresize, congrArg (·.session) hresize, ?_,
      congrArg (·.trace) hresize⟩
    show windowAfter f.window (f.session.resize size a).trace = f.window
    rw [hresize]
    rfl

/-- A program changes its window, the terminal refuses a size, and then it takes one. -/
theorem size_in_step_again :
    let f := (Frame.start (.new 1 {} ({} : Emulation.TitleTracker))).run
      [.move (.run "sh" {}), .altered ⟨5, 7⟩,
        .move (.resize ⟨40, 120⟩ { setWindowSize := .error (.errno 5) })]
    (∀ (e : Emulation.TitleTracker) size, (Emulation.resized e size).size = size) ∧
    f.session.isRunning = true ∧ ¬ f.InStep ∧
    (f.resize ⟨30, 90⟩ {}).session.size = ⟨30, 90⟩ ∧
    (f.resize ⟨30, 90⟩ {}).window = some ⟨30, 90⟩ ∧
    (f.resize ⟨30, 90⟩ {}).session.emulation.size = ⟨30, 90⟩ := by
  intro f
  have hreport : ∀ (e : Emulation.TitleTracker) size, (Emulation.resized e size).size = size :=
    fun _ _ ↦ rfl
  have hrunning : f.session.isRunning = true := by decide
  have hresize := (size_in_step 1 {} {} hreport _).2.2.1 hrunning ⟨30, 90⟩ {}
  obtain ⟨-, -, hsize, hwindow, hemulation⟩ := hresize.1 rfl
  exact ⟨hreport, hrunning, by decide, hsize, hwindow, hemulation⟩

/-- Session and terminal do not always have the same size: a session that fails because its terminal
refuses a size has that size all the same, and a session does not learn of a size that its program
gives to the terminal. -/
theorem size_out_of_step :
    let f := (Frame.start (.new 1 {} ({} : Emulation.TitleTracker))).run [.move (.run "sh" {})]
    let refusing : Answers := { setWindowSize := .error (.errno 5) }
    f.session.isRunning = true ∧ f.InStep ∧
    (f.session.resize ⟨40, 120⟩ refusing).verdict = .failed (.device (.errno 5)) ∧
    (f.resize ⟨40, 120⟩ refusing).session.size ≠ f.session.size ∧
    ¬ (f.resize ⟨40, 120⟩ refusing).InStep ∧
    ¬ (f.step (.altered ⟨5, 7⟩)).InStep := by
  decide

end Session

end PtyHost
