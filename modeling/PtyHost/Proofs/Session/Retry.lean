import PtyHost.Proofs.Session.Lifecycle

/-!
# Failed attempts to start a program

An attempt fails at the first of its steps that fails, and gives back what the steps before it had
taken. Nothing of it is left, so that the program may be started later as if there had not been an
attempt. Only an attempt that asks for a point in time that the clock cannot show leaves its
terminal behind.

Main statements: `Hurdle.Stops.startup` and `Fresh.run_of_stops` (what has been done when a step
fails), `idle_step` (when an idle session has a terminal left over), `Course.replies_congr` (moves
do not depend on the past) and `failed_run_undone`, which puts them together.
-/

namespace PtyHost

namespace Session

/-- The steps of an attempt to start a program. -/
inductive Hurdle
  | openMaster
  | grant
  | setWindowSize
  | openSlave
  | configureLine
  | duplicate
  | spawn
deriving DecidableEq, Repr

/-- The failure that an answer stands for. -/
def refusal? {α β : Type} (f : α → SessionError) : Except α β → Option SessionError
  | .ok _ => none
  | .error e => some (f e)

/-- An answer stands for no failure if it is what was asked for. -/
theorem refusal?_eq_none_iff {α β : Type} {f : α → SessionError} {answer : Except α β} :
    refusal? f answer = none ↔ ∃ b, answer = .ok b := by
  cases answer <;> simp [refusal?]

/-- An answer stands for the failure that it is. -/
theorem refusal?_eq_some_iff {α β : Type} {f : α → SessionError} {answer : Except α β}
    {e : SessionError} : refusal? f answer = some e ↔ ∃ b, answer = .error b ∧ f b = e := by
  cases answer <;> simp [refusal?]

namespace Hurdle

variable {ε : Type} {s : Session ε} {program : String} {a : Answers} {k : Hurdle}
  {e : SessionError}

/-- All steps before the last, in order. -/
def preparing : List Hurdle :=
  [.openMaster, .grant, .setWindowSize, .openSlave, .configureLine, .duplicate]

/-- All steps, in order. -/
def all : List Hurdle := preparing ++ [.spawn]

/-- The steps before one. -/
def earlier (k : Hurdle) : List Hurdle := all.takeWhile (· ≠ k)

/-- The name of the slave on which the steps after the first are taken. -/
def slave (a : Answers) : Path := a.openMaster.toOption.getD ⟨[]⟩

/-- The failure of a step on a fresh terminal. -/
def failure? (program : String) (a : Answers) : Hurdle → Option SessionError
  | .openMaster => refusal? Pty.OpenFailure.error a.openMaster
  | .grant => refusal? (fun e ↦ e) a.grant
  | .setWindowSize => refusal? .device a.setWindowSize
  | .openSlave =>
    refusal? (fun e ↦
      .deviceUnavailable ("cannot open " ++ (slave a).display ++ ": " ++ e.message)) a.openSlave
  | .configureLine => refusal? .device a.configureLine
  | .duplicate => refusal? .device a.duplicate
  | .spawn => refusal? (.execFailed program) a.spawn

/-- What a step does. -/
def done (s : Session ε) (a : Answers) : Hurdle → List Effect
  | .openMaster => [.openedMaster]
  | .grant => [.requested .grant true]
  | .setWindowSize => [.sizedWindow s.size]
  | .openSlave => [.openedSlave]
  | .configureLine => [.configuredLine s.options.line]
  | .duplicate => []
  | .spawn => (a.spawn.toOption.map Effect.spawned).toList

/-- What a step has done when it fails: only the helper has been asked. -/
def tried : Hurdle → List Effect
  | .grant => [.requested .grant false]
  | _ => []

/-- What is done to give back what there is before a step. -/
def undone (a : Answers) : Hurdle → List Effect
  | .openMaster => []
  | .grant => [.closedMaster]
  | _ => returning a.revoke.toBool

/-- Whether an attempt comes to a step and fails there. -/
structure Stops (program : String) (a : Answers) (k : Hurdle) (e : SessionError) : Prop where
  cleared : ∀ l ∈ k.earlier, l.failure? program a = none
  failure : k.failure? program a = some e

/-- The device before a step. -/
def device (a : Answers) : Hurdle → Pty.Device
  | .openMaster => .closed
  | .grant | .setWindowSize | .openSlave => .opened (slave a) false
  | .configureLine | .duplicate | .spawn => .opened (slave a) true

/-- Whether the slave is granted before a step. -/
def granted : Hurdle → Bool
  | .openMaster | .grant => false
  | _ => true

/-- Takes a step. The last is not one that an attempt goes on from. -/
def act (s : Session ε) (a : Answers) : Hurdle → Startup Unit → Startup Unit
  | .openMaster => Startup.openMaster a
  | .grant => Startup.requestGrant a
  | .setWindowSize => Startup.setWindowSize s.size a
  | .openSlave => Startup.openSlave a
  | .configureLine => Startup.configureLine s.options.line a
  | .duplicate => Startup.duplicate a
  | .spawn => fun u ↦ u

/-- The attempt before a step. -/
def before (s : Session ε) (a : Answers) (k : Hurdle) : Startup Unit :=
  ⟨k.device a, k.granted, k.earlier.flatMap (done s a), .ok ()⟩

/-- The attempt that has failed at a step. -/
def failing {α : Type} (s : Session ε) (a : Answers) (k : Hurdle) (e : SessionError) : Startup α :=
  ⟨k.device a, k.granted, k.earlier.flatMap (done s a) ++ k.tried, .error e⟩

/-- A step before the last fails on what there is before it. -/
theorem act_of_failure (hk : k ≠ .spawn) (h : k.failure? program a = some e) :
    k.act s a (before s a k) = failing s a k e := by
  cases k with
  | openMaster =>
    obtain ⟨o, ho, rfl⟩ := refusal?_eq_some_iff.1 h
    simp only [act, Startup.openMaster, before, device, Pty.Device.openMaster, ho]
    rfl
  | grant =>
    obtain ⟨o, ho, rfl⟩ := refusal?_eq_some_iff.1 h
    simp only [act, Startup.requestGrant, ho]
    rfl
  | setWindowSize =>
    obtain ⟨o, ho, rfl⟩ := refusal?_eq_some_iff.1 h
    simp only [act, Startup.setWindowSize, before, device, Pty.Device.request, ho]
    rfl
  | openSlave =>
    obtain ⟨o, ho, rfl⟩ := refusal?_eq_some_iff.1 h
    simp only [act, Startup.openSlave, before, device, Pty.Device.openSlave, ho]
    rfl
  | configureLine =>
    obtain ⟨o, ho, rfl⟩ := refusal?_eq_some_iff.1 h
    simp only [act, Startup.configureLine, ho]
    rfl
  | duplicate =>
    obtain ⟨o, ho, rfl⟩ := refusal?_eq_some_iff.1 h
    simp only [act, Startup.duplicate, before, device, Pty.Device.request, ho]
    rfl
  | spawn => exact absurd rfl hk

/-- The step before one, if it is not the first. -/
def previous : Hurdle → Hurdle
  | .openMaster | .grant => .openMaster
  | .setWindowSize => .grant
  | .openSlave => .setWindowSize
  | .configureLine => .openSlave
  | .duplicate => .configureLine
  | .spawn => .duplicate

/-- The steps before one are the previous one and those before that. -/
theorem earlier_eq (hk : k ≠ .openMaster) : k.earlier = k.previous.earlier ++ [k.previous] := by
  revert hk
  cases k <;> decide

/-- A step that does not fail leaves what there is before the next. -/
theorem act_previous (hk : k ≠ .openMaster) (h : k.previous.failure? program a = none) :
    k.previous.act s a (before s a k.previous) = before s a k := by
  cases k with
  | openMaster => exact absurd rfl hk
  | grant =>
    obtain ⟨name, hname⟩ := refusal?_eq_none_iff.1 h
    have hslave : slave a = name := by
      rw [slave, hname]
      rfl
    simp only [act, previous, Startup.openMaster, before, device, Pty.Device.openMaster, hname,
      hslave]
    rfl
  | setWindowSize =>
    obtain ⟨_, hgrant⟩ := refusal?_eq_none_iff.1 h
    simp only [act, previous, Startup.requestGrant, hgrant]
    rfl
  | openSlave =>
    obtain ⟨_, hsize⟩ := refusal?_eq_none_iff.1 h
    simp only [act, previous, Startup.setWindowSize, before, device, Pty.Device.request, hsize]
    rfl
  | configureLine =>
    obtain ⟨_, hslave⟩ := refusal?_eq_none_iff.1 h
    simp only [act, previous, Startup.openSlave, before, device, Pty.Device.openSlave, hslave]
    rfl
  | duplicate =>
    obtain ⟨_, hline⟩ := refusal?_eq_none_iff.1 h
    simp only [act, previous, Startup.configureLine, hline]
    rfl
  | spawn =>
    obtain ⟨_, hduplicate⟩ := refusal?_eq_none_iff.1 h
    simp only [act, previous, Startup.duplicate, before, device, Pty.Device.request, hduplicate]
    rfl

/-- Steps of which none fails leave what there is before the next. -/
theorem run_earlier (h : ∀ l ∈ k.earlier, l.failure? program a = none) :
    Startup.run (k.earlier.map (act s a)) (before s a .openMaster) = before s a k := by
  induction hn : k.earlier.length generalizing k with
  | zero =>
    obtain rfl : k = .openMaster := by
      revert hn
      cases k <;> decide
    rfl
  | succ n ih =>
    have hk : k ≠ .openMaster := by
      rintro rfl
      cases hn
    rw [earlier_eq hk] at h hn ⊢
    have hbefore := ih (k := k.previous) (fun l hl ↦ h l (List.mem_append_left _ hl))
      (by simpa using hn)
    rw [List.map_append, Startup.run_append, hbefore]
    exact act_previous hk (h _ (by simp))

/-- The steps from one on, up to the last. -/
theorem preparing_eq (hk : k ≠ .spawn) :
    preparing = k.earlier ++ k :: (preparing.dropWhile (· ≠ k)).tail := by
  revert hk
  cases k <;> decide

/-- An attempt on a fresh terminal takes all steps in order. -/
theorem startup_eq (program : String) (a : Answers) (hdevice : s.device = .closed)
    (hgranted : s.granted = false) :
    s.startup program a =
      (Startup.run (preparing.map (act s a)) (before s a .openMaster)).spawn program a := by
  rw [Session.startup, hdevice, hgranted]
  rfl

/-- An attempt on a fresh terminal that comes to a step and fails there. -/
theorem Stops.startup (h : Stops program a k e) (hdevice : s.device = .closed)
    (hgranted : s.granted = false) : s.startup program a = failing s a k e := by
  rw [startup_eq program a hdevice hgranted]
  by_cases hk : k = .spawn
  · subst hk
    obtain ⟨cause, hcause, rfl⟩ := refusal?_eq_some_iff.1 h.failure
    rw [show preparing = Hurdle.earlier .spawn from rfl, run_earlier h.cleared]
    simp only [Startup.spawn, before, hcause]
    rfl
  · have hfailed : k.act s a (before s a k) = failing s a k e := act_of_failure hk h.failure
    rw [preparing_eq hk, List.map_append, Startup.run_append, run_earlier h.cleared, List.map_cons]
    show (Startup.run _ (k.act s a (before s a k))).spawn program a = _
    rw [hfailed, failing, Startup.run_failed, Startup.spawn_failed]
    rfl

/-- An attempt on a fresh terminal does not fail if none of its steps does. -/
theorem result_startup_eq_ok (h : ∀ k : Hurdle, k.failure? program a = none)
    (hdevice : s.device = .closed) (hgranted : s.granted = false) :
    ∃ pid, (s.startup program a).result = .ok pid := by
  obtain ⟨pid, hpid⟩ := refusal?_eq_none_iff.1 (h .spawn)
  refine ⟨pid, ?_⟩
  rw [startup_eq program a hdevice hgranted, show preparing = Hurdle.earlier .spawn from rfl,
    run_earlier fun l _ ↦ h l]
  simp only [Startup.spawn, before, hpid]

/-- There is a first step that fails, or none fails. -/
theorem stops_or_cleared (program : String) (a : Answers) :
    (∃ k e, Stops program a k e) ∨ ∀ k : Hurdle, k.failure? program a = none := by
  cases hfind : all.find? fun k ↦ (k.failure? program a).isSome with
  | none =>
    refine .inr fun k ↦ ?_
    have hk : k ∈ all := by cases k <;> decide
    simpa using List.find?_eq_none.1 hfind k hk
  | some k =>
    obtain ⟨hk, first, rest, hall, hfirst⟩ := List.find?_eq_some_iff_append.1 hfind
    obtain ⟨e, he⟩ := Option.isSome_iff_exists.1 hk
    have hearlier : k.earlier = first := by
      rw [earlier, hall, List.takeWhile_append_of_pos, List.takeWhile_cons_of_neg (by simp),
        List.append_nil]
      rintro l hl
      have hlk : l ≠ k := by
        rintro rfl
        simpa [hk] using hfirst l hl
      exact decide_eq_true hlk
    refine .inl ⟨k, e, fun l hl ↦ ?_, he⟩
    simpa using hfirst l (hearlier ▸ hl)

/-- What is given back after a step has failed is what there was before it. -/
theorem trace_release_failing :
    ((s.opened (failing s a k e)).release a).trace = k.undone a := by
  cases k <;> simp [release, opened, failing, device, granted, undone, returning, Pty.Device.isOpen]

end Hurdle

variable {ε : Type}

/-- What an idle session is that has no terminal. -/
structure Fresh (s : Session ε) : Prop where
  idle : s.phase = .idle
  device : s.device = .closed
  granted : s.granted = false

/-- What an idle session is that has a terminal all the same, with the slave granted. -/
structure LeftOver (s : Session ε) : Prop where
  idle : s.phase = .idle
  device : s.device.isOpen = true
  granted : s.granted = true

section Run

variable {s : Session ε} {program : String} {a : Answers} {k : Hurdle} {e : SessionError}

/-- A session without a terminal has none left over. -/
theorem Fresh.not_leftOver (hs : s.Fresh) : ¬s.LeftOver := by
  intro hleft
  have hopen := hleft.device
  rw [hs.device] at hopen
  cases hopen

/-- Edits on an idle session without a terminal leave it so. -/
theorem Fresh.alike {t : Session ε} (hs : s.Fresh) (h : s.Alike t) : t.Fresh where
  idle := h.phase.eq_idle hs.idle
  device := h.device.trans hs.device
  granted := h.granted.trans hs.granted

/-- Edits on an idle session with a terminal leave it so. -/
theorem LeftOver.alike {t : Session ε} (hs : s.LeftOver) (h : s.Alike t) : t.LeftOver where
  idle := h.phase.eq_idle hs.idle
  device := (congrArg Pty.Device.isOpen h.device).trans hs.device
  granted := h.granted.trans hs.granted

/-- What an attempt to start a program leaves when it has failed is given back. -/
theorem run_of_failure (idle : s.phase = .idle)
    (failure : (s.startup program a).result = .error e) :
    s.run program a =
      ((⟨s.opened (s.startup program a), (s.startup program a).trace⟩ : Traced ε).andThen
        (·.release a)).ending (.failed e) := by
  simp only [Session.run, opened, idle, failure]

/-- An attempt of which no step has failed does not end with a failure. -/
theorem verdict_run_ne_failed {pid : Pid} (idle : s.phase = .idle)
    (success : (s.startup program a).result = .ok pid) : (s.run program a).verdict ≠ .failed e := by
  simp only [Session.run, idle, success]
  split <;> simp [Traced.ending]

/-- A session without a terminal is as it was when an attempt to start a program has failed. All
that was done is the steps before the one that failed, and giving back what they had taken. -/
theorem Fresh.run_of_stops (hs : s.Fresh) (h : Hurdle.Stops program a k e) :
    s.run program a =
      { session := s, verdict := .failed e,
        trace := k.earlier.flatMap (·.done s a) ++ k.tried ++ k.undone a } := by
  have hstartup := h.startup hs.device hs.granted
  have hsession : ((s.opened (Hurdle.failing s a k e)).release a).session = s := by
    rw [session_release_of_idle (s := s.opened _) hs.idle]
    show { s with device := .closed, granted := false } = s
    rw [← hs.granted, ← hs.device]
  rw [run_of_failure hs.idle (by rw [hstartup]; rfl), hstartup]
  simp only [Traced.andThen, Traced.ending, hsession, Hurdle.trace_release_failing]
  rfl

/-- A session without a terminal fails to start a program exactly if one of the steps fails, and
with the failure of that step. -/
theorem Fresh.verdict_run_eq_failed_iff (hs : s.Fresh) :
    (s.run program a).verdict = .failed e ↔ ∃ k, Hurdle.Stops program a k e := by
  constructor
  · intro hverdict
    rcases Hurdle.stops_or_cleared program a with ⟨k, f, hk⟩ | hcleared
    · rw [hs.run_of_stops hk] at hverdict
      injection hverdict with hf
      exact ⟨k, hf ▸ hk⟩
    · obtain ⟨pid, hpid⟩ := Hurdle.result_startup_eq_ok hcleared hs.device hs.granted
      exact absurd hverdict (verdict_run_ne_failed hs.idle hpid)
  · rintro ⟨k, hk⟩
    rw [hs.run_of_stops hk]

/-- What a failed attempt does is nothing that the owner is told of. -/
theorem Hurdle.notified_notMem (s : Session ε) (a : Answers) (k : Hurdle) (n : Notification) :
    .notified n ∉ k.earlier.flatMap (·.done s a) ++ k.tried ++ k.undone a := by
  have hdone (l : Hurdle) : .notified n ∉ l.done s a := by
    cases l <;> simp [done]
  have htried : .notified n ∉ k.tried := by cases k <;> simp [tried]
  have hundone : .notified n ∉ k.undone a := by cases k <;> simp [undone, returning]
  simp [hdone, htried, hundone]

/-- A terminal that is left over keeps a program from being started, and is given back then. -/
theorem LeftOver.run (hs : s.LeftOver) (program : String) (a : Answers) :
    s.run program a =
      { session := { s with device := .closed, granted := false },
        verdict := .failed (.deviceUnavailable "pty master is already open"),
        trace := returning a.revoke.toBool } := by
  have hstartup : s.startup program a = ⟨s.device, s.granted, [],
      .error (.deviceUnavailable "pty master is already open")⟩ := by
    unfold startup Startup.steps
    rw [Startup.run_going, Startup.openMaster]
    cases hdevice : s.device with
    | closed => exact absurd hs.device (by simp [hdevice, Pty.Device.isOpen])
    | opened slave taken =>
      simp only [Pty.Device.openMaster, Startup.fail, Startup.run_failed, Startup.spawn_failed]
  have hopened : s.opened ⟨s.device, s.granted, [],
      .error (.deviceUnavailable "pty master is already open")⟩ = s := rfl
  rw [run_of_failure hs.idle (by rw [hstartup]), hstartup, hopened]
  simp only [Traced.andThen, Traced.ending, trace_release hs.device hs.granted,
    session_release_of_idle hs.idle]
  rfl

/-- A session that is idle after an attempt to start a program has a terminal left over if the
attempt overflowed, and else it has none. -/
theorem idle_run (hs : s.phase.WellFormed) (h : (s.run program a).session.phase = .idle) :
    (s.run program a).verdict = .overflow ∧ (s.run program a).session.LeftOver ∨
      (s.run program a).verdict ≠ .overflow ∧ (s.run program a).session.Fresh := by
  revert h
  unfold Session.run
  split
  · next hstate => exact fun h ↦ by cases hstate.symm.trans (congrArg Phase.state h)
  · next hstate => exact fun h ↦ by cases hstate.symm.trans (congrArg Phase.state h)
  next hstate =>
  have idle := eq_idle_of_state hs hstate
  dsimp only
  split
  · exact fun h ↦ .inr ⟨by simp [Traced.ending], h, rfl, rfl⟩
  · next pid success =>
    split
    · obtain ⟨hdevice, hgranted⟩ := holds_startup success
      exact fun _ ↦ .inl ⟨rfl, idle, hdevice, hgranted⟩
    · exact fun h ↦ by cases congrArg Phase.state h

end Run

/-! ### Courses -/

/-- Whether a move is an attempt to start a program. -/
def Move.isRun : Move → Bool
  | .run .. => true
  | _ => false

section Moves

variable [Emulation ε] {c : Course ε} {m : Move} {s : Session ε}

/-- No operation on an idle session waits for anything. -/
theorem wait?_act_of_idle (idle : s.phase = .idle) (m : Move) (waiting : Option Wait) :
    (m.act s waiting).progress.wait? = none := by
  have hnone := current?_of_not_running (isRunning_of_idle idle)
  have hrefused (e : SessionError) : (s.refused e).progress.wait? = none := rfl
  cases m with
  | process =>
    simp only [Move.act, process, await, hnone]
    rfl
  | runUntilFinished =>
    simp only [Move.act, runUntilFinished, isRunning_of_idle idle]
    rfl
  | terminate a => simp only [Move.act, terminate, stop, idle, hrefused]
  | kill a => simp only [Move.act, kill, stop, idle, hrefused]
  | happen wake a =>
    cases waiting with
    | none => rfl
    | some w => simp only [Move.act, resume, hnone, hrefused]
  | _ => rfl

/-- What is done to an idle session is made of edits, apart from attempts to start a program. -/
theorem edits_act_of_idle (idle : s.phase = .idle) (hm : m.isRun = false) (waiting : Option Wait) :
    Edits s (m.act s waiting).trace (m.act s waiting).session := by
  cases m with
  | run program a => cases hm
  | send data => exact edits_send s data
  | resize size a => exact edits_resize s size a
  | signal sig a => exact edits_signal s sig a
  | sendSignal number a => exact edits_sendSignal s number a
  | setScrollLock locked => exact edits_setScrollLock s locked
  | setMonitorActivity monitor =>
    exact (Edit.note s { s.options with monitorActivity := monitor } s.size s.titles s.keymap
      false).edits
  | setMonitorSilence monitor now => exact edits_setMonitorSilence s monitor now
  | setSilenceTimeout span now => exact edits_setSilenceTimeout s span now
  | setWriteable allowed a => exact edits_setWriteable s allowed a
  | setUserTitle what caption => exact edits_setUserTitle s what caption
  | setKeymap keymap =>
    exact (Edit.note s s.options s.size s.titles keymap s.notified).edits
  | process | runUntilFinished => exact .nil s
  | terminate a =>
    simp only [Move.act, terminate, stop, idle]
    exact .nil s
  | kill a =>
    simp only [Move.act, kill, stop, idle]
    exact .nil s
  | abandon => exact .nil s
  | happen wake a =>
    cases waiting with
    | none => exact .nil s
    | some w =>
      simp only [Move.act, resume, current?_of_not_running (isRunning_of_idle idle)]
      exact .nil s

/-- No operation waits on an idle session. -/
theorem waiting_run_of_idle {s : Session ε} (hs : s.phase.WellFormed) (moves : List Move)
    (idle : ((Course.start s).run moves).session.phase = .idle) :
    ((Course.start s).run moves).waiting = none := by
  have hstep (c : Course ε) (m : Move) (hc : c.session.phase.WellFormed)
      (_ : c.session.phase = .idle → c.waiting = none) (h : (c.step m).session.phase = .idle) :
      (c.step m).waiting = none :=
    wait?_act_of_idle (Course.idle_of_step hc h) m c.waiting
  exact Course.always_run_of_wellFormed (P := fun c ↦ c.session.phase = .idle → c.waiting = none)
    hstep hs (fun _ ↦ rfl) moves idle

/-- A session that is idle after a move has a terminal left over if the move was an attempt to start
a program that overflowed, or if there was one and the move was no such attempt. -/
theorem idle_step (hw : c.session.phase.WellFormed) (h : (c.step m).session.phase = .idle)
    (hc : c.session.Fresh ∨ c.session.LeftOver) :
    (if m.isRun then c.overflows m = true else c.session.LeftOver) ∧ (c.step m).session.LeftOver ∨
      (if m.isRun then c.overflows m = false else c.session.Fresh) ∧ (c.step m).session.Fresh := by
  have idle := Course.idle_of_step hw h
  cases hm : m.isRun with
  | true =>
    cases m with
    | run program a =>
      have hoverflows : c.overflows (.run program a) =
          decide ((c.session.run program a).verdict = .overflow) := by
        show decide (Progress.ended ((c.session.run program a).verdict.map _) = _) = _
        cases (c.session.run program a).verdict <;> simp [Verdict.map]
      rw [hoverflows]
      rcases idle_run hw h with ⟨hverdict, hleft⟩ | ⟨hverdict, hfresh⟩
      · exact .inl ⟨decide_eq_true hverdict, hleft⟩
      · exact .inr ⟨decide_eq_false hverdict, hfresh⟩
    | _ => cases hm
  | false =>
    have halike := (edits_act_of_idle idle hm c.waiting).alike
    exact hc.symm.imp (fun hleft ↦ ⟨hleft, hleft.alike halike⟩) fun hfresh ↦
      ⟨hfresh, hfresh.alike halike⟩

/-- An idle session has no terminal, or one that is left over. -/
theorem idle_run_cases (id : SessionId) (options : SessionOptions) (e : ε) (moves : List Move)
    (idle : ((Course.start (.new id options e)).run moves).session.phase = .idle) :
    ((Course.start (.new id options e)).run moves).session.Fresh ∨
      ((Course.start (.new id options e)).run moves).session.LeftOver := by
  have hstep (c : Course ε) (m : Move) (hw : c.session.phase.WellFormed)
      (hc : c.session.phase = .idle → c.session.Fresh ∨ c.session.LeftOver)
      (h : (c.step m).session.phase = .idle) :
      (c.step m).session.Fresh ∨ (c.step m).session.LeftOver :=
    (idle_step hw h (hc (Course.idle_of_step hw h))).symm.imp And.right And.right
  exact Course.always_run_of_wellFormed
    (P := fun c ↦ c.session.phase = .idle → c.session.Fresh ∨ c.session.LeftOver) hstep
    Phase.wellFormed_idle (fun _ ↦ .inl ⟨rfl, rfl, rfl⟩) moves idle

namespace Course

/-- What some moves make of the session, one after the other: the session, what is done, and how far
the operation has come. -/
def replies (c : Course ε) : List Move → List (Advance ε)
  | [] => []
  | m :: moves => c.advance m :: (c.step m).replies moves

/-- What moves make of a session depends on it and on the operation that waits, and not on what came
before. -/
theorem replies_congr {c d : Course ε} (hsession : c.session = d.session)
    (hwaiting : c.waiting = d.waiting) (moves : List Move) : c.replies moves = d.replies moves := by
  induction moves generalizing c d with
  | nil => rfl
  | cons m moves ih =>
    have hadvance : c.advance m = d.advance m := by
      rw [advance, advance, hsession, hwaiting]
    have hnext : (c.step m).replies moves = (d.step m).replies moves :=
      ih (congrArg (·.session) hadvance) (congrArg (·.progress.wait?) hadvance)
    rw [replies, replies, hadvance, hnext]

end Course

/-- Attempts that all fail leave a session without a terminal as it is. -/
theorem Fresh.session_run_attempts (hc : c.session.Fresh) {attempts : List (String × Answers)}
    (h : ∀ t ∈ attempts, ∃ k e, Hurdle.Stops t.1 t.2 k e) :
    (c.run (attempts.map fun t ↦ .run t.1 t.2)).session = c.session := by
  induction attempts generalizing c with
  | nil => rfl
  | cons t attempts ih =>
    obtain ⟨k, e, hstops⟩ := h t (by simp)
    have hstep : (c.step (.run t.1 t.2)).session = c.session := by
      show (c.session.run t.1 t.2).session = c.session
      rw [hc.run_of_stops hstops]
    rw [List.map_cons, Course.run_cons,
      ih (by rwa [hstep]) fun u hu ↦ h u (List.mem_cons_of_mem _ hu), hstep]

end Moves

/-- A failed attempt to start a program can be made again, from every idle session that has no
terminal, after every course. It fails exactly if one of its steps fails, and with the failure of
that step. It has taken the steps before that and given back what they had taken, and told the owner
nothing. The session is what it was before, and so is all that any later moves make of it, after any
number of failed attempts. An idle session has a terminal left over exactly since an attempt that
asked for a point in time that the clock cannot show; the next attempt fails for that reason and
gives that terminal back. -/
theorem failed_run_undone [Emulation ε] (id : SessionId) (options : SessionOptions) (e : ε)
    (moves : List Move)
    (hidle : ((Course.start (.new id options e)).run moves).session.phase.state = .idle) :
    let c := (Course.start (.new id options e)).run moves
    (c.session.Fresh →
      (∀ program a e, (c.session.run program a).verdict = .failed e ↔
        ∃ k, Hurdle.Stops program a k e) ∧
      (∀ program a k e, Hurdle.Stops program a k e →
        c.session.run program a =
          { session := c.session, verdict := .failed e,
            trace := k.earlier.flatMap (·.done c.session a) ++ k.tried ++ k.undone a } ∧
        ∀ n, .notified n ∉ (c.session.run program a).trace) ∧
      ∀ attempts : List (String × Answers), (∀ t ∈ attempts, ∃ k e, Hurdle.Stops t.1 t.2 k e) →
        (c.run (attempts.map fun t ↦ .run t.1 t.2)).session = c.session ∧
        ∀ later, (c.run (attempts.map fun t ↦ .run t.1 t.2)).replies later = c.replies later) ∧
    (c.session.Fresh ∨ c.session.LeftOver) ∧
    ((Course.start (.new id options e)).staysInTime moves = true → c.session.Fresh) ∧
    (∀ m, (c.step m).session.phase.state = .idle →
      ((c.step m).session.LeftOver ↔
        if m.isRun then c.overflows m = true else c.session.LeftOver)) ∧
    (c.session.LeftOver → ∀ program a, c.session.run program a =
      { session := { c.session with device := .closed, granted := false },
        verdict := .failed (.deviceUnavailable "pty master is already open"),
        trace := returning a.revoke.toBool }) := by
  intro c
  have hwellFormed : c.session.phase.WellFormed := Course.wellFormed_run Phase.wellFormed_idle moves
  have idle : c.session.phase = .idle := eq_idle_of_state hwellFormed hidle
  have hcases : c.session.Fresh ∨ c.session.LeftOver := idle_run_cases id options e moves idle
  have hwaiting : c.waiting = none := waiting_run_of_idle Phase.wellFormed_idle moves idle
  refine ⟨fun hfresh ↦ ⟨?_, ?_, ?_⟩, hcases, ?_, ?_, fun hleft ↦ hleft.run⟩
  · exact fun program a e ↦ hfresh.verdict_run_eq_failed_iff
  · intro program a k e hstops
    have hrun := hfresh.run_of_stops hstops
    refine ⟨hrun, fun n ↦ ?_⟩
    rw [hrun]
    exact Hurdle.notified_notMem c.session a k n
  · intro attempts hattempts
    have hsession := hfresh.session_run_attempts hattempts
    refine ⟨hsession, Course.replies_congr hsession ?_⟩
    rw [hwaiting, ← Course.run_append]
    refine waiting_run_of_idle Phase.wellFormed_idle _ ?_
    rw [Course.run_append, hsession]
    exact idle
  · intro h
    obtain ⟨hdevice, hgranted, -⟩ := (custody_run id options e h).free (isRunning_of_idle idle)
    exact ⟨idle, hdevice, hgranted⟩
  · intro m hm
    have hnext : (c.step m).session.phase = .idle :=
      eq_idle_of_state (Course.wellFormed_step hwellFormed m) hm
    rcases idle_step (.inl idle) hnext hcases with ⟨hleft, hafter⟩ | ⟨hnone, hafter⟩
    · exact iff_of_true hafter hleft
    · refine iff_of_false hafter.not_leftOver ?_
      split at hnone
      · next hrun => simpa [hrun] using hnone
      · next hrun => simpa [hrun] using hnone.not_leftOver

/-- Two attempts fail, one because the helper refuses and one because there is no such program, and
then the program is started as if they had not been made. -/
theorem failed_run_undone_twice :
    let c : Course Emulation.Discard := .start (.new 1 {} .mk)
    let attempts : List (String × Answers) :=
      [("sh", { grant := .error (.broker .notPrivileged) }),
        ("nosuch", { spawn := .error (.errno 2) })]
    c.session.phase = .idle ∧ c.session.Fresh ∧
    (∀ t ∈ attempts, ∃ k e, Hurdle.Stops t.1 t.2 k e) ∧
    (c.run (attempts.map fun t ↦ .run t.1 t.2)).session = c.session ∧
    (c.run (attempts.map fun t ↦ .run t.1 t.2)).replies [.run "sh" {}] =
      c.replies [.run "sh" {}] := by
  intro c attempts
  have hfresh : c.session.Fresh := ⟨rfl, rfl, rfl⟩
  have hattempts : ∀ t ∈ attempts, ∃ k e, Hurdle.Stops t.1 t.2 k e := by
    simp only [attempts, List.forall_mem_cons]
    exact ⟨⟨.grant, .broker .notPrivileged, by decide, by decide⟩,
      ⟨.spawn, .execFailed "nosuch" (.errno 2), by decide, by decide⟩, by simp⟩
  obtain ⟨-, -, hundone⟩ :=
    (failed_run_undone 1 {} Emulation.Discard.mk [] rfl).1 hfresh
  obtain ⟨hsession, hreplies⟩ := hundone attempts hattempts
  exact ⟨rfl, hfresh, hattempts, hsession, hreplies _⟩

end Session

end PtyHost
