import PtyHost.Proofs.Session.Conservation
import PtyHost.Proofs.Session.Service

/-!
# How output is watched for

A session tells its owner of output that arrives after a quiet spell and of silence after output.
All that this depends on is a watch: what is monitored, the time that counts as silence, the mark
that output was announced, and the silence countdown.

Main statements: `Course.shift`, what a move does to the watch, and `Course.overflows_iff`, which
moves ask for a point in time that the clock cannot show.
-/

namespace PtyHost

namespace Session

/-- What a session tells its owner about output that is monitored. -/
inductive Sign
  | activity
  | silence
deriving DecidableEq, Repr

/-- What an effect tells the owner about output that is monitored. -/
def sign? : Effect → Option Sign
  | .notified (.activity _) => some .activity
  | .notified (.silence _) => some .silence
  | _ => none

/-- What a trace tells the owner about output that is monitored. -/
def signs (trace : List Effect) : List Sign := trace.filterMap sign?

/-- What is told is told in two parts. -/
theorem signs_append (first rest : List Effect) :
    signs (first ++ rest) = signs first ++ signs rest := List.filterMap_append

/-- Nothing is told where no effect does so. -/
theorem signs_eq_nil {trace : List Effect} (h : ∀ e ∈ trace, sign? e = none) : signs trace = [] :=
  List.filterMap_eq_nil_iff.2 h

/-- Serving a session tells nothing about its output. -/
theorem sign?_of_isService {e : Effect} (h : e.isService = true) : sign? e = none := by
  unfold sign?
  split
  · cases h
  · cases h
  · rfl

/-- What is about a terminal or a program tells nothing about output. -/
theorem sign?_of_isProvision {e : Effect} (h : e.isProvision = true) : sign? e = none := by
  unfold sign?
  split
  · cases h
  · cases h
  · rfl

/-- A silence countdown that is to start at a point in time, and its span. -/
structure Countdown where
  now : Nat
  span : Nat
deriving DecidableEq, Repr

/-- When a countdown is to end; `none` if the clock cannot show that. -/
def Countdown.end? (d : Countdown) : Option Nat := Clock.after? d.now d.span

/-- All that the monitoring of output depends on. -/
structure Watch where
  state : SessionState
  activity : Bool
  silence : Bool
  span : Nat
  notified : Bool
  countdown : Option Nat
deriving DecidableEq, Repr

/-- Something that matters to the monitoring of output: the program is started, a block of output is
dispatched, the silence countdown comes to its end, and whether this is told, the owner sets the
monitoring of activity, or he starts the countdown again. -/
inductive Incident
  | started
  | dispatched (now : Nat)
  | expired (told : Bool)
  | reset
  | restarted
deriving DecidableEq, Repr

namespace Watch

/-- Whether output is watched for at all. -/
def watches (w : Watch) : Bool := w.activity || w.silence

/-- The watch with another countdown, if a program is running. -/
def counting (w : Watch) (countdown : Option Nat) : Watch :=
  { w with countdown := if w.state = .running then countdown else none }

/-- The countdown of a running program is another one. -/
theorem counting_of_running {w : Watch} (h : w.state = .running) (countdown : Option Nat) :
    w.counting countdown = { w with countdown } := by
  rw [counting, if_pos h]

/-- The countdown is stopped whether or not a program is running. -/
theorem counting_none (w : Watch) : w.counting none = { w with countdown := none } := by
  rw [counting, ite_self]

/-- What is told when a block of output is dispatched. -/
def announcement (w : Watch) : List Sign := if w.activity && !w.notified then [.activity] else []

/-- What is told when the silence countdown comes to its end. -/
def warning (w : Watch) : List Sign := if w.silence then [.silence] else []

/-- What is told when something happens. -/
def tells (w : Watch) : Option Incident → List Sign
  | some (.dispatched _) => w.announcement
  | some (.expired _) => w.warning
  | _ => []

/-- What can become of a watch at a point in time, with the countdown that is to start, the
incident, and what is told. -/
inductive Shift (w : Watch) (now : Nat) :
    Option Countdown → Option Incident → List Sign → Watch → Prop
  | steady : Shift w now none none [] w
  | ended : Shift w now none none [] { w with state := .terminated, countdown := none }
  | started {t : Nat} (idle : w.state = .idle) (within : Clock.after? now w.span = some t)
      (silent : w.silence = true) :
      Shift w now (some ⟨now, w.span⟩) (some .started) []
        { w with state := .running, notified := false, countdown := some t }
  | begun (idle : w.state = .idle) (deaf : w.silence = false) :
      Shift w now none (some .started) []
        { w with state := .running, notified := false, countdown := none }
  | aborted (idle : w.state = .idle) (beyond : Clock.after? now w.span = none) :
      Shift w now (some ⟨now, w.span⟩) (some .started) [] { w with notified := false }
  | reset (activity : Bool) :
      Shift w now none (some .reset) [] { w with activity, notified := false }
  | unheard (active : w.activity = true) : Shift w now none none [] { w with silence := false }
  | stopped (inactive : w.activity = false) :
      Shift w now none none [] ({ w with silence := false }.counting none)
  | respanned (span : Nat) (deaf : w.silence = false) : Shift w now none none [] { w with span }
  | restarted {span t : Nat} (within : Clock.after? now span = some t) :
      Shift w now (some ⟨now, span⟩) (some .restarted) []
        ({ w with silence := true, span }.counting (some t))
  | missed {span : Nat} (beyond : Clock.after? now span = none) :
      Shift w now (some ⟨now, span⟩) none [] { w with silence := true, span }
  | passed (running : w.state = .running) (unwatched : w.watches = false) :
      Shift w now none (some (.dispatched now)) [] w
  | noted {t : Nat} (running : w.state = .running) (watched : w.watches = true)
      (within : Clock.after? now w.span = some t) :
      Shift w now (some ⟨now, w.span⟩) (some (.dispatched now)) w.announcement
        { w with notified := true, countdown := some t }
  | lost (running : w.state = .running) (watched : w.watches = true)
      (beyond : Clock.after? now w.span = none) :
      Shift w now (some ⟨now, w.span⟩) (some (.dispatched now)) w.announcement
        { w with notified := true }
  | expired (due : ∃ t ∈ w.countdown, t ≤ now) :
      Shift w now none (some (.expired w.silence)) w.warning
        { w with notified := false, countdown := none }

/-- What is told depends on the incident and the watch. -/
theorem Shift.told_eq {w v : Watch} {now : Nat} {arms : Option Countdown}
    {incident : Option Incident} {told : List Sign} (h : Shift w now arms incident told v) :
    told = w.tells incident := by
  cases h with
  | passed running unwatched =>
    rw [watches, Bool.or_eq_false_iff] at unwatched
    show [] = w.announcement
    rw [announcement, unwatched.1]
    rfl
  | _ => rfl

end Watch

variable {ε : Type}

/-- How a session watches for output. -/
def watch (s : Session ε) : Watch where
  state := s.phase.state
  activity := s.options.monitorActivity
  silence := s.options.monitorSilence
  span := s.options.silenceTimeout
  notified := s.notified
  countdown := s.countdown?

/-- A session that is served watches for output as before. -/
theorem Served.watch {s t : Session ε} {trace : List Effect} (h : Served s trace t) :
    t.watch = s.watch := by
  unfold Session.watch
  rw [h.phase.state, h.options, h.notified, h.countdown]

/-- Serving a session tells nothing about its output. -/
theorem Served.signs {s t : Session ε} {trace : List Effect} (h : Served s trace t) :
    signs trace = [] :=
  signs_eq_nil fun e he ↦ sign?_of_isService (h.service e he)

/-- The countdown of a running program is changed, and nothing else that matters. -/
theorem watch_modifyRunning {s : Session ε} (hs : s.phase.WellFormed) (silenceAt : Option Nat) :
    (s.modifyRunning fun r ↦ { r with silenceAt }).watch = s.watch.counting silenceAt := by
  unfold watch Watch.counting modifyRunning
  obtain h | ⟨r, h⟩ | ⟨status, h⟩ := hs <;> simp [countdown?, running?, setRunning, h]

/-- Whether a move starts the program of a session. -/
def starts (s : Session ε) (program : String) (a : Answers) : Bool :=
  s.phase.state = .idle && (s.startup program a).result.isOk

/-- The program of an idle session is started if nothing fails that has to be done for that. -/
theorem starts_eq_true_iff {s : Session ε} {program : String} {a : Answers} :
    s.starts program a = true ↔
      s.phase.state = .idle ∧ ∃ pid, (s.startup program a).result = .ok pid := by
  rw [starts, Bool.and_eq_true, decide_eq_true_eq]
  cases (s.startup program a).result <;> simp [Except.isOk, Except.toBool]

/-- The program is not started if the attempt fails. -/
theorem starts_eq_false {s : Session ε} {program : String} {a : Answers} {e : SessionError}
    (h : (s.startup program a).result = .error e) : s.starts program a = false := by
  rw [starts, h, Bool.and_eq_false_iff]
  exact .inr rfl

/-- An idle session says that it is. -/
theorem state_of_idle {s : Session ε} (h : s.phase = .idle) : s.phase.state = .idle :=
  congrArg Phase.state h

/-- A session that runs a program or has ended is not idle. -/
theorem state_ne_idle {s : Session ε} (h : s.isRunning = true ∨ s.isTerminated = true) :
    s.phase.state ≠ .idle := by
  simp only [isRunning, isTerminated, decide_eq_true_eq] at h
  obtain hrunning | hterminated := h
  · simp [hrunning]
  · simp [hterminated]

/-- The first countdown cannot be shown if there is to be one and its end is beyond the clock. -/
theorem firstSilence?_eq_none_iff {o : SessionOptions} {now : Nat} :
    firstSilence? o now = none ↔
      o.monitorSilence = true ∧ Clock.after? now o.silenceTimeout = none := by
  unfold firstSilence?
  cases o.monitorSilence <;> simp

/-- Starting the countdown again asks for its end. -/
theorem verdict_rearmed {s : Session ε} {now : Nat} :
    (s.rearmed now).verdict = .overflow ↔ Clock.after? now s.options.silenceTimeout = none := by
  unfold rearmed armSilence
  cases Clock.after? now s.options.silenceTimeout <;> simp

/-- The point in time at which a move asks for the clock. -/
def Move.time? : Move → Option Nat
  | .run _ a | .terminate a | .happen _ a => some a.now
  | .setMonitorSilence _ now | .setSilenceTimeout _ now => some now
  | _ => none

/-- A move asks for the clock once at most. -/
theorem Move.eq_time (m : Move) : ∀ t ∈ m.time?, t = m.time?.getD 0 := by
  intro t ht
  rw [ht]
  rfl

namespace Course

/-- The block of output that a move dispatches; the rest of the output, once the program has ended,
is collected without being watched for. -/
def dispatched? (c : Course ε) (m : Move) : Option Bytes :=
  if c.isDraining then none else c.block? m

/-- The countdown that a move is to start. -/
def arms? (c : Course ε) (m : Move) : Option Countdown :=
  let span := c.session.options.silenceTimeout
  match m with
  | .run program a =>
    if c.session.starts program a ∧ c.session.options.monitorSilence then some ⟨a.now, span⟩
    else none
  | .setMonitorSilence monitor now =>
    if monitor ∧ c.session.options.monitorSilence = false then some ⟨now, span⟩ else none
  | .setSilenceTimeout span now =>
    if c.session.options.monitorSilence then some ⟨now, span⟩ else none
  | .happen _ a =>
    if (c.dispatched? m).isSome ∧ c.session.monitorsOutput then some ⟨a.now, span⟩ else none
  | _ => none

/-- What a move is for the monitoring of output. -/
def incident? (c : Course ε) (m : Move) : Option Incident :=
  match m with
  | .run program a => if c.session.starts program a then some .started else none
  | .setMonitorActivity _ => some .reset
  | .setMonitorSilence .. | .setSilenceTimeout .. =>
    if (c.arms? m).any (·.end?.isSome) then some .restarted else none
  | .happen _ a =>
    match c.heard? m with
    | some (.output _) => if c.isDraining then none else some (.dispatched a.now)
    | some .silence => some (.expired c.session.options.monitorSilence)
    | _ => none
  | _ => none

variable {c : Course ε} {m : Move}

/-- A move that only serves a session starts no countdown. -/
theorem arms?_of_serves (h : m.serves = true) : c.arms? m = none := by
  cases m with
  | run | setMonitorActivity | setMonitorSilence | setSilenceTimeout | happen => cases h
  | _ => rfl

/-- A move that only serves a session is nothing to the monitoring of output. -/
theorem incident?_of_serves (h : m.serves = true) : c.incident? m = none := by
  cases m with
  | run | setMonitorActivity | setMonitorSilence | setSilenceTimeout | happen => cases h
  | _ => rfl

/-- What is dispatched is heard, and it is not heard while the rest of the output is collected. -/
theorem dispatched?_eq_some_iff {block : Bytes} :
    c.dispatched? m = some block ↔ c.isDraining = false ∧ c.heard? m = some (.output block) := by
  unfold dispatched?
  cases c.isDraining <;> simp [block?_eq_some_iff]

/-- An attempt to run a program starts it, with a countdown if silence is monitored, or changes
nothing that matters to the monitoring of output. -/
theorem shift_run (hc : c.session.phase.WellFormed) (program : String) (a : Answers) :
    Watch.Shift c.session.watch a.now (c.arms? (.run program a)) (c.incident? (.run program a))
      (signs (c.session.run program a).trace) (c.session.run program a).session.watch := by
  have hattempt := attempt hc program a
  revert hattempt
  generalize c.session.run program a = o
  intro hattempt
  have hidle (h : c.session.starts program a ≠ true) :
      c.arms? (.run program a) = none ∧ c.incident? (.run program a) = none := by
    simp [arms?, incident?, h]
  have hquiet {trace : List Effect} (h : ∀ e ∈ trace, e.isProvision = true) : signs trace = [] :=
    signs_eq_nil fun e he ↦ sign?_of_isProvision (h e he)
  cases hattempt with
  | refused busy =>
    obtain ⟨harms, hincident⟩ := hidle fun h ↦ state_ne_idle busy (starts_eq_true_iff.1 h).1
    rw [harms, hincident]
    exact .steady
  | failed idle provision failure =>
    obtain ⟨harms, hincident⟩ := hidle (ne_true_of_eq_false (starts_eq_false failure))
    rw [harms, hincident, hquiet provision]
    exact .steady
  | aborted idle provision success beyond =>
    have hstarts := starts_eq_true_iff.2 ⟨state_of_idle idle, _, success⟩
    obtain ⟨hsilence, hbeyond⟩ := firstSilence?_eq_none_iff.1 beyond
    rw [show c.arms? (.run program a) = some ⟨a.now, c.session.options.silenceTimeout⟩ by
        simp [arms?, hstarts, hsilence],
      show c.incident? (.run program a) = some .started by simp [incident?, hstarts],
      hquiet provision]
    exact .aborted (state_of_idle idle) hbeyond
  | started idle provision success countdown =>
    have hstarts := starts_eq_true_iff.2 ⟨state_of_idle idle, _, success⟩
    rw [show c.incident? (.run program a) = some .started by simp [incident?, hstarts],
      hquiet provision]
    unfold firstSilence? at countdown
    cases hsilence : c.session.options.monitorSilence with
    | false =>
      rw [hsilence] at countdown
      cases countdown
      rw [show c.arms? (.run program a) = none by simp [arms?, hsilence]]
      exact .begun (state_of_idle idle) hsilence
    | true =>
      rw [hsilence] at countdown
      obtain ⟨t, hwithin, rfl⟩ := Option.map_eq_some_iff.1 countdown
      rw [show c.arms? (.run program a) = some ⟨a.now, c.session.options.silenceTimeout⟩ by
        simp [arms?, hstarts, hsilence]]
      exact .started (state_of_idle idle) hwithin hsilence

/-- Silence is monitored with some span from now on, and the countdown starts, unless the clock
cannot show its end. -/
theorem shift_rearmed {w : Watch} {s : Session ε} {span : Nat}
    (h : s.watch = { w with silence := true, span }) (hs : s.phase.WellFormed) (now : Nat) :
    w.Shift now (some ⟨now, span⟩)
      (if (Clock.after? now span).isSome then some .restarted else none)
      (signs (s.rearmed now).trace) (s.rearmed now).session.watch := by
  have hspan : s.options.silenceTimeout = span := congrArg Watch.span h
  unfold rearmed armSilence
  rw [hspan]
  cases hclock : Clock.after? now span with
  | none =>
    show w.Shift now _ none [] s.watch
    rw [h]
    exact .missed hclock
  | some t =>
    show w.Shift now _ (some .restarted) [] (s.modifyRunning _).watch
    rw [watch_modifyRunning hs, h]
    exact .restarted hclock

/-- Turning silence monitoring on starts the countdown, and turning it off stops it, unless activity
is monitored. -/
theorem shift_setMonitorSilence (hc : c.session.phase.WellFormed) (monitor : Bool) (now : Nat) :
    Watch.Shift c.session.watch now (c.arms? (.setMonitorSilence monitor now))
      (c.incident? (.setMonitorSilence monitor now))
      (signs (c.session.setMonitorSilence monitor now).trace)
      (c.session.setMonitorSilence monitor now).session.watch := by
  have hnothing (h : c.arms? (.setMonitorSilence monitor now) = none) :
      c.incident? (.setMonitorSilence monitor now) = none := by
    simp [incident?, h]
  unfold Session.setMonitorSilence
  split
  · next hsame =>
    have harms : c.arms? (.setMonitorSilence monitor now) = none := by
      rw [arms?, hsame]
      cases monitor <;> rfl
    rw [harms, hnothing harms]
    exact .steady
  next hchanged =>
  dsimp only
  split
  · next hon =>
    subst hon
    have harms : c.arms? (.setMonitorSilence true now) =
        some ⟨now, c.session.options.silenceTimeout⟩ := by
      simp [arms?, Bool.eq_false_iff.2 hchanged]
    rw [incident?, harms]
    refine shift_rearmed rfl ?_ now
    exact hc
  · next hoff =>
    have harms : c.arms? (.setMonitorSilence monitor now) = none := by
      simp [arms?, hoff]
    rw [harms, hnothing harms, Bool.eq_false_iff.2 hoff]
    split
    · next hactivity => exact .unheard hactivity
    · next hactivity =>
      rw [watch_modifyRunning]
      · exact .stopped (Bool.eq_false_iff.2 hactivity)
      · exact hc

/-- Changing the time that counts as silence starts a countdown that is watched. -/
theorem shift_setSilenceTimeout (hc : c.session.phase.WellFormed) (span now : Nat) :
    Watch.Shift c.session.watch now (c.arms? (.setSilenceTimeout span now))
      (c.incident? (.setSilenceTimeout span now))
      (signs (c.session.setSilenceTimeout span now).trace)
      (c.session.setSilenceTimeout span now).session.watch := by
  unfold Session.setSilenceTimeout
  dsimp only
  split
  · next hsilence =>
    have harms : c.arms? (.setSilenceTimeout span now) = some ⟨now, span⟩ := by
      simp [arms?, hsilence]
    have hwatch : ({ c.session with
        options := { c.session.options with silenceTimeout := span } } : Session ε).watch =
        { c.session.watch with silence := true, span } := by
      rw [← hsilence]
      rfl
    rw [incident?, harms]
    exact shift_rearmed hwatch hc now
  · next hdeaf =>
    have harms : c.arms? (.setSilenceTimeout span now) = none := by
      simp [arms?, hdeaf]
    have hincident : c.incident? (.setSilenceTimeout span now) = none := by
      simp [incident?, harms]
    rw [harms, hincident]
    exact .respanned span (Bool.eq_false_iff.2 hdeaf)

/-- The end of the countdown is told if silence is monitored. -/
theorem shift_silenceElapsed {s : Session ε} (hs : s.phase.WellFormed) {now : Nat}
    (hdue : ∃ t ∈ s.countdown?, t ≤ now) :
    Watch.Shift s.watch now none (some (.expired s.options.monitorSilence))
      (signs s.silenceElapsed.trace) s.silenceElapsed.session.watch := by
  have hsession : s.silenceElapsed.session.watch =
      { s.watch with notified := false, countdown := none } := by
    have hquiet := watch_modifyRunning (s := { s with notified := false }) hs none
    rw [Watch.counting_none] at hquiet
    unfold Session.silenceElapsed
    split
    · exact hquiet
    · exact hquiet
  have hsigns : signs s.silenceElapsed.trace = s.watch.warning := by
    unfold Session.silenceElapsed Watch.warning Session.watch
    cases s.options.monitorSilence <;> rfl
  rw [hsession, hsigns]
  exact .expired hdue

/-- The end of the countdown is heard when the clock has reached it. -/
theorem due_of_heard {a : Answers} (h : c.heard? (.happen .silence a) = some .silence) :
    ∃ t ∈ c.session.countdown?, t ≤ a.now := by
  obtain ⟨b, r, w, hm, current, -, henabled⟩ := heard?_eq_some_iff.1 h
  cases hm
  rw [countdown?, running?_of_current? current]
  cases w with
  | dispatching g => simpa [enables, Option.any_eq_true] using henabled
  | draining => cases henabled

/-- What is neither output nor the end of the countdown is nothing to the monitoring of output. -/
theorem unwatched_of_heard {wake : Wake} {a : Answers}
    (h : c.heard? (.happen wake a) = some wake) (hdeaf : ∀ block, wake ≠ .output block)
    (hcounting : wake ≠ .silence) :
    c.arms? (.happen wake a) = none ∧ c.incident? (.happen wake a) = none := by
  have hdispatched : c.dispatched? (.happen wake a) = none := by
    rw [Option.eq_none_iff_forall_ne_some]
    intro block hblock
    have hheard := (dispatched?_eq_some_iff.1 hblock).2
    rw [h] at hheard
    exact hdeaf block (Option.some.inj hheard)
  refine ⟨by simp [arms?, hdispatched], ?_⟩
  simp only [incident?, h]
  split
  · next block hwake => exact absurd (Option.some.inj hwake) (hdeaf block)
  · next hwake => exact absurd (Option.some.inj hwake) hcounting
  · rfl

/-- A dispatch step begins without asking for the clock. -/
theorem await_ne_overflow (s : Session ε) (g : Goal) : s.await g ≠ .ended .overflow := by
  unfold await
  split <;> simp

variable [Emulation ε]

/-- An operation that does not wait asks for a point in time that the clock cannot show if that is
its verdict. -/
theorem overflows_of_verdict {o : Outcome ε Unit} (h : c.advance m = finished o) :
    c.overflows m = true ↔ o.verdict = .overflow := by
  unfold overflows
  rw [h, decide_eq_true_iff]
  cases hv : o.verdict <;> simp [finished, reaching, hv, Verdict.map]

/-- An operation that waits or has ended well does not ask for what the clock cannot show. -/
theorem overflows_of_progress (h : (c.advance m).progress ≠ .ended .overflow) :
    c.overflows m = false := decide_eq_false h

/-- A move that only serves a session does not ask for a point in time that the clock cannot
show. -/
theorem overflows_of_serves (h : m.serves = true) : c.overflows m = false := by
  have hverdict {o : Outcome ε Unit} (hm : c.advance m = finished o)
      (ho : o.verdict ≠ .overflow) : c.overflows m = false := by
    rw [Bool.eq_false_iff]
    exact fun h ↦ ho ((overflows_of_verdict hm).1 h)
  have hsignal (sig : Signal) (a : Answers) : (c.session.signal sig a).verdict ≠ .overflow := by
    unfold Session.signal
    split
    · cases a.deliver <;> simp
    · simp
  have hstop (sig : Signal) (grace : Option Nat) (a : Answers) :
      (c.session.stop sig grace a).progress ≠ .ended .overflow := by
    unfold Session.stop
    split
    · simp [Session.refused, reaching]
    · simp [reaching]
    · exact await_ne_overflow _ _
  cases m with
  | run | setMonitorActivity | setMonitorSilence | setSilenceTimeout | happen => cases h
  | send data =>
    refine hverdict rfl ?_
    unfold Session.send
    split <;> simp [Traced.ending]
  | resize size a =>
    refine hverdict rfl ?_
    unfold Session.resize
    split
    · split <;> simp
    · simp
  | signal sig a => exact hverdict rfl (hsignal sig a)
  | sendSignal number a =>
    refine hverdict rfl ?_
    unfold Session.sendSignal
    split
    · exact hsignal _ a
    · simp
  | setScrollLock locked => exact hverdict rfl (by simp [Traced.ending])
  | setWriteable allowed a =>
    refine hverdict rfl ?_
    unfold Session.setWriteable
    split
    · split <;> simp
    · simp
  | setUserTitle what caption => exact hverdict rfl (by simp [Traced.ending])
  | setKeymap keymap => exact overflows_of_progress (by simp [advance, Move.act, reaching])
  | process => exact overflows_of_progress (await_ne_overflow _ _)
  | runUntilFinished =>
    refine overflows_of_progress ?_
    show (if c.session.isRunning then c.session.await .finished else .ended (.done 0)) ≠ _
    split
    · exact await_ne_overflow _ _
    · simp
  | terminate a => exact overflows_of_progress (hstop _ _ a)
  | kill a => exact overflows_of_progress (hstop _ _ a)
  | abandon => exact overflows_of_progress (by simp [advance, Move.act, reaching])

/-- When no output is heard, the clock is not asked for what it cannot show. -/
theorem overflows_of_deaf {wake : Wake} {a : Answers}
    (h : ∀ block, c.heard? (.happen wake a) ≠ some (.output block)) :
    c.overflows (.happen wake a) = false := by
  refine overflows_of_progress ?_
  cases hheard : c.heard? (.happen wake a) with
  | none =>
    unfold advance Move.act
    dsimp only
    split
    · next w hw =>
      unfold Session.resume
      split
      · simp [Session.refused, reaching]
      · next r hr =>
        have hdisabled : enables r w wake a.now = false := by simpa [heard?, hr, hw] using hheard
        simp [hdisabled, reaching]
    · simp [reaching]
  | some heard =>
    obtain rfl := eq_of_heard? hheard
    obtain ⟨r, w, -, -, -, hadvance⟩ := advance_of_heard hheard
    have hafter (g : Goal) : g.after (.done 0) ≠ .ended .overflow := by
      cases g <;> simp [Goal.after]
    rw [hadvance]
    cases w with
    | dispatching g =>
      cases heard with
      | output block => exact absurd hheard (h block)
      | endOfOutput | accepted | inputClosed | silence => exact hafter g
      | readFailed | writeFailed | waitFailed => simp [Session.dispatch, Session.refused, reaching]
      | exited status =>
        show (c.session.reap r status a).progress ≠ _
        unfold Session.reap
        dsimp only
        split <;> simp [reaching]
      | graceOver | drainOver => simp [Session.dispatch, reaching]
    | draining status deadline =>
      show (c.session.drain r status deadline heard a).progress ≠ _
      unfold Session.drain
      split <;> simp [reaching]

/-- A move asks for a point in time that the clock cannot show exactly if it is to start a countdown
that ends beyond the clock. -/
theorem overflows_iff (hc : c.session.phase.WellFormed) :
    c.overflows m = true ↔ ∃ d ∈ c.arms? m, d.end? = none := by
  by_cases hserves : m.serves = true
  · rw [overflows_of_serves hserves, arms?_of_serves hserves]
    simp
  cases m with
  | run program a =>
    rw [overflows_of_verdict rfl]
    have hattempt := attempt hc program a
    revert hattempt
    generalize c.session.run program a = o
    intro hattempt
    cases hattempt with
    | refused busy =>
      have hstarts : c.session.starts program a ≠ true := by
        rw [ne_eq, starts_eq_true_iff]
        exact fun h ↦ state_ne_idle busy h.1
      simp [arms?, hstarts]
    | failed _ _ failure => simp [arms?, starts_eq_false failure]
    | aborted idle _ success beyond =>
      have hstarts := starts_eq_true_iff.2 ⟨state_of_idle idle, _, success⟩
      obtain ⟨hsilence, hbeyond⟩ := firstSilence?_eq_none_iff.1 beyond
      simp [arms?, hstarts, hsilence, Countdown.end?, hbeyond]
    | started idle _ success countdown =>
      have hwithin : firstSilence? c.session.options a.now ≠ none := by
        rw [countdown]
        exact Option.some_ne_none _
      rw [ne_eq, firstSilence?_eq_none_iff, not_and] at hwithin
      have hstarts := starts_eq_true_iff.2 ⟨state_of_idle idle, _, success⟩
      cases hsilence : c.session.options.monitorSilence with
      | false => simp [arms?, hsilence]
      | true => simp [arms?, hstarts, hsilence, Countdown.end?, hwithin hsilence]
  | setMonitorActivity monitor =>
    rw [overflows_of_progress (by simp [advance, Move.act, reaching])]
    simp [arms?]
  | setMonitorSilence monitor now =>
    rw [overflows_of_verdict rfl]
    unfold Session.setMonitorSilence
    cases hsilence : c.session.options.monitorSilence <;> cases monitor <;>
      cases hactivity : c.session.options.monitorActivity <;>
        simp [arms?, hsilence, hactivity, verdict_rearmed, Countdown.end?]
  | setSilenceTimeout span now =>
    rw [overflows_of_verdict rfl]
    unfold Session.setSilenceTimeout
    cases hsilence : c.session.options.monitorSilence <;>
      simp [arms?, hsilence, verdict_rearmed, Countdown.end?]
  | happen wake a =>
    cases hdispatched : c.dispatched? (.happen wake a) with
    | none =>
      have harms : c.arms? (.happen wake a) = none := by simp [arms?, hdispatched]
      have hin : c.overflows (.happen wake a) = false := by
        by_cases hdeaf : ∀ block, c.heard? (.happen wake a) ≠ some (.output block)
        · exact overflows_of_deaf hdeaf
        · obtain ⟨block, hheard⟩ := Classical.not_forall_not.1 hdeaf
          obtain rfl := eq_of_heard? hheard
          rw [Bool.eq_false_iff, ne_eq, overflows_output_iff hheard]
          rintro ⟨hdraining, -, -⟩
          rw [dispatched?_eq_some_iff.2 ⟨hdraining, hheard⟩] at hdispatched
          cases hdispatched
      rw [hin, harms]
      simp
    | some block =>
      obtain ⟨hdraining, hheard⟩ := dispatched?_eq_some_iff.1 hdispatched
      obtain rfl := eq_of_heard? hheard
      rw [overflows_output_iff hheard]
      cases hmonitors : c.session.monitorsOutput <;>
        simp [arms?, hdispatched, hdraining, hmonitors, Countdown.end?]
  | _ => exact absurd rfl hserves

/-- A block of output that is dispatched is announced, and the countdown starts, if output is
watched for. -/
theorem shift_noteOutput {s : Session ε} (hs : s.phase.WellFormed)
    (hrunning : s.phase.state = .running) (block : Bytes) (now : Nat) :
    Watch.Shift s.watch now
      (if s.monitorsOutput then some ⟨now, s.options.silenceTimeout⟩ else none)
      (some (.dispatched now)) (signs (s.noteOutput block now).trace)
      (s.noteOutput block now).session.watch := by
  have hannounce : signs s.announce.trace = s.watch.announcement := by
    rw [trace_announce]
    unfold Watch.announcement watch
    cases s.options.monitorActivity <;> cases s.notified <;> rfl
  have hfeed (t : Session ε) :
      signs (t.feed block).trace = [] ∧ (t.feed block).session.watch = t.watch := by
    obtain ⟨trace, htrace, hserved⟩ := Served.feed t block
    rw [htrace]
    exact ⟨hserved.signs, hserved.watch⟩
  have hnoting := noting s block now
  revert hnoting
  generalize s.noteOutput block now = o
  intro hnoting
  cases hnoting with
  | unwatched h =>
    rw [h]
    show Watch.Shift s.watch now none _ (signs (s.feed block).trace) (s.feed block).session.watch
    rw [(hfeed s).1, (hfeed s).2]
    exact .passed hrunning h
  | lost h beyond =>
    rw [h]
    show Watch.Shift s.watch now _ _ (signs s.announce.trace) _
    rw [hannounce]
    exact .lost hrunning h beyond
  | @watched t h within =>
    rw [h]
    have harmed : ({ s with notified := true }.modifyRunning
        fun r ↦ { r with silenceAt := some t }).watch =
          { s.watch with notified := true, countdown := some t } := by
      rw [watch_modifyRunning]
      · exact Watch.counting_of_running hrunning (some t)
      · exact hs
    show Watch.Shift s.watch now _ _ (signs (s.announce.trace ++ (Session.feed _ block).trace))
      (Session.feed _ block).session.watch
    rw [signs_append, hannounce, (hfeed _).1, (hfeed _).2, harmed, List.append_nil]
    exact .noted hrunning h within

/-- What happens to the operation that waits is a shift. -/
theorem shift_heard (hc : c.session.phase.WellFormed) {wake : Wake} {a : Answers}
    (h : c.heard? (.happen wake a) = some wake) :
    Watch.Shift c.session.watch a.now (c.arms? (.happen wake a)) (c.incident? (.happen wake a))
      (signs (c.advance (.happen wake a)).trace) (c.step (.happen wake a)).session.watch := by
  have hquiet {t : Traced ε} (hdeaf : ∀ block, wake ≠ .output block) (hcounting : wake ≠ .silence)
      (hsigns : signs t.trace = []) (hwatch : t.session.watch = c.session.watch) :
      Watch.Shift c.session.watch a.now (c.arms? (.happen wake a)) (c.incident? (.happen wake a))
        (signs t.trace) t.session.watch := by
    obtain ⟨harms, hincident⟩ := unwatched_of_heard h hdeaf hcounting
    rw [harms, hincident, hsigns, hwatch]
    exact .steady
  have hsame {r s : Running} (current : c.session.current? = some r)
      (hcountdown : s.silenceAt = r.silenceAt) :
      (c.session.setRunning s).watch = c.session.watch := by
    unfold watch countdown?
    rw [running?_setRunning, running?_of_current? current, Option.bind_some, Option.bind_some,
      hcountdown]
    rfl
  have hrunning : c.session.phase.state = .running := by
    obtain ⟨_, _, _, _, current, -⟩ := heard?_eq_some_iff.1 h
    exact of_decide_eq_true (isRunning_of_current? current)
  have hhappening := happening h
  show Watch.Shift _ _ _ _ (signs (c.advance (.happen wake a)).toTraced.trace)
    (c.advance (.happen wake a)).toTraced.session.watch
  revert hhappening
  generalize (c.advance (.happen wake a)).toTraced = t
  intro hhappening
  cases hhappening with
  | noted block waiting =>
    have hdraining : c.isDraining = false := by simp [isDraining, waiting]
    have harms : c.arms? (.happen (.output block) a) =
        if c.session.monitorsOutput then some ⟨a.now, c.session.options.silenceTimeout⟩
        else none := by
      simp [arms?, dispatched?_eq_some_iff.2 ⟨hdraining, h⟩]
    have hincident : c.incident? (.happen (.output block) a) = some (.dispatched a.now) := by
      simp [incident?, h, hdraining]
    rw [harms, hincident]
    exact shift_noteOutput hc hrunning block a.now
  | collected block waiting =>
    have hdraining : c.isDraining = true := by simp [isDraining, waiting]
    have harms : c.arms? (.happen (.output block) a) = none := by
      simp [arms?, dispatched?, hdraining]
    have hincident : c.incident? (.happen (.output block) a) = none := by
      simp [incident?, h, hdraining]
    obtain ⟨trace, htrace, hserved⟩ := Served.feed c.session block
    rw [harms, hincident, htrace, hserved.watch]
    show Watch.Shift _ _ _ _ (signs trace) _
    rw [hserved.signs]
    exact .steady
  | wrote current count => exact hquiet (by simp) (by simp) rfl (hsame current rfl)
  | cleared current => exact hquiet (by simp) (by simp) rfl (hsame current rfl)
  | elapsed =>
    have hdispatched : c.dispatched? (.happen .silence a) = none := by
      rw [dispatched?, block?_eq_none (by simp [h]), ite_self]
    rw [show c.arms? (.happen .silence a) = none by simp [arms?, hdispatched],
      show c.incident? (.happen .silence a) = some (.expired c.session.options.monitorSilence) by
        simp [incident?, h]]
    exact shift_silenceElapsed hc (due_of_heard h)
  | closed current => exact hquiet (by simp) (by simp) rfl (hsame current rfl)
  | learnt current status => exact hquiet (by simp) (by simp) rfl (hsame current rfl)
  | completed s status _ last =>
    have hend : (∀ block, wake ≠ .output block) ∧ wake ≠ .silence := by
      obtain hdrained | ⟨reported, rfl⟩ := last
      · cases wake <;> simp_all [Wake.endsDrain]
      · simp
    obtain ⟨harms, hincident⟩ := unwatched_of_heard h hend.1 hend.2
    obtain ⟨titles, hsession⟩ := session_complete (c.session.setRunning s) status a
    have hsigns : signs ((c.session.setRunning s).complete status a).trace = [] := by
      rw [trace_complete, signs_append,
        signs_eq_nil fun e he ↦ sign?_of_isProvision (isProvision_release _ a e he)]
      unfold Session.farewell
      split <;> rfl
    rw [harms, hincident, hsigns, hsession]
    exact .ended
  | killed =>
    have hserved := Served.signal c.session .kill a
    exact hquiet (by simp) (by simp) hserved.signs hserved.watch
  | failed failure =>
    obtain ⟨e, rfl | rfl | rfl⟩ := failure <;> exact hquiet (by simp) (by simp) rfl rfl

/-- What a move does to the monitoring of output is a shift at the time that the clock shows. -/
theorem shift (hc : c.session.phase.WellFormed) (m : Move) {now : Nat}
    (hnow : ∀ t ∈ m.time?, t = now) :
    Watch.Shift c.session.watch now (c.arms? m) (c.incident? m) (signs (c.advance m).trace)
      (c.step m).session.watch := by
  by_cases hserves : m.serves = true
  · have hserved := served_act hserves c.session c.waiting
    rw [arms?_of_serves hserves, incident?_of_serves hserves,
      show signs (c.advance m).trace = [] from hserved.signs,
      show (c.step m).session.watch = c.session.watch from hserved.watch]
    exact .steady
  cases m with
  | run program a =>
    obtain rfl := hnow a.now rfl
    exact shift_run hc program a
  | setMonitorActivity monitor => exact .reset monitor
  | setMonitorSilence monitor t =>
    obtain rfl := hnow t rfl
    exact shift_setMonitorSilence hc monitor t
  | setSilenceTimeout span t =>
    obtain rfl := hnow t rfl
    exact shift_setSilenceTimeout hc span t
  | happen wake a =>
    obtain rfl := hnow a.now rfl
    cases hheard : c.heard? (.happen wake a) with
    | none =>
      have hdispatched : c.dispatched? (.happen wake a) = none := by
        rw [dispatched?, block?_eq_none (by simp [hheard]), ite_self]
      have hsilent := advance_of_silent hheard
      rw [show c.arms? (.happen wake a) = none by simp [arms?, hdispatched],
        show c.incident? (.happen wake a) = none by simp [incident?, hheard],
        show (c.advance (.happen wake a)).trace = [] from congrArg Traced.trace hsilent]
      show Watch.Shift _ _ _ _ _ (c.advance (.happen wake a)).toTraced.session.watch
      rw [hsilent]
      exact .steady
    | some heard =>
      obtain rfl := eq_of_heard? hheard
      exact shift_heard hc hheard
  | _ => exact absurd rfl hserves

end Course

end Session

end PtyHost
