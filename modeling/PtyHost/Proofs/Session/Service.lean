import PtyHost.Proofs.Session.Passage

/-!
# What only serves a session

Most of what is done to a session only serves it: the program, the monitoring of its output and the
countdown are left alone, and at most more input is queued. What changes more than that is the start
of the program, a change to what is monitored, or something that an operation has been waiting for.

Main statements: `served_act` on the moves that only serve, and `Course.happening` on what becomes
of a session when something happens that its operation waits for.
-/

namespace PtyHost

/-- Whether a notification is about the output of a session that is monitored. -/
def Notification.isWatch : Notification → Bool
  | .activity _ | .silence _ => true
  | _ => false

namespace Effect

/-- Whether an effect may be part of serving a session. -/
def isService : Effect → Bool
  | .notified n => !n.isFinished && !n.isWatch
  | .queued _ => true
  | e => e.isCall

/-- The input that an effect queues. -/
def queued? : Effect → Option Bytes
  | .queued data => some data
  | _ => none

/-- The input that an effect writes to the terminal. -/
def written? : Effect → Option Bytes
  | .wrote data => some data
  | _ => none

/-- Whether an effect is about a terminal or a program only, and not about input, output or the
owner. -/
def isProvision : Effect → Bool
  | .notified _ | .queued _ | .wrote _ | .fed _ => false
  | _ => true

/-- Serving a session writes no input. -/
theorem written?_of_isService {e : Effect} (h : e.isService = true) : e.written? = none := by
  cases e <;> simp_all [isService, isCall, written?]

/-- What is about a terminal or a program queues no input. -/
theorem queued?_of_isProvision {e : Effect} (h : e.isProvision = true) : e.queued? = none := by
  cases e <;> simp_all [isProvision, queued?]

/-- What is about a terminal or a program writes no input. -/
theorem written?_of_isProvision {e : Effect} (h : e.isProvision = true) : e.written? = none := by
  cases e <;> simp_all [isProvision, written?]

end Effect

namespace Session

/-- The pieces of input that are queued in a trace. -/
def queued (trace : List Effect) : List Bytes := trace.filterMap Effect.queued?

/-- The input that is written to the terminal in a trace. -/
def written (trace : List Effect) : Bytes := (trace.filterMap Effect.written?).flatten

@[simp] theorem queued_nil : queued [] = [] := rfl

@[simp] theorem written_nil : written [] = [] := rfl

@[simp] theorem queued_append (first rest : List Effect) :
    queued (first ++ rest) = queued first ++ queued rest :=
  List.filterMap_append

@[simp] theorem written_append (first rest : List Effect) :
    written (first ++ rest) = written first ++ written rest := by
  simp [written]

/-- Nothing is queued where no effect does so. -/
theorem queued_eq_nil {trace : List Effect} (h : ∀ e ∈ trace, e.queued? = none) :
    queued trace = [] := List.filterMap_eq_nil_iff.2 h

/-- Nothing is written where no effect does so. -/
theorem written_eq_nil {trace : List Effect} (h : ∀ e ∈ trace, e.written? = none) :
    written trace = [] := by
  rw [written, List.filterMap_eq_nil_iff.2 h]
  rfl

variable {ε : Type}

/-- The input that is queued for the running program. -/
def queue (s : Session ε) : List Bytes := (s.running?.map (·.pending)).getD []

/-- When the silence countdown of the running program ends, if there is one. -/
def countdown? (s : Session ε) : Option Nat := s.running?.bind (·.silenceAt)

/-- A session that was served: it has come as far as before and is monitored as before, and behind
what was queued for the program there is what is queued in the trace. -/
structure Served (s : Session ε) (trace : List Effect) (t : Session ε) : Prop where
  phase : s.phase.Alike t.phase
  options : t.options = s.options
  notified : t.notified = s.notified
  countdown : t.countdown? = s.countdown?
  queue : t.queue = s.queue ++ queued trace
  service : ∀ e ∈ trace, e.isService = true

namespace Served

variable {s t u : Session ε} {first rest trace : List Effect}

/-- A session whose program and monitoring are left alone, with a trace that queues nothing. -/
theorem calm (hphase : t.phase = s.phase) (hoptions : t.options = s.options)
    (hnotified : t.notified = s.notified) (hservice : ∀ e ∈ trace, e.isService = true)
    (hqueued : queued trace = []) : Served s trace t where
  phase := hphase ▸ .refl _
  options := hoptions
  notified := hnotified
  countdown := by rw [countdown?, countdown?, running?, running?, hphase]
  queue := by
    rw [Session.queue, Session.queue, running?, running?, hphase, hqueued, List.append_nil]
  service := hservice

/-- A session to which nothing is done. -/
theorem refl (s : Session ε) : Served s [] s := calm rfl rfl rfl (by simp) rfl

/-- A session may be served again. -/
theorem trans (h : Served s first t) (k : Served t rest u) : Served s (first ++ rest) u where
  phase := h.phase.trans k.phase
  options := k.options.trans h.options
  notified := k.notified.trans h.notified
  countdown := k.countdown.trans h.countdown
  queue := by rw [k.queue, h.queue, queued_append, List.append_assoc]
  service := by
    intro e he
    rcases List.mem_append.1 he with hfirst | hrest
    · exact h.service e hfirst
    · exact k.service e hrest

/-- A session that is served has a program running if it had one before. -/
theorem isRunning (h : Served s trace t) : t.isRunning = s.isRunning := by
  rw [Session.isRunning, Session.isRunning, h.phase.state]

/-- Nothing is written while a session is served. -/
theorem written (h : Served s trace t) : written trace = [] :=
  written_eq_nil fun e he ↦ Effect.written?_of_isService (h.service e he)

/-- Changing the lock of a program serves its session. -/
theorem lockOutput (s : Session ε) (locked : Bool) : Served s [] (s.lockOutput locked) := by
  unfold Session.lockOutput modifyRunning
  split
  · next r hr =>
    have halike := alike_setRunning (q := { r with locked }) hr rfl
    change s.running? = some r at hr
    refine ⟨halike.phase, rfl, rfl, ?_, ?_, by simp⟩
    · simp [countdown?, hr]
    · simp [Session.queue, hr]
  · exact calm rfl rfl rfl (by simp) rfl

/-- Queuing input serves a session. -/
theorem enqueue (s : Session ε) (data : Bytes) :
    Served s (s.enqueue data).trace (s.enqueue data).session := by
  unfold Session.enqueue
  split
  · next r hr =>
    have halike := alike_setRunning (q := { r with pending := r.pending ++ [data] }) hr rfl
    refine ⟨halike.phase, rfl, rfl, ?_, ?_, by simp [Effect.isService]⟩
    · simp [countdown?, hr]
    · simp [Session.queue, hr, queued, Effect.queued?]
  · exact refl s

/-- Telling the owner something that is not about monitoring and not the end serves a session. -/
theorem notify (s : Session ε) {n : Notification} (hfinished : n.isFinished = false)
    (hwatch : n.isWatch = false) : Served s (s.notify n).trace (s.notify n).session :=
  calm rfl rfl rfl (by simp [Session.notify, Effect.isService, hfinished, hwatch]) rfl

/-- Setting a title serves a session. -/
theorem setUserTitle (s : Session ε) (what : UInt16) (caption : String) :
    Served s (s.setUserTitle what caption).trace (s.setUserTitle what caption).session := by
  unfold Session.setUserTitle
  split
  · exact refl s
  · next titles _ =>
    split
    · exact refl s
    · have htitled : Served s [] { s with titles } := calm rfl rfl rfl (by simp) rfl
      exact htitled.trans (notify _ rfl rfl)

/-- Acting on an event serves a session. -/
theorem apply (s : Session ε) (event : Emulation.Event) :
    Served s (s.apply event).trace (s.apply event).session := by
  cases event with
  | write data => exact enqueue s data
  | userTitle what caption => exact setUserTitle s what caption
  | sizeRequest size => exact notify s rfl rfl
  | bell => exact notify s rfl rfl
  | lock locked => exact lockOutput s locked

/-- Acting on events serves a session. -/
theorem applyAll (s : Session ε) (events : List Emulation.Event) :
    Served s (s.applyAll events).trace (s.applyAll events).session := by
  have hfold : ∀ t : Traced ε, Served s t.trace t.session →
      Served s (events.foldl (fun t e ↦ t.andThen (·.apply e)) t).trace
        (events.foldl (fun t e ↦ t.andThen (·.apply e)) t).session := by
    induction events with
    | nil => exact fun _ h ↦ h
    | cons event events ih => exact fun t h ↦ ih _ (h.trans (apply t.session event))
  exact hfold ⟨s, []⟩ (refl s)

/-- Sending input serves a session. -/
theorem send (s : Session ε) (data : Bytes) :
    Served s (s.send data).trace (s.send data).session := by
  unfold Session.send
  split
  · split
    · exact refl s
    · exact enqueue s data
  · exact refl s

/-- Sending a signal serves a session. -/
theorem signal (s : Session ε) (sig : Signal) (a : Answers) :
    Served s (s.signal sig a).trace (s.signal sig a).session := by
  unfold Session.signal
  split
  · exact calm rfl rfl rfl (by simp [Effect.isService, Effect.isCall]) rfl
  · exact refl s

/-- Sending a signal by its number serves a session. -/
theorem sendSignal (s : Session ε) (number : Int) (a : Answers) :
    Served s (s.sendSignal number a).trace (s.sendSignal number a).session := by
  unfold Session.sendSignal
  split
  · exact signal s _ a
  · exact refl s

/-- Allowing or forbidding messages serves a session. -/
theorem setWriteable (s : Session ε) (allowed : Bool) (a : Answers) :
    Served s (s.setWriteable allowed a).trace (s.setWriteable allowed a).session := by
  unfold Session.setWriteable
  split
  · split
    · exact calm rfl rfl rfl (by simp [Effect.isService, Effect.isCall]) rfl
    · exact refl s
  · exact refl s

/-- Beginning to end the program serves a session. -/
theorem stop (s : Session ε) (sig : Signal) (grace : Option Nat) (a : Answers) :
    Served s (s.stop sig grace a).trace (s.stop sig grace a).session := by
  unfold Session.stop
  split
  · exact refl s
  · exact refl s
  · exact signal s sig a

variable [Emulation ε]

/-- Changing the window size serves a session. -/
theorem resize (s : Session ε) (size : WindowSize) (a : Answers) :
    Served s (s.resize size a).trace (s.resize size a).session := by
  unfold Session.resize
  split
  · split
    · exact calm rfl rfl rfl (by simp [Effect.isService, Effect.isCall]) rfl
    · exact calm rfl rfl rfl (by simp) rfl
  · exact refl s

/-- Toggling scroll lock serves a session. -/
theorem setScrollLock (s : Session ε) (locked : Bool) :
    Served s (s.setScrollLock locked).trace (s.setScrollLock locked).session := by
  have htoggled : Served s []
      { s with emulation := (Emulation.takeEvents (Emulation.scrollLock s.emulation locked)).2 } :=
    calm rfl rfl rfl (by simp) rfl
  exact htoggled.trans (applyAll _ _)

/-- Handing a block of output to the emulation serves a session. -/
theorem feed (s : Session ε) (block : Bytes) :
    ∃ trace, (s.feed block).trace = .fed block :: trace ∧
      Served s trace (s.feed block).session := by
  have hreceived : Served s []
      { s with emulation := (Emulation.takeEvents (Emulation.receive s.emulation block)).2 } :=
    calm rfl rfl rfl (by simp) rfl
  exact ⟨_, rfl, hreceived.trans (applyAll _ _)⟩

end Served

/-- Giving a terminal back is not about input, output or the owner. -/
theorem isProvision_release (s : Session ε) (a : Answers) :
    ∀ e ∈ (s.release a).trace, e.isProvision = true := by
  intro e he
  unfold release at he
  rcases List.mem_append.1 he with hrevoke | hclose
  · split at hrevoke
    · obtain rfl := List.mem_singleton.1 hrevoke
      rfl
    · cases hrevoke
  · split at hclose
    · obtain rfl := List.mem_singleton.1 hclose
      rfl
    · cases hclose

/-- How an attempt to run a program ends. -/
inductive Attempt (s : Session ε) (program : String) (a : Answers) : Outcome ε Unit → Prop
  | refused {e : SessionError} (busy : s.isRunning = true ∨ s.isTerminated = true) :
      Attempt s program a { session := s, verdict := .failed e }
  | failed {device : Pty.Device} {granted : Bool} {trace : List Effect} {e : SessionError}
      (idle : s.phase = .idle) (provision : ∀ e ∈ trace, e.isProvision = true)
      (failure : (s.startup program a).result = .error e) :
      Attempt s program a
        { session := { s with device, granted }, trace, verdict := .failed e }
  | aborted {device : Pty.Device} {granted : Bool} {trace : List Effect} {pid : Pid}
      (idle : s.phase = .idle) (provision : ∀ e ∈ trace, e.isProvision = true)
      (success : (s.startup program a).result = .ok pid)
      (beyond : firstSilence? s.options a.now = none) :
      Attempt s program a
        { session := { s with device, granted, notified := false }, trace, verdict := .overflow }
  | started {device : Pty.Device} {granted : Bool} {titles : Titles} {trace : List Effect}
      {pid : Pid} {silenceAt : Option Nat} (idle : s.phase = .idle)
      (provision : ∀ e ∈ trace, e.isProvision = true)
      (success : (s.startup program a).result = .ok pid)
      (countdown : firstSilence? s.options a.now = some silenceAt) :
      Attempt s program a
        { session := { s with
            phase := .running { child := ⟨pid, none⟩, locked := s.outputLocked, silenceAt }
            device, granted, titles, program, notified := false }
          trace, verdict := .done () }

/-- An attempt to run a program ends in one of these ways. -/
theorem attempt {s : Session ε} (hs : s.phase.WellFormed) (program : String) (a : Answers) :
    Attempt s program a (s.run program a) := by
  have hstartup : ∀ e ∈ (s.startup program a).trace, e.isProvision = true := by
    intro e he
    have hopening := isOpening_startup s program a e he
    cases e <;> simp_all [isOpening, Effect.isProvision]
  have hmore {rest : List Effect} (hrest : ∀ e ∈ rest, e.isProvision = true) :
      ∀ e ∈ (s.startup program a).trace ++ rest, e.isProvision = true := by
    intro e he
    rcases List.mem_append.1 he with hfirst | hlast
    · exact hstartup e hfirst
    · exact hrest e hlast
  unfold Session.run
  split
  · next hrunning => exact .refused (.inl (decide_eq_true hrunning))
  · next hterminated => exact .refused (.inr (decide_eq_true hterminated))
  next hstate =>
  have idle := eq_idle_of_state hs hstate
  dsimp only
  split
  · next e failure =>
    have hsession := session_release_of_idle (s := s.opened (s.startup program a)) idle a
    show Attempt s program a
      { session := ((s.opened (s.startup program a)).release a).session, trace := _, verdict := _ }
    rw [hsession]
    exact .failed idle (hmore (isProvision_release _ a)) failure
  next pid success =>
  split
  · next beyond => exact .aborted idle (hmore (by simp [Effect.isProvision])) success beyond
  · next silenceAt countdown =>
    simp only [Traced.andThen, Traced.ending, Session.started, idle]
    refine .started idle (hmore ?_) success countdown
    intro e he
    change e ∈ if _ then _ else _ at he
    split at he
    · obtain rfl := List.mem_singleton.1 he
      rfl
    · cases he

/-- Announcing output takes note of it. -/
theorem session_announce (s : Session ε) : s.announce.session = { s with notified := true } := by
  unfold announce
  split
  · next h => rw [← h]
  · split <;> rfl

/-- Output is announced once in each burst, if activity is monitored. -/
theorem trace_announce (s : Session ε) :
    s.announce.trace =
      if s.options.monitorActivity ∧ s.notified = false then [.notified (.activity s.id)]
      else [] := by
  unfold announce
  cases s.notified <;> cases s.options.monitorActivity <;> rfl

/-- What is heard when something happens is that. -/
theorem Course.eq_of_heard? {c : Course ε} {wake heard : Wake} {a : Answers}
    (h : c.heard? (.happen wake a) = some heard) : heard = wake := by
  obtain ⟨_, _, _, hm, -⟩ := heard?_eq_some_iff.1 h
  cases hm
  rfl

/-- Whether a move only serves a session. The others start its program, change what is monitored, or
tell what happens to the operation that waits. -/
def Move.serves : Move → Bool
  | .run .. | .setMonitorActivity _ | .setMonitorSilence .. | .setSilenceTimeout .. | .happen .. =>
    false
  | _ => true

variable [Emulation ε]

/-- A move that only serves a session. -/
theorem served_act {m : Move} (h : m.serves = true) (s : Session ε) (waiting : Option Wait) :
    Served s (m.act s waiting).trace (m.act s waiting).session := by
  cases m with
  | run | setMonitorActivity | setMonitorSilence | setSilenceTimeout | happen => cases h
  | send data => exact .send s data
  | resize size a => exact .resize s size a
  | signal sig a => exact .signal s sig a
  | sendSignal number a => exact .sendSignal s number a
  | setScrollLock locked => exact .setScrollLock s locked
  | setWriteable allowed a => exact .setWriteable s allowed a
  | setUserTitle what caption => exact .setUserTitle s what caption
  | setKeymap keymap => exact .calm rfl rfl rfl (by simp [Move.act, reaching]) rfl
  | process | runUntilFinished => exact .refl s
  | terminate a => exact .stop s _ _ a
  | kill a => exact .stop s _ _ a
  | abandon => exact .refl s

/-- How a block of output is noted. -/
inductive Noting (s : Session ε) (block : Bytes) (now : Nat) : Outcome ε Nat → Prop
  | unwatched (h : s.monitorsOutput = false) :
      Noting s block now ((s.feed block).ending (.done block.length))
  | lost (h : s.monitorsOutput = true)
      (beyond : Clock.after? now s.options.silenceTimeout = none) :
      Noting s block now
        ((⟨{ s with notified := true }, s.announce.trace⟩ : Traced ε).ending .overflow)
  | watched {t : Nat} (h : s.monitorsOutput = true)
      (within : Clock.after? now s.options.silenceTimeout = some t) :
      Noting s block now
        (((⟨{ s with notified := true }.modifyRunning fun r ↦ { r with silenceAt := some t },
          s.announce.trace⟩ : Traced ε).andThen (·.feed block)).ending (.done block.length))

/-- A block of output is noted in one of these ways. -/
theorem noting (s : Session ε) (block : Bytes) (now : Nat) :
    Noting s block now (s.noteOutput block now) := by
  unfold noteOutput
  split
  · next h =>
    simp only [armSilence, session_announce]
    cases hclock : Clock.after? now s.options.silenceTimeout with
    | none =>
      have hannounce : s.announce = ⟨{ s with notified := true }, s.announce.trace⟩ := by
        rw [← session_announce]
      dsimp only [Option.map_none]
      rw [hannounce]
      exact .lost h hclock
    | some t => exact .watched h hclock
  · next h => exact .unwatched (by simpa using h)

/-- What becomes of a session when something happens that its operation waits for. -/
inductive Happening (c : Course ε) (a : Answers) : Wake → Traced ε → Prop
  | noted {g : Goal} (block : Bytes) (waiting : c.waiting = some (.dispatching g)) :
      Happening c a (.output block) (c.session.noteOutput block a.now).toTraced
  | collected {status : ExitStatus} {deadline : Nat} (block : Bytes)
      (waiting : c.waiting = some (.draining status deadline)) :
      Happening c a (.output block) (c.session.feed block)
  | wrote {r : Running} (current : c.session.current? = some r) (count : Nat) :
      Happening c a (.accepted count)
        ⟨c.session.setRunning { r with pending := remaining count r.pending },
          [.wrote ((r.pending.headD []).take count)]⟩
  | cleared {r : Running} (current : c.session.current? = some r) :
      Happening c a .inputClosed ⟨c.session.setRunning { r with pending := [] }, []⟩
  | elapsed : Happening c a .silence c.session.silenceElapsed
  | closed {r : Running} (current : c.session.current? = some r) :
      Happening c a .endOfOutput ⟨c.session.setRunning { r with readOpen := false }, []⟩
  | learnt {r : Running} (current : c.session.current? = some r) (status : ExitStatus) :
      Happening c a (.exited status)
        ⟨c.session.setRunning { r with child := r.child.learn (some status) }, []⟩
  | completed {r : Running} {wake : Wake} (s : Running) (status : ExitStatus)
      (current : c.session.current? = some r)
      (last : wake.endsDrain = true ∨ ∃ reported, wake = .exited reported) :
      Happening c a wake ((c.session.setRunning s).complete status a)
  | killed : Happening c a .graceOver (c.session.signal .kill a).toTraced
  | failed {wake : Wake}
      (failure : ∃ e, wake = .readFailed e ∨ wake = .writeFailed e ∨ wake = .waitFailed e) :
      Happening c a wake ⟨c.session, []⟩

namespace Course

variable {c : Course ε} {wake : Wake} {a : Answers}

/-- What can happen in a move is heard by the operation that waits, which goes on with it. -/
theorem advance_of_heard (h : c.heard? (.happen wake a) = some wake) :
    ∃ r w, c.session.current? = some r ∧ c.waiting = some w ∧ enables r w wake a.now = true ∧
      c.advance (.happen wake a) =
        match w with
        | .dispatching g => c.session.dispatch r g wake a
        | .draining status deadline => c.session.drain r status deadline wake a := by
  obtain ⟨b, r, w, hm, hr, hw, henabled⟩ := heard?_eq_some_iff.1 h
  cases hm
  refine ⟨r, w, hr, hw, henabled, ?_⟩
  cases w <;> simp only [advance, Move.act, hw, Session.resume, hr, henabled, if_true]

/-- What cannot happen changes nothing. -/
theorem advance_of_silent (h : c.heard? (.happen wake a) = none) :
    (c.advance (.happen wake a)).toTraced = ⟨c.session, []⟩ := by
  unfold advance Move.act
  dsimp only
  split
  · next w hw =>
    unfold Session.resume
    split
    · rfl
    · next r hr =>
      have hdisabled : enables r w wake a.now = false := by simpa [heard?, hr, hw] using h
      rw [hdisabled]
      rfl
  · rfl

/-- Something that is heard becomes of a session what can become of it. -/
theorem happening (h : c.heard? (.happen wake a) = some wake) :
    Happening c a wake (c.advance (.happen wake a)).toTraced := by
  obtain ⟨r, w, current, waiting, henabled, hadvance⟩ := advance_of_heard h
  rw [hadvance]
  cases w with
  | dispatching g =>
    cases wake with
    | output block => exact .noted block waiting
    | endOfOutput => exact .closed current
    | readFailed e => exact .failed ⟨e, .inl rfl⟩
    | accepted count => exact .wrote current count
    | inputClosed => exact .cleared current
    | writeFailed e => exact .failed ⟨e, .inr (.inl rfl)⟩
    | silence => exact .elapsed
    | exited status =>
      show Happening c a (.exited status) (c.session.reap r status a).toTraced
      unfold Session.reap
      dsimp only
      split
      · exact .learnt current status
      · exact .completed _ _ current (.inr ⟨status, rfl⟩)
    | waitFailed e => exact .failed ⟨e, .inr (.inr rfl)⟩
    | graceOver => exact .killed
    | drainOver => cases g <;> simp [enables] at henabled
  | draining status deadline =>
    cases wake with
    | output block => exact .collected block waiting
    | endOfOutput => exact .completed _ status current (.inl rfl)
    | readFailed e => exact .completed _ status current (.inl rfl)
    | drainOver => exact .completed r status current (.inl rfl)
    | _ => cases henabled

end Course

end Session

end PtyHost
