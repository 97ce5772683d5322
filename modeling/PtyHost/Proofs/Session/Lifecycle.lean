import PtyHost.Proofs.Emulation.Quiet
import PtyHost.Proofs.Session.Custody

/-!
# The life of a session

A session is idle, then runs a program, and then has ended. What belongs to the running program is
there exactly while it is running, and the owner is told of the end once, with the status that the
program was reaped with, when the terminal has been given back.

Main statements: `Course.leads` on the order of the phases, `trace_advance_of_terminated` on what an
ended session still does, and `lifecycle_run` on what is so throughout a course.
-/

namespace PtyHost

/-- Whether an effect tells the owner that the session has finished. -/
def Effect.isFinish : Effect → Bool
  | .notified n => n.isFinished
  | _ => false

/-- Nothing minor tells of the end. -/
theorem Effect.isFinish_of_isMinor {e : Effect} (h : e.isMinor = true) : e.isFinish = false := by
  cases e <;> simp_all [isMinor, isCall, isFinish]

/-- Which phase may come after which: a program is started, has one number as long as it is running,
and ends for good. -/
inductive Phase.Leads : Phase → Phase → Prop
  | rest : Leads .idle .idle
  | start (r : Running) (h : r.child.reaped = none) : Leads .idle (.running r)
  | proceed (r s : Running) (h : s.child.pid = r.child.pid) : Leads (.running r) (.running s)
  | finish (r : Running) (status : ExitStatus) : Leads (.running r) (.terminated status)
  | stay (status : ExitStatus) : Leads (.terminated status) (.terminated status)

/-- A phase leads to any that is alike. -/
theorem Phase.Alike.leads {p q : Phase} (h : p.Alike q) (hp : p.WellFormed) : p.Leads q := by
  obtain hidle | ⟨r, hrunning⟩ | ⟨status, hterminated⟩ := hp
  · rw [h.eq_idle hidle, hidle]
    exact .rest
  · obtain ⟨s, rfl, hchild, -⟩ := h.of_running hrunning
    rw [hrunning]
    exact .proceed r s (congrArg Child.pid hchild)
  · rw [h.eq_terminated hterminated, hterminated]
    exact .stay status

namespace Session

variable {ε : Type}

/-- The status that the program is known to have ended with. -/
def learnt? (s : Session ε) : Option ExitStatus :=
  s.exitStatus?.or (s.running?.bind (·.child.reaped))

/-- What is known of the end of a running program is what it was reaped with. -/
theorem learnt?_of_running {s : Session ε} {r : Running} (h : s.phase = .running r) :
    s.learnt? = r.child.reaped := by
  simp [learnt?, exitStatus?, running?, h]

/-- A session that has ended knows how. -/
theorem learnt?_of_terminated {s : Session ε} {status : ExitStatus}
    (h : s.phase = .terminated status) : s.learnt? = some status := by
  simp [learnt?, exitStatus?, h]

/-- Sessions that have come equally far know the same of the end. -/
theorem Alike.learnt? {s t : Session ε} (h : s.Alike t) : t.learnt? = s.learnt? := by
  rw [Session.learnt?, Session.learnt?, h.exitStatus?]
  exact congrArg _ (h.phase.bind_core fun core ↦ core.1.reaped)

/-- How the owner of a session is told of its end: the terminal has been given back, nothing has
been said of the end before, and only new titles are told of after that. -/
inductive Told (id : SessionId) (status : ExitStatus) : List Effect → Prop
  | intro {before titles later : List Effect} (revoked : Bool)
      (first : ∀ e ∈ before, e.isFinish = false)
      (between : ∀ e ∈ titles, e = .notified (.titleChanged id))
      (last : ∀ e ∈ later, e = .notified (.titleChanged id)) :
      Told id status
        (before ++ (returning revoked ++ (titles ++ .notified (.finished id status) :: later)))

/-- New titles may be told of after the end. -/
theorem Told.append {id : SessionId} {status : ExitStatus} {trace more : List Effect}
    (h : Told id status trace) (hmore : ∀ e ∈ more, e = .notified (.titleChanged id)) :
    Told id status (trace ++ more) := by
  obtain ⟨revoked, first, between, last⟩ := h
  rw [List.append_assoc, List.append_assoc, List.append_assoc, List.cons_append]
  refine .intro revoked first between ?_
  intro e he
  rcases List.mem_append.1 he with hlast | hnew
  · exact last e hlast
  · exact hmore e hnew

/-- Completing a session tells its owner of the end, if nothing has been said of it before. -/
theorem told_complete {s : Session ε} {before : List Effect} (status : ExitStatus) (a : Answers)
    (hdevice : s.device.isOpen = true) (hgranted : s.granted = true)
    (hbefore : ∀ e ∈ before, e.isFinish = false) :
    Told s.id status (before ++ (s.complete status a).trace) := by
  rw [trace_complete, trace_release hdevice hgranted]
  refine .intro a.revoke.toBool hbefore ?_ ?_
  · intro e he
    split at he
    · cases he
    · exact List.mem_singleton.1 he
  · intro e he
    cases he

/-- An attempt to start a program says nothing of an end. -/
theorem isFinish_startup (s : Session ε) (program : String) (a : Answers) :
    ∀ e ∈ (s.startup program a).trace, e.isFinish = false := by
  intro e he
  have hopening := isOpening_startup s program a e he
  cases e <;> first | rfl | cases hopening

/-- Giving a terminal back says nothing of an end. -/
theorem isFinish_release (s : Session ε) (a : Answers) :
    ∀ e ∈ (s.release a).trace, e.isFinish = false := by
  intro e he
  unfold release at he
  rcases List.mem_append.1 he with hrevoke | hclose
  · split at hrevoke
    · obtain rfl := List.mem_singleton.1 hrevoke
      rfl
    · cases hrevoke
  · split at hclose
    · obtain rfl := List.mem_singleton.1 hclose
      rfl
    · cases hclose

/-- Holding output and letting it go leaves no trace. -/
theorem trace_applyAll_of_locks (s : Session ε) {events : List Emulation.Event}
    (h : ∀ event ∈ events, ∃ held, event = .lock held) : (s.applyAll events).trace = [] := by
  have hfold : ∀ t : Traced ε,
      (events.foldl (fun t e ↦ t.andThen (·.apply e)) t).trace = t.trace := by
    induction events with
    | nil => exact fun _ ↦ rfl
    | cons event events ih =>
      intro t
      obtain ⟨held, rfl⟩ := h event List.mem_cons_self
      rw [List.foldl_cons, ih fun e he ↦ h e (List.mem_cons_of_mem _ he)]
      exact List.append_nil t.trace
  exact hfold ⟨s, []⟩

/-- Setting a title tells of new titles at most. -/
theorem trace_setUserTitle (s : Session ε) (what : UInt16) (caption : String) :
    ∀ e ∈ (s.setUserTitle what caption).trace, e = .notified (.titleChanged s.id) := by
  unfold setUserTitle
  split
  · simp
  · split
    · simp
    · simp [notify]

/-- Starting the countdown again leaves no trace. -/
theorem trace_rearmed (s : Session ε) (now : Nat) : (s.rearmed now).trace = [] := by
  unfold rearmed
  split <;> rfl

/-- Turning silence monitoring on or off leaves no trace. -/
theorem trace_setMonitorSilence (s : Session ε) (monitor : Bool) (now : Nat) :
    (s.setMonitorSilence monitor now).trace = [] := by
  unfold setMonitorSilence
  split
  · rfl
  · dsimp only
    split
    · exact trace_rearmed _ now
    · split <;> rfl

/-- Changing the time that counts as silence leaves no trace. -/
theorem trace_setSilenceTimeout (s : Session ε) (span now : Nat) :
    (s.setSilenceTimeout span now).trace = [] := by
  unfold setSilenceTimeout
  dsimp only
  split
  · exact trace_rearmed _ now
  · rfl

variable [Emulation ε]

/-- Every move leaves the phase or goes on to the next. -/
theorem Course.leads (c : Course ε) (hc : c.session.phase.WellFormed) (m : Move) :
    c.session.phase.Leads (c.step m).session.phase := by
  have hpassage := c.passage hc m
  show c.session.phase.Leads (c.advance m).session.phase
  revert hpassage
  generalize c.advance m = next
  intro hpassage
  cases hpassage with
  | edits _ _ edits _ => exact edits.alike.phase.leads hc
  | output _ before after _ _ _ => exact (before.alike.through after.alike).phase.leads hc
  | lost _ before => exact before.alike.phase.leads hc
  | closed running =>
    rw [running]
    exact .proceed _ _ rfl
  | refused idle | aborted idle =>
    simp only [reaching, Traced.andThen, release, opened, idle]
    exact .rest
  | started silenceAt idle =>
    simp only [reaching, Traced.andThen, Session.started, opened, idle]
    exact .start _ rfl
  | reaped _ running _ =>
    rw [running]
    exact .proceed _ _ rfl
  | @ended r s status a running | @drained r s status _ _ a running =>
    rw [running]
    show Phase.Leads _ (Session.complete _ _ a).session.phase
    rw [phase_complete]
    exact .finish r _

/-- A session that is idle after a move was so before. -/
theorem Course.idle_of_step {c : Course ε} {m : Move} (hc : c.session.phase.WellFormed)
    (h : (c.step m).session.phase = .idle) : c.session.phase = .idle := by
  have hleads := c.leads hc m
  rw [h] at hleads
  generalize c.session.phase = p at hleads
  cases hleads
  rfl

/-- A session that has ended has ended for good. -/
theorem Course.isTerminated_step {c : Course ε} (hc : c.session.phase.WellFormed)
    (h : c.session.isTerminated = true) (m : Move) : (c.step m).session.isTerminated = true := by
  obtain ⟨status, hphase⟩ := (isTerminated_iff hc).1 h
  have hleads := c.leads hc m
  rw [hphase] at hleads
  unfold isTerminated
  generalize (c.step m).session.phase = next at hleads
  cases hleads with
  | stay => rfl

/-- A session that has ended has ended throughout the rest of its course. -/
theorem Course.isTerminated_run {c : Course ε} (hc : c.session.phase.WellFormed)
    (h : c.session.isTerminated = true) (moves : List Move) :
    (c.run moves).session.isTerminated = true := by
  induction moves generalizing c with
  | nil => exact h
  | cons m moves ih => exact ih (wellFormed_step hc m) (isTerminated_step hc h m)

/-- A session that has ended does nothing any more but to tell of new titles. -/
theorem trace_advance_of_terminated [Emulation.Modest ε] {c : Course ε} {status : ExitStatus}
    (hphase : c.session.phase = .terminated status) (hquiet : Emulation.Quiet c.session.emulation)
    (m : Move) :
    ∀ e ∈ (c.advance m).trace, e = .notified (.titleChanged c.session.id) := by
  have hnone {trace : List Effect} (h : trace = []) :
      ∀ e ∈ trace, e = .notified (.titleChanged c.session.id) := by simp [h]
  have hcurrent := current?_of_not_running (isRunning_of_terminated hphase)
  have hsignal (sig : Signal) (a : Answers) : (c.session.signal sig a).trace = [] := by
    simp [Session.signal, hcurrent]
  unfold Course.advance
  cases m with
  | run program a => exact hnone (by simp [Move.act, finished, reaching, Session.run, hphase])
  | send data => exact hnone (by simp [Move.act, finished, reaching, Session.send, hcurrent])
  | resize size a => exact hnone (by simp [Move.act, finished, reaching, Session.resize, hcurrent])
  | signal sig a => exact hnone (hsignal sig a)
  | sendSignal number a =>
    refine hnone ?_
    show (c.session.sendSignal number a).trace = []
    unfold Session.sendSignal
    split
    · exact hsignal _ a
    · rfl
  | setScrollLock locked =>
    -- a quiet emulation answers a toggle with a lock at most
    exact hnone (trace_applyAll_of_locks _ (Emulation.Modest.lock_of_mem locked hquiet))
  | setMonitorActivity monitor => exact hnone rfl
  | setMonitorSilence monitor now => exact hnone (trace_setMonitorSilence c.session monitor now)
  | setSilenceTimeout span now => exact hnone (trace_setSilenceTimeout c.session span now)
  | setWriteable allowed a =>
    exact hnone (by simp [Move.act, finished, reaching, Session.setWriteable, hcurrent])
  | setUserTitle what caption => exact trace_setUserTitle c.session what caption
  | setKeymap keymap => exact hnone rfl
  | process | runUntilFinished => exact hnone rfl
  | terminate a =>
    exact hnone (by simp [Move.act, Session.terminate, Session.stop, reaching, hphase])
  | kill a => exact hnone (by simp [Move.act, Session.kill, Session.stop, reaching, hphase])
  | abandon => exact hnone rfl
  | happen wake a =>
    refine hnone ?_
    unfold Move.act
    dsimp only
    split
    · simp [Session.resume, hcurrent, Session.refused, reaching]
    · rfl

/-- Edits leave a quiet emulation quiet. -/
theorem Edits.quiet [Emulation.Modest ε] {s t : Session ε} {trace : List Effect}
    (h : Edits s trace t) (hs : Emulation.Quiet s.emulation) : Emulation.Quiet t.emulation := by
  refine h.keep (P := fun u ↦ Emulation.Quiet u.emulation) ?_ hs
  intro s trace t edit hs
  cases edit with
  | tell | call | note | enqueue | write | clear => exact hs
  | lock locked =>
    unfold lockOutput modifyRunning
    split <;> exact hs
  | countdown silenceAt =>
    unfold modifyRunning
    split <;> exact hs
  | resized size => exact Emulation.Modest.quiet_resized size hs
  | toggle locked => exact Emulation.Modest.quiet_taken _

section Passage

variable {c : Course ε} {m : Move} {next : Advance ε}

/-- A session keeps its number. -/
theorem Passage.number (h : Passage c m next) : next.session.id = c.session.id := by
  cases h with
  | edits _ _ edits _ => exact edits.alike.id
  | output _ before after _ _ _ => exact (before.alike.through after.alike).id
  | lost _ before => exact before.alike.id
  | closed | refused | aborted | started | reaped => rfl
  | ended a | drained a => exact id_complete _ _ a

/-- A session learns of the end of its program what is reported first. -/
theorem Passage.learnt? (h : Passage c m next)
    (hwaiting : ∀ status deadline, c.waiting = some (.draining status deadline) →
      c.session.learnt? = some status) :
    next.session.learnt? = c.session.learnt?.or (c.exit? m) := by
  have hunaware {s : Session ε} (hs : s.learnt? = c.session.learnt?) (h : c.exit? m = none) :
      s.learnt? = c.session.learnt?.or (c.exit? m) := by
    rw [hs, h, Option.or_none]
  have hcompleted (s : Session ε) (status : ExitStatus) (a : Answers) :
      (s.complete status a).session.learnt? = some status := by
    exact learnt?_of_terminated (phase_complete s status a)
  have hexited {status : ExitStatus} (heard : c.heard? m = some (.exited status)) :
      c.exit? m = some status := by simp [Course.exit?, heard]
  cases h with
  | edits _ unaware edits _ => exact hunaware edits.alike.learnt? unaware
  | output heard before after _ _ _ =>
    exact hunaware (before.alike.through after.alike).learnt? (Course.exit?_eq_none heard (by simp))
  | lost heard before =>
    exact hunaware before.alike.learnt? (Course.exit?_eq_none heard (by simp))
  | closed running heard =>
    refine hunaware ?_ (Course.exit?_eq_none heard (by simp))
    rw [learnt?_of_running running]
    rfl
  | refused idle silent | aborted idle silent | started _ idle silent =>
    refine hunaware ?_ (by simp [Course.exit?, silent])
    simp [Session.learnt?, Session.exitStatus?, Session.running?, idle, reaching, Traced.andThen,
      release, opened, Session.started]
  | @reaped r status deadline running heard =>
    rw [hexited heard, learnt?_of_running running]
    show (r.child.learn (some status)).reaped = r.child.reaped.or (some status)
    cases hreaped : r.child.reaped <;> simp [Child.learn, hreaped]
  | @ended r s status a running shut heard =>
    refine (hcompleted _ _ a).trans ?_
    rw [hexited heard, learnt?_of_running running]
    cases r.child.reaped <;> rfl
  | @drained r s status deadline wake a running waiting heard last =>
    refine (hcompleted _ _ a).trans ?_
    rw [hwaiting status deadline waiting]
    rfl

/-- The rest of the output is collected of a program that is known to have ended. -/
theorem Passage.awaited (h : Passage c m next)
    (hwaiting : ∀ status deadline, c.waiting = some (.draining status deadline) →
      c.session.learnt? = some status) :
    ∀ status deadline, next.progress.wait? = some (.draining status deadline) →
      next.session.learnt? = some status := by
  intro status deadline hnext
  cases h with
  | edits _ _ edits waits =>
    rw [edits.alike.learnt?]
    exact hwaiting status deadline (waits status deadline hnext)
  | output _ before after _ _ waits =>
    rw [(before.alike.through after.alike).learnt?]
    exact hwaiting status deadline (waits status deadline hnext)
  | closed _ _ waits => exact absurd hnext (waits status deadline)
  | @reaped r reported d =>
    obtain ⟨rfl, -⟩ := Wait.draining.inj (Option.some.inj hnext)
    show (r.child.learn (some reported)).reaped = some (r.child.reaped.getD reported)
    cases hreaped : r.child.reaped <;> simp [Child.learn, hreaped]
  | lost | refused | aborted | started | ended | drained => cases hnext

/-- What a session knows of the end of its program stays what was reported first. -/
theorem Course.head?_exits_step (hc : c.session.phase.WellFormed)
    (hexits : c.exits.head? = c.session.learnt?)
    (hwaiting : ∀ status deadline, c.waiting = some (.draining status deadline) →
      c.session.learnt? = some status) (m : Move) :
    (c.step m).exits.head? = (c.step m).session.learnt? := by
  show (c.exits ++ (c.exit? m).toList).head? = (c.advance m).session.learnt?
  rw [(c.passage hc m).learnt? hwaiting, List.head?_append, hexits]
  cases c.exit? m <;> rfl

/-- A passage leaves a quiet emulation quiet. -/
theorem Passage.keepsQuiet [Emulation.Modest ε] (h : Passage c m next)
    (hc : Emulation.Quiet c.session.emulation) : Emulation.Quiet next.session.emulation := by
  cases h with
  | edits _ _ edits _ => exact edits.quiet hc
  | output _ _ after _ _ _ => exact after.quiet (Emulation.Modest.quiet_taken _)
  | lost _ before => exact before.quiet hc
  | closed | refused | aborted | started | reaped => exact hc
  | ended a | drained a =>
    show Emulation.Quiet (Session.complete _ _ a).session.emulation
    rw [emulation_complete]
    exact hc

/-- A passage after which a session has not ended says nothing of an end. -/
theorem Passage.untold (h : Passage c m next) (hnext : next.session.isTerminated = false) :
    ∀ e ∈ next.trace, e.isFinish = false := by
  have hminor {trace : List Effect} (h : ∀ e ∈ trace, e.isMinor = true) :
      ∀ e ∈ trace, e.isFinish = false := fun e he ↦ Effect.isFinish_of_isMinor (h e he)
  have hcompleted {s : Session ε} {status : ExitStatus} {a : Answers}
      (h : (s.complete status a).session.isTerminated = false) : False := by
    simp [isTerminated] at h
  intro e he
  cases h with
  | edits _ _ edits _ => exact hminor edits.isMinor e he
  | output _ before after trace _ _ =>
    rw [trace] at he
    rcases before.fed_or_isMinor after e he with rfl | hminor
    · rfl
    · exact Effect.isFinish_of_isMinor hminor
  | lost _ before => exact hminor before.isMinor e he
  | closed | reaped => cases he
  | refused =>
    rcases List.mem_append.1 he with hstartup | hrelease
    · exact isFinish_startup _ _ _ e hstartup
    · exact isFinish_release _ _ e hrelease
  | aborted =>
    rcases List.mem_append.1 he with hstartup | habandoned
    · exact isFinish_startup _ _ _ e hstartup
    · obtain rfl := List.mem_singleton.1 habandoned
      rfl
  | started =>
    rcases List.mem_append.1 he with hstartup | hmessages
    · exact isFinish_startup _ _ _ e hstartup
    change e ∈ if _ then _ else _ at hmessages
    split at hmessages
    · obtain rfl := List.mem_singleton.1 hmessages
      rfl
    · cases hmessages
  | ended | drained => exact (hcompleted hnext).elim

end Passage

/-- What is so at every point of the life of a session. -/
structure Lifecycle (id : SessionId) (c : Course ε) : Prop where
  wellFormed : c.session.phase.WellFormed
  custody : Custody c
  number : c.session.id = id
  quiet : Emulation.Quiet c.session.emulation
  exits : c.exits.head? = c.session.learnt?
  waiting : ∀ status deadline, c.waiting = some (.draining status deadline) →
    c.session.learnt? = some status
  untold : c.session.isTerminated = false → ∀ e ∈ c.trace, e.isFinish = false
  told : ∀ status, c.session.phase = .terminated status → Told id status c.trace

namespace Lifecycle

variable {id : SessionId} {c : Course ε} {m : Move}

/-- A session that has done nothing has not begun to live. -/
theorem start (options : SessionOptions) {e : ε} (hquiet : Emulation.Quiet e) :
    Lifecycle id (Course.start (.new id options e)) where
  wellFormed := Phase.wellFormed_idle
  custody := .start id options e
  number := rfl
  quiet := hquiet
  exits := rfl
  waiting := by
    intro status deadline h
    cases h
  untold := by
    intro _ e he
    cases he
  told := by
    intro status h
    cases h

/-- The move that ends a session tells its owner of the end, and those behind it tell of nothing but
new titles. -/
theorem tells [Emulation.Modest ε] (hc : Lifecycle id c) {status : ExitStatus}
    (hnext : (c.step m).session.phase = .terminated status) : Told id status (c.step m).trace := by
  have hlater (h : c.session.phase = .terminated status) :
      Told id status (c.trace ++ (c.advance m).trace) := by
    have hlate := trace_advance_of_terminated h hc.quiet m
    rw [hc.number] at hlate
    exact (hc.told status h).append hlate
  have hpassage := c.passage hc.wellFormed m
  change (c.advance m).session.phase = _ at hnext
  show Told id status (c.trace ++ (c.advance m).trace)
  revert hlater hpassage hnext
  generalize c.advance m = next
  intro hlater hpassage hnext
  have halike {s : Session ε} (h : c.session.Alike s) (hs : s.phase = .terminated status) :
      c.session.phase = .terminated status := by
    rw [← exitStatus?_eq_some_iff hc.wellFormed, ← h.exitStatus?, exitStatus?, hs]
  have hcompleted {r s : Running} {reaped : ExitStatus} {a : Answers}
      (running : c.session.phase = .running r)
      (h : ({ c.session with phase := .running s }.complete reaped a).session.phase =
        .terminated status) :
      Told id status
        (c.trace ++ ({ c.session with phase := .running s }.complete reaped a).trace) := by
    have hrunning : c.session.isRunning = true := isRunning_of_running running
    obtain rfl := Phase.terminated.inj ((phase_complete _ _ a).symm.trans h)
    rw [← hc.number]
    exact told_complete (s := { c.session with phase := .running s }) _ a
      (hc.custody.device.trans hrunning) (hc.custody.granted.trans hrunning)
      (hc.untold (isTerminated_of_running running))
  cases hpassage with
  | edits _ _ edits _ => exact hlater (halike edits.alike hnext)
  | output _ before after _ _ _ => exact hlater (halike (before.alike.through after.alike) hnext)
  | lost _ before => exact hlater (halike before.alike hnext)
  | @refused program a _ idle =>
    have hsession :=
      session_release_of_idle (s := c.session.opened (c.session.startup program a)) idle a
    cases idle.symm.trans ((congrArg Session.phase hsession).symm.trans hnext)
  | aborted idle => cases idle.symm.trans hnext
  | closed | started | reaped => cases hnext
  | ended a running | drained a running => exact hcompleted running hnext

/-- A move that stays in time keeps what is so of the life of a session. -/
theorem step [Emulation.Modest ε] (hc : Lifecycle id c) (hin : c.overflows m = false) :
    Lifecycle id (c.step m) where
  wellFormed := Course.wellFormed_step hc.wellFormed m
  custody :=
    hc.custody.passage (c.passage hc.wellFormed m) (by simpa [Course.overflows] using hin)
  number := (c.passage hc.wellFormed m).number.trans hc.number
  quiet := (c.passage hc.wellFormed m).keepsQuiet hc.quiet
  exits := Course.head?_exits_step hc.wellFormed hc.exits hc.waiting m
  waiting := (c.passage hc.wellFormed m).awaited hc.waiting
  untold := by
    intro h e he
    rcases List.mem_append.1 he with hbefore | hnew
    · refine hc.untold ?_ e hbefore
      rw [Bool.eq_false_iff]
      intro hended
      rw [Course.isTerminated_step hc.wellFormed hended m] at h
      cases h
    · exact (c.passage hc.wellFormed m).untold h e hnew
  told _ h := hc.tells h

end Lifecycle

/-- A session lives like that throughout a course. -/
theorem lifecycle_run [Emulation.Modest ε] (id : SessionId) (options : SessionOptions) {e : ε}
    (hquiet : Emulation.Quiet e) {moves : List Move}
    (h : (Course.start (.new id options e)).staysInTime moves = true) :
    Lifecycle id ((Course.start (.new id options e)).run moves) :=
  Course.invariant_run (fun _ _ hc hin ↦ hc.step hin) (.start options hquiet) h

/-- At every point of a course that begins with an emulation that has nothing to report, as a new
one has: a program is there, the terminal is open, and its slave is granted, each exactly while the
session is running; there is a status exactly when the session has ended; and the next move leaves
the phase or goes on to the next. A session that has not ended has said nothing of an end. One that
has ended told of it once, with the status that was first reported of its program, after the request
to revoke the grant and the close of the terminal, and has told of nothing but new titles since. -/
theorem lifecycle_lockstep (id : SessionId) (options : SessionOptions)
    {e : Emulation.TitleTracker ⊕ Emulation.Discard} (hquiet : Emulation.Quiet e)
    (moves : List Move) (h : (Course.start (.new id options e)).staysInTime moves = true) :
    let c := (Course.start (.new id options e)).run moves
    (c.session.pid?.isSome = c.session.isRunning ∧
      c.session.device.isOpen = c.session.isRunning ∧
      c.session.granted = c.session.isRunning ∧
      c.session.exitStatus?.isSome = c.session.isTerminated) ∧
    (∀ status, c.session.exitStatus? = some status ↔ c.session.phase = .terminated status) ∧
    (∀ m, c.session.phase.Leads (c.step m).session.phase) ∧
    (c.session.isTerminated = false → ∀ effect ∈ c.trace, effect.isFinish = false) ∧
    ∀ status, c.session.exitStatus? = some status →
      c.exits.head? = some status ∧ Told id status c.trace := by
  intro c
  have hc : Lifecycle id c := lifecycle_run id options hquiet h
  have hstatus (status : ExitStatus) :
      c.session.exitStatus? = some status ↔ c.session.phase = .terminated status :=
    exitStatus?_eq_some_iff hc.wellFormed
  refine ⟨⟨?_, hc.custody.device, hc.custody.granted, isSome_exitStatus? hc.wellFormed⟩, hstatus,
    c.leads hc.wellFormed, hc.untold, ?_⟩
  · rw [pid?, Option.isSome_map, isSome_running? hc.wellFormed]
  · intro status hended
    have hphase := (hstatus status).1 hended
    refine ⟨?_, hc.told status hphase⟩
    rw [hc.exits, learnt?_of_terminated hphase]

/-- A program is killed after it has rung the bell, and its last output is still collected. -/
theorem lifecycle_lockstep_killed :
    let e : Emulation.TitleTracker ⊕ Emulation.Discard := .inl {}
    let moves : List Move :=
      [.run "sh" {}, .process, .happen (.output [7]) {}, .kill {},
        .happen (.exited (.signaled 9 false)) {}, .happen (.output [104, 105]) {},
        .happen .endOfOutput {}, .setUserTitle 30 "done"]
    let c := (Course.start (.new 1 {} e)).run moves
    Emulation.Quiet e ∧ (Course.start (.new 1 {} e)).staysInTime moves = true ∧
      c.session.exitStatus? = some (.signaled 9 false) ∧
      c.exits.head? = some (.signaled 9 false) ∧ Told 1 (.signaled 9 false) c.trace := by
  intro e moves c
  have hquiet : Emulation.Quiet e := rfl
  have hin : (Course.start (.new 1 {} e)).staysInTime moves = true := by decide
  have hended : c.session.exitStatus? = some (.signaled 9 false) := by decide
  exact ⟨hquiet, hin, hended,
    (lifecycle_lockstep 1 {} hquiet moves hin).2.2.2.2 (.signaled 9 false) hended⟩

end Session

end PtyHost
