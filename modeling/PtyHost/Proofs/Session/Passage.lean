import PtyHost.Proofs.Session.Course
import PtyHost.Proofs.Session.Edit
import PtyHost.Proofs.Session.Startup

/-!
# What a move can do

What a move can do is one of a few passages: edits only, a block of output with edits around it, the
end of all output, an attempt to start the program, the learning of its end, or the end of the
session.

Main statement: `Course.passage`. What holds of every move follows from it by cases.
-/

namespace PtyHost.Session

variable {ε : Type}

/-- What a session tells its owner when it has given the terminal back. -/
def farewell (s : Session ε) (status : ExitStatus) : List Effect :=
  (if s.options.autoClose then [] else [.notified (.titleChanged s.id)]) ++
    [.notified (.finished s.id status)]

/-- Completing a session is giving the terminal back and then telling the owner. -/
theorem trace_complete (s : Session ε) (status : ExitStatus) (a : Answers) :
    (s.complete status a).trace = (s.release a).trace ++ s.farewell status := by
  unfold complete farewell release Traced.andThen notify
  by_cases h : s.options.autoClose = true
  · simp [h]
  · simp [h]

/-- A session that is complete has ended, and it has no terminal. -/
theorem session_complete (s : Session ε) (status : ExitStatus) (a : Answers) :
    ∃ titles, (s.complete status a).session =
      { s with phase := .terminated status, device := .closed, granted := false, titles } := by
  unfold complete release Traced.andThen notify
  by_cases h : s.options.autoClose = true
  · exact ⟨s.titles, by simp [h]⟩
  · exact ⟨{ s.titles with userTitle := Titles.finished }, by simp [h]⟩

/-- A session that is complete has ended. -/
@[simp] theorem phase_complete (s : Session ε) (status : ExitStatus) (a : Answers) :
    (s.complete status a).session.phase = .terminated status := by
  obtain ⟨titles, hsession⟩ := session_complete s status a
  rw [hsession]

/-- A session that is complete says that it has ended. -/
@[simp] theorem isTerminated_complete (s : Session ε) (status : ExitStatus) (a : Answers) :
    (s.complete status a).session.isTerminated = true := by
  rw [isTerminated, phase_complete]
  rfl

/-- A session that is complete is not running. -/
@[simp] theorem isRunning_complete (s : Session ε) (status : ExitStatus) (a : Answers) :
    (s.complete status a).session.isRunning = false :=
  isRunning_of_terminated (phase_complete s status a)

/-- Completing a session leaves its number as it is. -/
@[simp] theorem id_complete (s : Session ε) (status : ExitStatus) (a : Answers) :
    (s.complete status a).session.id = s.id := by
  obtain ⟨titles, hsession⟩ := session_complete s status a
  rw [hsession]

/-- Completing a session leaves its emulation as it is. -/
@[simp] theorem emulation_complete (s : Session ε) (status : ExitStatus) (a : Answers) :
    (s.complete status a).session.emulation = s.emulation := by
  obtain ⟨titles, hsession⟩ := session_complete s status a
  rw [hsession]

/-- Giving the terminal back is all that there is to be done for an idle session. -/
theorem session_release_of_idle {s : Session ε} (h : s.phase = .idle) (a : Answers) :
    (s.release a).session = { s with device := .closed, granted := false } := by
  simp [release, h]

/-- A session that was idle and has its program running is in the phase of that name. -/
theorem phase_started {s : Session ε} (h : s.phase = .idle) (program : String) (pid : Pid)
    (silenceAt : Option Nat) (a : Answers) :
    (s.started program pid silenceAt a).session.phase =
      .running { child := ⟨pid, none⟩, locked := s.outputLocked, silenceAt } := by
  simp [Session.started, h]

variable [Emulation ε]

/-- The session with the device and the grant that an attempt to start a program has left. -/
def opened (s : Session ε) (u : Startup Pid) : Session ε :=
  { s with device := u.device, granted := u.granted }

/-- Whether it ends the collecting of the rest of the output that this happens. -/
def Wake.endsDrain : Wake → Bool
  | .endOfOutput | .readFailed _ | .drainOver => true
  | _ => false

/-- What a move can be for a session. An operation that waits for the rest of the output has learnt
of the end of the program before. -/
inductive Passage (c : Course ε) (m : Move) : Advance ε → Prop
  | edits {next : Advance ε} (deaf : ∀ block, c.heard? m ≠ some (.output block))
      (unaware : c.exit? m = none) (edits : Edits c.session next.trace next.session)
      (waits : ∀ status deadline, next.progress.wait? = some (.draining status deadline) →
        c.waiting = some (.draining status deadline)) : Passage c m next
  | output {next : Advance ε} {block : Bytes} {first last : List Effect} {s : Session ε}
      (heard : c.heard? m = some (.output block)) (before : Edits c.session first s)
      (after : Edits
        { s with
          emulation := (Emulation.takeEvents (Emulation.receive s.emulation block)).2 }
        last next.session)
      (trace : next.trace = first ++ .fed block :: last)
      (whole : next.progress ≠ .ended .overflow)
      (waits : ∀ status deadline, next.progress.wait? = some (.draining status deadline) →
        c.waiting = some (.draining status deadline)) : Passage c m next
  | lost {block : Bytes} {trace : List Effect} {s : Session ε}
      (heard : c.heard? m = some (.output block)) (before : Edits c.session trace s)
      : Passage c m (reaching ⟨s, trace⟩ (.ended .overflow))
  | closed {r : Running} {p : Progress} (running : c.session.phase = .running r)
      (heard : c.heard? m = some .endOfOutput)
      (waits : ∀ status deadline, p.wait? ≠ some (.draining status deadline)) :
      Passage c m (reaching
        ⟨{ c.session with phase := .running { r with readOpen := false } }, []⟩ p)
  | refused {program : String} {a : Answers} {e : SessionError} (idle : c.session.phase = .idle)
      (silent : c.heard? m = none) (failure : (c.session.startup program a).result = .error e) :
      Passage c m (reaching
        ((⟨c.session.opened (c.session.startup program a),
          (c.session.startup program a).trace⟩ : Traced ε).andThen (·.release a))
        (.ended (.failed e)))
  | aborted {program : String} {a : Answers} {pid : Pid} (idle : c.session.phase = .idle)
      (silent : c.heard? m = none) (spawned : (c.session.startup program a).result = .ok pid) :
      Passage c m (reaching
        ⟨{ c.session.opened (c.session.startup program a) with notified := false },
          (c.session.startup program a).trace ++ [.abandoned pid]⟩
        (.ended .overflow))
  | started {program : String} {a : Answers} {pid : Pid} (silenceAt : Option Nat)
      (idle : c.session.phase = .idle) (silent : c.heard? m = none)
      (spawned : (c.session.startup program a).result = .ok pid) :
      Passage c m (reaching
        ((⟨{ c.session.opened (c.session.startup program a) with notified := false },
          (c.session.startup program a).trace⟩ : Traced ε).andThen
            (·.started program pid silenceAt a))
        (.ended (.done 0)))
  | reaped {r : Running} {status : ExitStatus} (deadline : Nat)
      (running : c.session.phase = .running r) (heard : c.heard? m = some (.exited status)) :
      Passage c m (reaching
        ⟨{ c.session with phase := .running { r with child := r.child.learn (some status) } }, []⟩
        (.waiting (.draining (r.child.reaped.getD status) deadline)))
  | ended {r s : Running} {status : ExitStatus} (a : Answers)
      (running : c.session.phase = .running r) (shut : r.readOpen = false)
      (heard : c.heard? m = some (.exited status)) :
      Passage c m (reaching
        ({ c.session with phase := .running s }.complete (r.child.reaped.getD status) a)
        (.ended (.done 0)))
  | drained {r s : Running} {status : ExitStatus} {deadline : Nat} {wake : Wake} (a : Answers)
      (running : c.session.phase = .running r)
      (waiting : c.waiting = some (.draining status deadline))
      (heard : c.heard? m = some wake) (last : wake.endsDrain = true) :
      Passage c m (reaching ({ c.session with phase := .running s }.complete status a)
        (.ended (.done 0)))

namespace Passage

variable {c : Course ε} {m : Move}

/-- A move in which nothing is heard and after which the rest of the output is not waited for. -/
theorem quiet {t : Traced ε} {p : Progress} (silent : c.heard? m = none)
    (edits : Edits c.session t.trace t.session)
    (waits : ∀ status deadline, p.wait? ≠ some (.draining status deadline)) :
    Passage c m (reaching t p) :=
  .edits (by simp [silent]) (by simp [Course.exit?, silent]) edits
    fun status deadline h ↦ absurd h (waits status deadline)

/-- A move that is an operation which does not wait. -/
theorem finished {o : Outcome ε Unit} (silent : c.heard? m = none)
    (edits : Edits c.session o.trace o.session) : Passage c m (Session.finished o) :=
  quiet silent edits (by simp [Progress.wait?])

/-- A move that does nothing to the session. -/
theorem still {p : Progress} (silent : c.heard? m = none)
    (waits : ∀ status deadline, p.wait? ≠ some (.draining status deadline)) :
    Passage c m (reaching ⟨c.session, []⟩ p) := quiet silent (.nil _) waits

/-- An attempt to start a program. -/
theorem run (hc : c.session.phase.WellFormed) (silent : c.heard? m = none) (program : String)
    (a : Answers) :
    Passage c m (Session.finished (c.session.run program a)) := by
  unfold Session.run
  split
  · exact still silent (by simp [Progress.wait?])
  · exact still silent (by simp [Progress.wait?])
  next hstate =>
  have idle := eq_idle_of_state hc hstate
  dsimp only
  split
  · next e failure => exact .refused idle silent failure
  next pid spawned =>
  split
  · exact .aborted idle silent spawned
  · next silenceAt _ => exact .started silenceAt idle silent spawned

/-- After a dispatch step an operation does not wait for the rest of the output. -/
theorem wait?_after_ne (g : Goal) (v : Verdict Nat) (status : ExitStatus) (deadline : Nat) :
    (g.after v).wait? ≠ some (.draining status deadline) := by
  cases g <;> cases v <;> simp [Goal.after, Progress.wait?]

/-- A dispatch step in which something was heard that is no output and not the end of the
program. -/
theorem heard {t : Traced ε} {p : Progress} {wake : Wake} (heard : c.heard? m = some wake)
    (deaf : ∀ block, wake ≠ .output block) (unaware : ∀ status, wake ≠ .exited status)
    (edits : Edits c.session t.trace t.session)
    (waits : ∀ status deadline, p.wait? = some (.draining status deadline) →
      c.waiting = some (.draining status deadline)) : Passage c m (reaching t p) := by
  refine .edits ?_ (Course.exit?_eq_none heard unaware) edits waits
  intro block h
  exact deaf block (Option.some.inj (heard.symm.trans h))

/-- A block of output is noted and handed on, or it is lost because the clock cannot show the end
of the countdown. -/
theorem noteOutput {block : Bytes} (heard : c.heard? m = some (.output block)) (g : Goal)
    (now : Nat) :
    Passage c m (reaching (c.session.noteOutput block now).toTraced
      (g.after (c.session.noteOutput block now).verdict)) := by
  have hwaits (v : Verdict Nat) (status : ExitStatus) (deadline : Nat)
      (h : (g.after v).wait? = some (.draining status deadline)) :
      c.waiting = some (.draining status deadline) :=
    absurd h (wait?_after_ne g v status deadline)
  have hwhole : g.after (.done block.length) ≠ .ended .overflow := by
    cases g <;> simp [Goal.after]
  unfold Session.noteOutput
  split
  · dsimp only
    split
    · have hoverflow : g.after .overflow = .ended .overflow := by cases g <;> rfl
      rw [show ((c.session.announce.ending .overflow : Outcome ε Nat)).verdict = .overflow from rfl,
        hoverflow]
      exact .lost heard (edits_announce c.session)
    · next armed harm =>
      have hbefore : Edits c.session c.session.announce.trace armed := by
        simpa using (edits_announce c.session).trans (edit_armSilence harm).edits
      exact .output heard hbefore (edits_applyAll _ _) rfl hwhole (hwaits _)
  · exact .output heard (.nil _) (edits_applyAll _ _) rfl hwhole (hwaits _)

/-- What the program was reaped with first stays its status. -/
theorem getD_reaped_learn (child : Child) (status : ExitStatus) :
    (child.learn (some status)).reaped.getD status = child.reaped.getD status := by
  cases h : child.reaped <;> simp [Child.learn, h]

/-- The end of the program is learnt of. -/
theorem reap {r : Running} {status : ExitStatus} (running : c.session.phase = .running r)
    (heard : c.heard? m = some (.exited status)) (a : Answers) :
    Passage c m (c.session.reap r status a) := by
  unfold Session.reap
  dsimp only
  rw [getD_reaped_learn, setRunning_of_running running]
  split
  · exact .reaped (a.now + drainTimeout) running heard
  · next hshut => exact .ended a running (by simpa using hshut) heard

/-- A dispatch step. -/
theorem dispatch {r : Running} {wake : Wake} (running : c.session.phase = .running r)
    (heard : c.heard? m = some wake) (g : Goal) (a : Answers) :
    Passage c m (c.session.dispatch r g wake a) := by
  have hinner {t : Traced ε} (v : Verdict Nat) (deaf : ∀ block, wake ≠ .output block)
      (unaware : ∀ status, wake ≠ .exited status) (edits : Edits c.session t.trace t.session) :
      Passage c m (reaching t (g.after v)) :=
    Passage.heard heard deaf unaware edits
      fun status deadline h ↦ absurd h (wait?_after_ne g v status deadline)
  have hstill {p : Progress} (deaf : ∀ block, wake ≠ .output block)
      (unaware : ∀ status, wake ≠ .exited status)
      (waits : ∀ status deadline, p.wait? ≠ some (.draining status deadline)) :
      Passage c m (reaching ⟨c.session, []⟩ p) :=
    Passage.heard heard deaf unaware (.nil _) fun status deadline h ↦
      absurd h (waits status deadline)
  cases wake with
  | output block => exact noteOutput heard g a.now
  | endOfOutput =>
    unfold Session.dispatch
    dsimp only
    rw [setRunning_of_running running]
    exact .closed running heard (wait?_after_ne g (.done 0))
  | accepted count =>
    exact hinner (.done 0) (by simp) (by simp)
      (Edit.write (running?_of_running running) count).edits
  | inputClosed =>
    exact hinner (.done 0) (by simp) (by simp) (Edit.clear (running?_of_running running)).edits
  | silence => exact hinner (.done 0) (by simp) (by simp) (edits_silenceElapsed c.session)
  | exited status => exact reap running heard a
  | graceOver =>
    exact Passage.heard heard (by simp) (by simp) (edits_signal c.session .kill a)
      (by simp [Progress.wait?])
  | readFailed e | writeFailed e | waitFailed e =>
    exact hstill (by simp) (by simp) (by simp [Progress.wait?])
  | drainOver => exact hstill (by simp) (by simp) (by simp [Progress.wait?])

/-- A step of collecting the rest of the output. -/
theorem drain {r : Running} {wake : Wake} {status : ExitStatus} {deadline : Nat}
    (running : c.session.phase = .running r) (heard : c.heard? m = some wake)
    (waiting : c.waiting = some (.draining status deadline))
    (unaware : ∀ status, wake ≠ .exited status) (a : Answers) :
    Passage c m (c.session.drain r status deadline wake a) := by
  have hdrained (s : Running) (last : wake.endsDrain = true) :
      Passage c m (reaching ({ c.session with phase := .running s }.complete status a)
        (.ended (.done 0))) := .drained a running waiting heard last
  have hwaits (other : ExitStatus) (d : Nat)
      (h : (Progress.waiting (.draining status deadline)).wait? = some (.draining other d)) :
      c.waiting = some (.draining other d) := waiting.trans h
  unfold Session.drain
  split
  · exact .output heard (.nil _) (edits_applyAll _ _) rfl (by simp [reaching]) hwaits
  · rw [setRunning_of_running running]
    exact hdrained _ rfl
  · rw [setRunning_of_running running]
    exact hdrained _ rfl
  · exact hdrained r rfl
  · next houtput _ _ _ => exact Passage.heard heard houtput unaware (.nil _) hwaits

/-- Something happens to the operation that waits. -/
theorem resume (hc : c.session.phase.WellFormed) {w : Wait} {wake : Wake} {a : Answers}
    (hm : m = .happen wake a) (waiting : c.waiting = some w) :
    Passage c m (c.session.resume w wake a) := by
  have hsilent (h : ∀ r, c.session.current? = some r → enables r w wake a.now = false) :
      c.heard? m = none := by
    rw [Option.eq_none_iff_forall_ne_some]
    intro k hk
    obtain ⟨b, r, v, hmove, hr, hv, henabled⟩ := Course.heard?_eq_some_iff.1 hk
    cases hm.symm.trans hmove
    cases waiting.symm.trans hv
    simp [h r hr] at henabled
  unfold Session.resume
  split
  · next hnone => exact still (hsilent (by simp [hnone])) (by simp [Progress.wait?])
  next r hcurrent =>
  have running := (current?_eq_some_iff hc).1 hcurrent
  split
  · next henabled =>
    have hheard : c.heard? m = some wake :=
      Course.heard?_eq_some_iff.2 ⟨a, r, w, hm, hcurrent, waiting, henabled⟩
    cases w with
    | dispatching g => exact dispatch running hheard g a
    | draining status deadline =>
      refine drain running hheard waiting (fun status h ↦ ?_) a
      simp [h, enables] at henabled
  · next henabled =>
    have hnone : c.heard? m = none := hsilent fun s hs ↦ by
      cases hcurrent.symm.trans hs
      simpa using henabled
    refine .edits (by simp [hnone]) (by simp [Course.exit?, hnone]) (.nil _) ?_
    intro status deadline h
    exact waiting.trans h

omit [Emulation ε] in
/-- Beginning a dispatch step is not collecting the rest of the output. -/
theorem wait?_await_ne (s : Session ε) (g : Goal) (status : ExitStatus) (deadline : Nat) :
    (s.await g).wait? ≠ some (.draining status deadline) := by
  unfold await
  split <;> simp [Progress.wait?]

/-- Beginning to end the program. -/
theorem stop (silent : c.heard? m = none) (sig : Signal) (grace : Option Nat) (a : Answers) :
    Passage c m (c.session.stop sig grace a) := by
  unfold Session.stop
  split
  · exact still silent (by simp [Progress.wait?])
  · exact still silent (by simp [Progress.wait?])
  · exact quiet silent (edits_signal c.session sig a) (wait?_await_ne c.session _)

end Passage

/-- A move is one of the passages. -/
theorem Course.passage (c : Course ε) (hc : c.session.phase.WellFormed) (m : Move) :
    Passage c m (c.advance m) := by
  unfold Course.advance Move.act
  cases m with
  | run program a => exact .run hc rfl program a
  | send data => exact .finished rfl (edits_send c.session data)
  | resize size a => exact .finished rfl (edits_resize c.session size a)
  | signal sig a => exact .finished rfl (edits_signal c.session sig a)
  | sendSignal number a => exact .finished rfl (edits_sendSignal c.session number a)
  | setScrollLock locked => exact .finished rfl (edits_setScrollLock c.session locked)
  | setMonitorActivity monitor =>
    refine .quiet rfl (Edit.edits ?_) (by simp [Progress.wait?])
    exact .note c.session _ c.session.size c.session.titles c.session.keymap false
  | setMonitorSilence monitor now =>
    exact .finished rfl (edits_setMonitorSilence c.session monitor now)
  | setSilenceTimeout span now => exact .finished rfl (edits_setSilenceTimeout c.session span now)
  | setWriteable allowed a => exact .finished rfl (edits_setWriteable c.session allowed a)
  | setUserTitle what caption => exact .finished rfl (edits_setUserTitle c.session what caption)
  | setKeymap keymap =>
    refine .quiet rfl (Edit.edits ?_) (by simp [Progress.wait?])
    exact .note c.session c.session.options c.session.size c.session.titles keymap
      c.session.notified
  | process => exact .still rfl (Passage.wait?_await_ne c.session .step)
  | runUntilFinished =>
    refine .still rfl ?_
    split
    · exact Passage.wait?_await_ne c.session .finished
    · simp [Progress.wait?]
  | terminate a => exact .stop rfl _ _ a
  | kill a => exact .stop rfl _ _ a
  | abandon => exact .still rfl (by simp [Progress.wait?])
  | happen wake a =>
    dsimp only
    split
    · next w waiting => exact .resume hc rfl waiting
    · next waiting =>
      have hsilent : c.heard? (.happen wake a) = none := by
        simp only [Course.heard?, waiting]
        split <;> simp_all
      exact .still hsilent (by simp [Progress.wait?])

/-- A passage leaves a phase whose entries go together. -/
theorem Passage.wellFormed {c : Course ε} {m : Move} {next : Advance ε} (h : Passage c m next)
    (hc : c.session.phase.WellFormed) : next.session.phase.WellFormed := by
  cases h with
  | edits _ _ edits _ => exact edits.alike.phase.wellFormed hc
  | output _ before after _ _ _ => exact (before.alike.through after.alike).phase.wellFormed hc
  | lost _ before => exact before.alike.phase.wellFormed hc
  | closed | reaped => exact Phase.wellFormed_running _
  | refused idle | aborted idle | started _ idle =>
    simp [reaching, Traced.andThen, release, opened, Session.started, idle, Phase.WellFormed]
  | ended a | drained a =>
    show (Session.complete _ _ a).session.phase.WellFormed
    rw [phase_complete]
    exact Phase.wellFormed_terminated _

/-- A move leaves a phase whose entries go together, whatever operation waits. -/
theorem wellFormed_act {s : Session ε} (hs : s.phase.WellFormed) (m : Move)
    (waiting : Option Wait) : (m.act s waiting).session.phase.WellFormed :=
  ((⟨⟨s, []⟩, waiting, []⟩ : Course ε).passage hs m).wellFormed hs

namespace Course

/-- A move leaves a phase whose entries go together. -/
theorem wellFormed_step {c : Course ε} (hc : c.session.phase.WellFormed) (m : Move) :
    (c.step m).session.phase.WellFormed := wellFormed_act hc m c.waiting

/-- The entries of a phase go together throughout a course, also where the clock overflows. -/
theorem wellFormed_run {c : Course ε} (hc : c.session.phase.WellFormed) (moves : List Move) :
    (c.run moves).session.phase.WellFormed :=
  always_run (P := fun c ↦ c.session.phase.WellFormed) (fun _ m h ↦ wellFormed_step h m) hc moves

/-- What every move keeps where the entries of the phase go together is so throughout a course. -/
theorem always_run_of_wellFormed {P : Course ε → Prop}
    (hstep : ∀ c m, c.session.phase.WellFormed → P c → P (c.step m)) {c : Course ε}
    (hw : c.session.phase.WellFormed) (hc : P c) (moves : List Move) : P (c.run moves) := by
  refine (always_run (P := fun c ↦ c.session.phase.WellFormed ∧ P c) ?_ ⟨hw, hc⟩ moves).2
  exact fun c m h ↦ ⟨wellFormed_step h.1 m, hstep c m h.1 h.2⟩

/-- What every passage keeps that stays in time is so throughout a course that does. -/
theorem kept_run {P : Course ε → Prop}
    (hpassage : ∀ c m next, Passage c m next → next.progress ≠ .ended .overflow → P c →
      P (c.after m next)) {c : Course ε} (hw : c.session.phase.WellFormed) (hc : P c)
    {moves : List Move} (h : c.staysInTime moves = true) : P (c.run moves) := by
  refine (invariant_run (P := fun c ↦ c.session.phase.WellFormed ∧ P c) ?_ ⟨hw, hc⟩ h).2
  intro c m h hin
  refine ⟨wellFormed_step h.1 m, hpassage c m (c.advance m) (c.passage h.1 m) ?_ h.2⟩
  simpa [overflows] using hin

end Course

end PtyHost.Session
