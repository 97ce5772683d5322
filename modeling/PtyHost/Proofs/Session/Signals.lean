import PtyHost.Proofs.Session.Resumption
import PtyHost.Proofs.Session.Service

/-!
# Where signals go

A session sends signals to the process group of its program. The number of that group is good until
the program has been reaped; after that it may belong to somebody else. A session goes on running
while the rest of the output of a program is collected that has been reaped, so that its state does
not tell whether the number is still good.

Main statements: `Course.signals_advance` on what a move sends, `strays_of_patient`, by which no
signal goes astray as long as the rest of the output is waited for, and `signals_gone_astray` on
where all signals of a course go.
-/

namespace PtyHost

/-- The process group that an effect sends a signal to, and the signal. -/
def Effect.signal? : Effect → Option (Pid × Signal)
  | .signalled pid sig => some (pid, sig)
  | _ => none

/-- What is done to start a program sends no signal. -/
theorem Effect.signal?_of_isOpening {e : Effect} (h : Session.isOpening e = true) :
    e.signal? = none := by
  cases e <;> simp_all [Session.isOpening, signal?]

namespace Session

/-- The signals in a trace with the process groups that they are sent to, the oldest first. -/
def signals (trace : List Effect) : List (Pid × Signal) := trace.filterMap Effect.signal?

@[simp] theorem signals_append (first rest : List Effect) :
    signals (first ++ rest) = signals first ++ signals rest :=
  List.filterMap_append

/-- No signal is in a trace of effects that send none. -/
theorem signals_eq_nil {trace : List Effect} (h : ∀ e ∈ trace, e.signal? = none) :
    signals trace = [] :=
  List.filterMap_eq_nil_iff.2 h

variable {ε : Type}

/-- Whether the program of a running session has been reaped. -/
def lingers (s : Session ε) : Bool := s.current?.any fun r ↦ !r.child.isRunning

/-- A session lingers in which the program was reaped that is running. -/
theorem lingers_of_running {s : Session ε} {r : Running} (h : s.phase = .running r) :
    s.lingers = !r.child.isRunning := by
  rw [lingers, current?_of_running h, Option.any_some]

/-- A session that is not running does not linger. -/
theorem lingers_of_not_running {s : Session ε} (h : s.isRunning = false) : s.lingers = false := by
  rw [lingers, current?_of_not_running h, Option.any_none]

/-- A session lingers that is running and knows how its program has ended. -/
theorem lingers_iff {s : Session ε} (hs : s.phase.WellFormed) :
    s.lingers = true ↔ s.isRunning = true ∧ s.learnt? ≠ none := by
  cases hrunning : s.isRunning with
  | false => simp [lingers_of_not_running hrunning]
  | true =>
    obtain ⟨r, hr⟩ := (isRunning_iff hs).1 hrunning
    simp [lingers_of_running hr, learnt?_of_running hr, Child.isRunning,
      Option.ne_none_iff_isSome]

/-- Sessions that have come equally far linger both or not. -/
theorem Alike.lingers {s t : Session ε} (h : s.Alike t) : t.lingers = s.lingers := by
  have hany := h.phase.any_core fun core ↦ !core.1.isRunning
  unfold Session.lingers current?
  rw [h.isRunning]
  split
  · exact hany
  · rfl

/-- Queueing input sends no signal. -/
theorem signals_enqueue (s : Session ε) (data : Bytes) : signals (s.enqueue data).trace = [] := by
  unfold enqueue
  split <;> rfl

/-- Acting on an event of the emulation sends no signal. -/
theorem signals_apply (s : Session ε) (event : Emulation.Event) :
    signals (s.apply event).trace = [] := by
  cases event with
  | write data => exact signals_enqueue s data
  | userTitle what caption =>
    refine signals_eq_nil fun e he ↦ ?_
    rw [trace_setUserTitle s what caption e he]
    rfl
  | sizeRequest | bell | lock => rfl

/-- Acting on the events of the emulation sends no signal. -/
theorem signals_applyAll (s : Session ε) (events : List Emulation.Event) :
    signals (s.applyAll events).trace = [] := by
  have hfold : ∀ t : Traced ε,
      signals (events.foldl (fun t e ↦ t.andThen (·.apply e)) t).trace = signals t.trace := by
    induction events with
    | nil => exact fun _ ↦ rfl
    | cons event events ih =>
      intro t
      rw [List.foldl_cons, ih]
      show signals (t.trace ++ (t.session.apply event).trace) = _
      rw [signals_append, signals_apply, List.append_nil]
  exact hfold ⟨s, []⟩

/-- Giving a terminal back sends no signal. -/
theorem signals_release (s : Session ε) (a : Answers) : signals (s.release a).trace = [] := by
  unfold release
  rw [signals_append]
  split <;> split <;> rfl

/-- Completing a session sends no signal. -/
theorem signals_complete (s : Session ε) (status : ExitStatus) (a : Answers) :
    signals (s.complete status a).trace = [] := by
  rw [trace_complete, signals_append, signals_release, List.nil_append]
  unfold farewell
  split <;> rfl

/-- An attempt to run a program sends no signal. -/
theorem signals_run (s : Session ε) (program : String) (a : Answers) :
    signals (s.run program a).trace = [] := by
  have hstartup : signals (s.startup program a).trace = [] :=
    signals_eq_nil fun e he ↦ Effect.signal?_of_isOpening (isOpening_startup s program a e he)
  unfold Session.run
  split
  · rfl
  · rfl
  dsimp only
  split
  · show signals (_ ++ _) = []
    rw [signals_append, hstartup, signals_release]
    rfl
  split
  · show signals (_ ++ _) = []
    rw [signals_append, hstartup]
    rfl
  · show signals (_ ++ (if _ then _ else _)) = []
    rw [signals_append, hstartup]
    split <;> rfl

/-- A session that is let go of kills its program unless that has been reaped. -/
theorem signals_drop {s : Session ε} (hs : s.phase.WellFormed) (a : Answers) :
    signals (s.drop a) =
      if s.lingers then [] else (s.pid?.map fun pid ↦ (pid, Signal.kill)).toList := by
  unfold drop lingers pid?
  rw [signals_append, signals_release, List.append_nil, current?_eq_running? hs]
  cases s.running? with
  | none => rfl
  | some r =>
    obtain ⟨⟨pid, reaped⟩, _⟩ := r
    cases reaped <;> rfl

/-- A signal is sent to the program that is running, reaped or not. -/
theorem signals_signal {s : Session ε} (hs : s.phase.WellFormed) (sig : Signal) (a : Answers) :
    signals (s.signal sig a).trace = (s.pid?.map fun pid ↦ (pid, sig)).toList := by
  unfold signal pid?
  rw [current?_eq_running? hs]
  cases s.running? <;> rfl

/-- An operation that ends the program begins with a signal to it. -/
theorem signals_stop {s : Session ε} (hs : s.phase.WellFormed) (sig : Signal)
    (grace : Option Nat) (a : Answers) :
    signals (s.stop sig grace a).trace = (s.pid?.map fun pid ↦ (pid, sig)).toList := by
  have hnone (h : s.isRunning = false) :
      [] = (s.pid?.map fun pid ↦ (pid, sig)).toList := by
    rw [pid?, ← current?_eq_running? hs, current?_of_not_running h]
    rfl
  unfold stop
  split
  · next hidle => exact hnone (by simp [isRunning, hidle])
  · next hterminated => exact hnone (by simp [isRunning, hterminated])
  · exact signals_signal hs sig a

/-- The rest of the output is waited for by an operation that waits for just that. -/
theorem Course.isDraining_iff {c : Course ε} :
    c.isDraining = true ↔ ∃ status deadline, c.waiting = some (.draining status deadline) := by
  unfold isDraining
  split
  · next status deadline waiting => simp [waiting]
  · next hnot => simpa using hnot

variable [Emulation ε]

/-- Handing a block of output to the emulation sends no signal. -/
theorem signals_feed (s : Session ε) (block : Bytes) : signals (s.feed block).trace = [] := by
  show signals ([.fed block] ++ (applyAll _ _).trace) = []
  rw [signals_append, signals_applyAll]
  rfl

/-- Taking note of a block of output sends no signal. -/
theorem signals_noteOutput (s : Session ε) (block : Bytes) (now : Nat) :
    signals (s.noteOutput block now).trace = [] := by
  have hannounce : signals s.announce.trace = [] := by
    rw [trace_announce]
    split <;> rfl
  have hnoting := noting s block now
  revert hnoting
  generalize s.noteOutput block now = o
  intro hnoting
  cases hnoting with
  | unwatched => exact signals_feed s block
  | lost => exact hannounce
  | watched =>
    show signals (_ ++ _) = []
    rw [signals_append, hannounce, signals_feed]
    rfl

/-- An operation that waits for the rest of the output goes on waiting for it unless it brings the
session to its end. -/
theorem resume_draining {s : Session ε} (hs : s.phase.WellFormed) (status : ExitStatus)
    (deadline : Nat) (wake : Wake) (a : Answers) :
    (s.resume (.draining status deadline) wake a).progress =
        .waiting (.draining status deadline) ∨
      (s.resume (.draining status deadline) wake a).session.isRunning = false := by
  unfold resume
  split
  · next hnone =>
    have hstill := isSome_current? hs
    rw [hnone] at hstill
    exact .inr hstill.symm
  split
  · show (s.drain _ status deadline wake a).progress = _ ∨ _
    unfold drain
    cases wake with
    | endOfOutput | readFailed | drainOver => exact .inr (isRunning_complete _ status a)
    | _ => exact .inl rfl
  · exact .inl rfl

namespace Course

variable {c : Course ε} {m : Move}

/-- The signal that a move asks to be sent. -/
def signal? (c : Course ε) (m : Move) : Option Signal :=
  match m with
  | .signal sig _ => some sig
  | .sendSignal number _ => Signal.ofNumber? number
  | .terminate _ => some c.session.options.terminateSignal
  | .kill _ => some .kill
  | .happen .. => if c.heard? m = some .graceOver then some .kill else none
  | _ => none

/-- What happens to the operation that waits makes it send a signal when the grace period is
over. -/
theorem signals_happen (hc : c.session.phase.WellFormed) (wake : Wake) (a : Answers) :
    signals (c.advance (.happen wake a)).trace =
      if c.heard? (.happen wake a) = some .graceOver
        then (c.session.pid?.map fun pid ↦ (pid, Signal.kill)).toList else [] := by
  cases hheard : c.heard? (.happen wake a) with
  | none =>
    show signals (c.advance (.happen wake a)).toTraced.trace = _
    rw [advance_of_silent hheard]
    rfl
  | some heard =>
    obtain rfl := eq_of_heard? hheard
    have hhappening := happening hheard
    show signals (c.advance (.happen heard a)).toTraced.trace = _
    revert hhappening
    generalize (c.advance (.happen heard a)).toTraced = t
    intro hhappening
    cases hhappening with
    | noted block => exact signals_noteOutput c.session block a.now
    | collected block => exact signals_feed c.session block
    | wrote | cleared | closed | learnt => rfl
    | elapsed =>
      show signals c.session.silenceElapsed.trace = []
      unfold silenceElapsed
      dsimp only
      split <;> rfl
    | completed s status _ last =>
      rw [signals_complete, if_neg]
      rintro ⟨⟩
      simp [Wake.endsDrain] at last
    | killed => exact signals_signal hc .kill a
    | failed failure =>
      rw [if_neg]
      · rfl
      · rintro ⟨⟩
        simp at failure

/-- A move sends the signal that it asks for, to the program that is running. -/
theorem signals_advance (hc : c.session.phase.WellFormed) (m : Move) :
    signals (c.advance m).trace =
      ((c.signal? m).bind fun sig ↦ c.session.pid?.map fun pid ↦ (pid, sig)).toList := by
  cases m with
  | run program a => exact signals_run c.session program a
  | send data =>
    show signals (c.session.send data).trace = []
    unfold send Traced.ending
    split
    · split
      · rfl
      · exact signals_enqueue c.session data
    · rfl
  | resize size a =>
    show signals (c.session.resize size a).trace = []
    unfold Session.resize
    split
    · split <;> rfl
    · rfl
  | signal sig a => exact signals_signal hc sig a
  | sendSignal number a =>
    show signals (c.session.sendSignal number a).trace =
      ((Signal.ofNumber? number).bind _).toList
    unfold sendSignal
    cases Signal.ofNumber? number with
    | none => rfl
    | some sig => exact signals_signal hc sig a
  | setScrollLock locked => exact signals_applyAll _ _
  | setMonitorActivity | setKeymap | process | runUntilFinished | abandon => rfl
  | setMonitorSilence monitor now =>
    exact congrArg signals (trace_setMonitorSilence c.session monitor now)
  | setSilenceTimeout span now =>
    exact congrArg signals (trace_setSilenceTimeout c.session span now)
  | setWriteable allowed a =>
    show signals (c.session.setWriteable allowed a).trace = []
    unfold Session.setWriteable
    split
    · split <;> rfl
    · rfl
  | setUserTitle what caption => exact signals_apply c.session (.userTitle what caption)
  | terminate a | kill a => exact signals_stop hc _ _ a
  | happen wake a =>
    show _ = (Option.bind (if _ then _ else _) _).toList
    rw [signals_happen hc]
    split <;> rfl

/-- Whether a move leaves an operation that waits for the rest of the output alone. -/
def bears (c : Course ε) : Move → Bool
  | .happen .. => true
  | _ => !c.isDraining

/-- Whether no operation is given up on the way that waits for the rest of the output. -/
def isPatient (c : Course ε) : List Move → Bool
  | [] => true
  | m :: moves => c.bears m && (c.step m).isPatient moves

/-- The signals that are sent on the way to process groups whose leader has been reaped. -/
def strays (c : Course ε) : List Move → List (Pid × Signal)
  | [] => []
  | m :: moves =>
    (if c.session.lingers then signals (c.advance m).trace else []) ++ (c.step m).strays moves

/-- The rest of the output is waited for until the session ends, whatever happens. -/
theorem isDraining_happen (hc : c.session.phase.WellFormed) (hdraining : c.isDraining = true)
    (wake : Wake) (a : Answers)
    (hrunning : (c.step (.happen wake a)).session.isRunning = true) :
    (c.step (.happen wake a)).isDraining = true := by
  obtain ⟨status, deadline, waiting⟩ := isDraining_iff.1 hdraining
  have hadvance : c.advance (.happen wake a) =
      c.session.resume (.draining status deadline) wake a := by
    simp only [advance, Move.act, waiting]
  change (c.advance (.happen wake a)).session.isRunning = true at hrunning
  rw [hadvance] at hrunning
  refine isDraining_iff.2 ⟨status, deadline, ?_⟩
  show (c.advance (.happen wake a)).progress.wait? = _
  rw [hadvance]
  rcases resume_draining hc status deadline wake a with hwaiting | hended
  · rw [hwaiting]
    rfl
  · exact absurd hrunning (ne_true_of_eq_false hended)

/-- No signal is sent while the rest of the output is waited for. -/
theorem signals_of_bears (hc : c.session.phase.WellFormed) (hdraining : c.isDraining = true)
    (hm : c.bears m = true) : signals (c.advance m).trace = [] := by
  cases m with
  | happen wake a =>
    rw [signals_happen hc, if_neg]
    intro hheard
    obtain ⟨_, r, w, _, _, hw, henabled⟩ := heard?_eq_some_iff.1 hheard
    obtain ⟨status, deadline, waiting⟩ := isDraining_iff.1 hdraining
    cases hw.symm.trans waiting
    cases henabled
  | _ => simp [bears, hdraining] at hm

/-- A session that lingers is waiting for the rest of the output. -/
def Attentive (c : Course ε) : Prop := c.session.lingers = true → c.isDraining = true

/-- As long as nothing is given up that waits for the rest of the output, a session that lingers
waits for it. -/
theorem Attentive.step (hw : c.session.phase.WellFormed) (hc : c.Attentive)
    (hm : c.bears m = true) : (c.step m).Attentive := by
  intro hnext
  cases hdraining : c.isDraining with
  | true =>
    cases m with
    | happen wake a =>
      exact isDraining_happen hw hdraining wake a ((lingers_iff (wellFormed_step hw _)).1 hnext).1
    | _ => simp [bears, hdraining] at hm
  | false =>
    have hnot : c.session.lingers = false := by
      rw [Bool.eq_false_iff]
      intro hlingers
      exact Bool.false_ne_true (hdraining.symm.trans (hc hlingers))
    have hpassage := c.passage hw m
    change (c.advance m).session.lingers = true at hnext
    show (c.after m (c.advance m)).isDraining = true
    revert hpassage hnext
    generalize c.advance m = next
    intro hpassage hnext
    have halike {s : Session ε} (h : c.session.Alike s) (hs : s.lingers = true) : False := by
      rw [h.lingers, hnot] at hs
      cases hs
    cases hpassage with
    | edits _ _ edits _ => exact (halike edits.alike hnext).elim
    | output _ before after _ _ _ => exact (halike (before.alike.through after.alike) hnext).elim
    | lost _ before => exact (halike before.alike hnext).elim
    | closed running =>
      rw [lingers_of_running running] at hnot
      rw [lingers_of_running rfl] at hnext
      exact absurd hnext (ne_true_of_eq_false hnot)
    | refused idle | aborted idle =>
      rw [lingers_of_not_running] at hnext
      · cases hnext
      · simp [isRunning, reaching, Traced.andThen, release, opened, idle]
    | @started program a pid silenceAt idle =>
      have hstarted := phase_started
        (s := { c.session.opened (c.session.startup program a) with notified := false }) idle
        program pid silenceAt a
      exact absurd hnext (ne_true_of_eq_false (lingers_of_running hstarted))
    | reaped => rfl
    | ended a | drained a =>
      exact absurd hnext
        (ne_true_of_eq_false (lingers_of_not_running (isRunning_complete _ _ a)))

/-- No signal goes to a process group whose leader has been reaped as long as nothing is given up
that waits for the rest of the output. -/
theorem strays_of_patient (hw : c.session.phase.WellFormed) (hc : c.Attentive) {moves : List Move}
    (h : c.isPatient moves = true) : c.strays moves = [] := by
  induction moves generalizing c with
  | nil => rfl
  | cons m moves ih =>
    simp only [isPatient, Bool.and_eq_true] at h
    show (if _ then _ else _) ++ _ = []
    rw [ih (wellFormed_step hw m) (hc.step hw h.1) h.2, List.append_nil]
    split
    · next hlingers => exact signals_of_bears hw (hc hlingers) h.1
    · rfl

/-- As long as nothing is given up that waits for the rest of the output, a session that lingers
waits for it throughout its course. -/
theorem attentive_run (hw : c.session.phase.WellFormed) (hc : c.Attentive) {moves : List Move}
    (h : c.isPatient moves = true) : (c.run moves).Attentive := by
  induction moves generalizing c with
  | nil => exact hc
  | cons m moves ih =>
    simp only [isPatient, Bool.and_eq_true] at h
    exact ih (wellFormed_step hw m) (hc.step hw h.1) h.2

/-- A signal goes astray exactly in a move that asks for one while a session lingers. -/
theorem strays_singleton (hc : c.session.phase.WellFormed) (m : Move) :
    c.strays [m] ≠ [] ↔ c.session.lingers = true ∧ c.signal? m ≠ none := by
  show (if _ then _ else _) ++ [] ≠ [] ↔ _
  rw [List.append_nil, signals_advance hc]
  cases hlingers : c.session.lingers with
  | false => simp
  | true =>
    obtain ⟨r, hr⟩ := (isRunning_iff hc).1 ((lingers_iff hc).1 hlingers).1
    cases hsignal : c.signal? m <;> simp [pid?, running?_of_running hr]

end Course

/-- Where the signals go that a session sends, in whatever order its operations come and wherever
they are given up. A move sends the signal that it asks for to the process group of the program that
is running, and no move sends another. Such a signal goes astray, to a group whose leader has been
reaped, exactly if the end of the program has been reported and the session is still running. As
long as no operation is given up that waits for the rest of the output no signal goes astray, and a
session that is running after the end of its program is waiting for the rest of the output. A
session that is let go of kills its program unless it has been reaped. -/
theorem signals_astray (id : SessionId) (options : SessionOptions) (e : ε) (moves : List Move) :
    let begun := Course.start (.new id options e)
    let c := begun.run moves
    (∀ m, signals (c.advance m).trace =
      ((c.signal? m).bind fun sig ↦ c.session.pid?.map fun pid ↦ (pid, sig)).toList) ∧
    (∀ m, c.strays [m] ≠ [] ↔
      c.session.isRunning = true ∧ c.exits ≠ [] ∧ c.signal? m ≠ none) ∧
    (begun.isPatient moves = true →
      begun.strays moves = [] ∧
        (c.session.isRunning = true → c.exits ≠ [] → c.isDraining = true)) ∧
    ∀ a, signals (c.session.drop a) =
      if c.exits = [] then (c.session.pid?.map fun pid ↦ (pid, Signal.kill)).toList else [] := by
  intro begun c
  have hc : Resumable id c := resumable_run id options e moves
  have hstart : begun.session.phase.WellFormed := Phase.wellFormed_idle
  have hexits : c.exits ≠ [] ↔ c.session.learnt? ≠ none := by
    rw [← hc.exits, ne_eq, ne_eq, List.head?_eq_none_iff]
  have hlingers : c.session.lingers = true ↔ c.session.isRunning = true ∧ c.exits ≠ [] := by
    rw [lingers_iff hc.wellFormed, hexits]
  have hbegun : begun.Attentive := fun h ↦ absurd h Bool.false_ne_true
  refine ⟨Course.signals_advance hc.wellFormed, ?_, ?_, ?_⟩
  · intro m
    rw [Course.strays_singleton hc.wellFormed, hlingers, and_assoc]
  · intro hpatient
    refine ⟨Course.strays_of_patient hstart hbegun hpatient, fun hrunning hreported ↦ ?_⟩
    exact Course.attentive_run hstart hbegun hpatient (hlingers.2 ⟨hrunning, hreported⟩)
  · intro a
    rw [signals_drop hc.wellFormed]
    by_cases hreported : c.exits = []
    · have hnot : c.session.lingers = false := by
        rw [Bool.eq_false_iff, ne_eq, hlingers]
        exact fun h ↦ h.2 hreported
      rw [hnot, if_pos hreported]
      rfl
    · rw [if_neg hreported]
      cases hrunning : c.session.isRunning with
      | true =>
        rw [hlingers.2 ⟨hrunning, hreported⟩]
        rfl
      | false =>
        have hpid : c.session.pid? = none := by
          rw [pid?, ← current?_eq_running? hc.wellFormed, current?_of_not_running hrunning]
          rfl
        rw [hpid]
        split <;> rfl

/-- A teardown is given up in the middle of the rest of the output, and the signal that is sent then
goes to the group of a program that has been reaped; without that nothing goes astray. -/
theorem signals_astray_given_up :
    let patient : List Move :=
      [.run "sh" {}, .signal .usr1 {}, .process, .happen (.exited (.exited 3)) {}]
    let moves : List Move := patient ++ [.abandon]
    let begun := Course.start (.new 1 {} Emulation.Discard.mk)
    let c := begun.run moves
    begun.isPatient patient = true ∧ begun.strays patient = [] ∧
      c.session.isRunning = true ∧ c.exits = [.exited 3] ∧
      signals (c.advance (.signal .term {})).trace = [(1, .term)] ∧
      c.strays [.signal .term {}] ≠ [] ∧ signals (c.session.drop {}) = [] := by
  intro patient moves
  have hwaited : (Course.start (.new 1 {} Emulation.Discard.mk)).isPatient patient = true := by
    decide
  have hrunning : ((Course.start (.new 1 {} Emulation.Discard.mk)).run
      moves).session.isRunning = true := by decide
  have hexits : ((Course.start (.new 1 {} Emulation.Discard.mk)).run moves).exits =
      [.exited 3] := by decide
  have hpid : ((Course.start (.new 1 {} Emulation.Discard.mk)).run moves).session.pid? =
      some 1 := by decide
  have hreported : ((Course.start (.new 1 {} Emulation.Discard.mk)).run moves).exits ≠ [] := by
    rw [hexits]
    exact List.cons_ne_nil _ _
  obtain ⟨-, -, hpatient, -⟩ := signals_astray 1 {} Emulation.Discard.mk patient
  obtain ⟨hsent, hastray, -, hdrop⟩ := signals_astray 1 {} Emulation.Discard.mk moves
  refine ⟨hwaited, (hpatient hwaited).1, hrunning, hexits, ?_, ?_, ?_⟩
  · rw [hsent (.signal .term {}), hpid]
    rfl
  · exact (hastray (.signal .term {})).2
      ⟨hrunning, hreported, Option.some_ne_none Signal.term⟩
  · rw [hdrop {}, if_neg hreported]

end Session

end PtyHost
