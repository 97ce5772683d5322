import Mathlib.Data.List.Induction
import PtyHost.Proofs.Session.Signals

/-!
# How a program is ended

An operation that ends the program sends it a signal and waits until it has been reaped. If that
takes longer than the grace period the program is killed, and the operation goes on waiting. In the
meantime it serves the session as any other operation does that waits. When the program has been
reaped the rest of its output is collected, for as long as that takes at most and not for as long as
is left of the grace period.

Main statements: `Stopping.sequel` on what becomes of such an operation when something happens,
`stopping_run` on any number of such moments, and `program_ended`.
-/

namespace PtyHost.Session

variable {ε : Type}

/-- Something that happens while an operation waits, and what the world around the session answers
then. -/
abbrev Occurrence := Wake × Answers

/-- Whether it is a failure of the terminal that happens. -/
def Wake.isTerminalFailure : Wake → Bool
  | .readFailed _ | .writeFailed _ => true
  | _ => false

/-- The signal with which an operation ends the program of a session, and when its grace period is
over, if it has one. -/
def Move.stops? (s : Session ε) : Move → Option (Signal × Option Nat)
  | .terminate a => some (s.options.terminateSignal, some (a.now + s.options.gracePeriod))
  | .kill _ => some (.kill, none)
  | _ => none

/-- Whether the grace period was over at one of these moments. -/
def overdue (grace : Option Nat) (os : List Occurrence) : Bool :=
  os.any fun o ↦ o.1 = .graceOver && grace.any (· ≤ o.2.now)

/-- The grace period is over later if it was over, or has come to its end last. -/
theorem overdue_concat (grace : Option Nat) (os : List Occurrence) (o : Occurrence) :
    overdue grace (os ++ [o]) =
      (overdue grace os || (o.1 = .graceOver && grace.any (· ≤ o.2.now))) := by
  simp [overdue]

/-- By a clock that runs forwards the grace period is over only at a later time than its end. -/
theorem le_of_overdue {grace : Option Nat} {os : List Occurrence} {now : Nat}
    (h : overdue grace os = true) (hclock : ∀ o ∈ os, o.2.now ≤ now) :
    ∃ limit, grace = some limit ∧ limit ≤ now := by
  obtain ⟨o, ho, hover⟩ := List.any_eq_true.1 h
  rw [Bool.and_eq_true, Option.any_eq_true] at hover
  obtain ⟨-, limit, hgrace, hdue⟩ := hover
  have hle : limit ≤ o.2.now := of_decide_eq_true hdue
  exact ⟨limit, hgrace, Nat.le_trans hle (hclock o ho)⟩

/-- What is left of the grace period to wait for, when it is not over. -/
def remainder (grace : Option Nat) (os : List Occurrence) : Option Nat :=
  if overdue grace os then none else grace

/-- The end of the grace period can happen just when it is over and was not over before. -/
theorem enables_graceOver (r : Running) (grace : Option Nat) (os : List Occurrence) (now : Nat) :
    enables r (.dispatching (.exit (remainder grace os))) .graceOver now =
      (!overdue grace os && grace.any (· ≤ now)) := by
  unfold remainder
  cases overdue grace os <;> cases grace <;> simp [enables]

/-- The grace period is not over later if it has not been waited for. -/
theorem overdue_of_disabled {r : Running} {grace : Option Nat} {os : List Occurrence}
    {o : Occurrence}
    (h : enables r (.dispatching (.exit (remainder grace os))) o.1 o.2.now = false) :
    overdue grace (os ++ [o]) = overdue grace os := by
  rw [overdue_concat]
  by_cases hwake : o.1 = .graceOver
  · rw [hwake, enables_graceOver] at h
    cases hoverdue : overdue grace os with
    | true => rfl
    | false => simpa [hoverdue, hwake] using h
  · simp [hwake]

/-- A program stays what it is while its session is served. -/
theorem Served.child {s t : Session ε} {trace : List Effect} {r : Running}
    (h : Served s trace t) (running : s.phase = .running r) :
    ∃ u, t.phase = .running u ∧ u.child = r.child := by
  obtain ⟨u, hu, hchild, -⟩ := h.phase.of_running running
  exact ⟨u, hu, hchild⟩

/-- What learning of the end comes to, when it was not known before: to waiting for the rest of the
output, or to the end of the session if there can be no more output. -/
theorem reap_cases {s : Session ε} {r : Running} {pid : Pid} (running : s.phase = .running r)
    (child : r.child = ⟨pid, none⟩) (status : ExitStatus) (a : Answers) :
    ((∃ t, (s.reap r status a).session.phase = .running t) ∧
        (s.reap r status a).progress = .waiting (.draining status (a.now + drainTimeout))) ∨
      r.readOpen = false ∧ (s.reap r status a).session.phase = .terminated status ∧
        (s.reap r status a).progress = .ended (.done 0) := by
  have hreaped : (r.child.learn (some status)).reaped.getD status = status := by
    rw [child]
    rfl
  unfold reap
  dsimp only
  rw [hreaped]
  split
  · exact .inl ⟨⟨_, phase_setRunning running _⟩, rfl⟩
  · next hclosed =>
    exact .inr ⟨by simpa using hclosed, phase_complete _ status a, rfl⟩

namespace Course

variable {c : Course ε} {m : Move}

/-- What can happen to a running program is heard by an operation that waits for it. -/
theorem heard?_happen {r : Running} {w : Wait} (running : c.session.phase = .running r)
    (waiting : c.waiting = some w) (wake : Wake) (a : Answers) :
    c.heard? (.happen wake a) = if enables r w wake a.now then some wake else none := by
  simp only [heard?, current?_of_running running, waiting]

/-- While the rest of the output is waited for the end of the grace period is not, and neither is
the end of the program. -/
theorem unheard_of_draining {status : ExitStatus} {deadline : Nat}
    (waiting : c.waiting = some (.draining status deadline)) (m : Move) :
    c.heard? m ≠ some .graceOver ∧ ∀ other, c.heard? m ≠ some (.exited other) := by
  constructor
  · intro hheard
    obtain ⟨_, _, w, -, -, hw, henabled⟩ := heard?_eq_some_iff.1 hheard
    cases hw.symm.trans waiting
    cases henabled
  · intro other hheard
    obtain ⟨_, _, w, -, -, hw, henabled⟩ := heard?_eq_some_iff.1 hheard
    cases hw.symm.trans waiting
    cases henabled

/-- No end of the program is reported in a move in which none is heard. -/
theorem exit?_of_unheard (h : ∀ status, c.heard? m ≠ some (.exited status)) : c.exit? m = none := by
  unfold exit?
  split
  · next status hs => exact absurd hs (h status)
  · rfl

/-- Since a course was somewhere, the program was killed, or no signal was sent. -/
def Escalated (c d : Course ε) (pid : Pid) (late : Bool) : Prop :=
  ∃ since, d.trace = c.trace ++ since ∧
    signals since = if late then [(pid, .kill)] else []

end Course

variable [Emulation ε]

/-- What a dispatch step is for an operation that waits for the end of the program: it serves the
session, it kills the program when the grace period is over, it learns of the end or fails to, or it
asks for a point in time that the clock cannot show. -/
inductive ExitStep (s : Session ε) (r : Running) (goal : Option Nat) (a : Answers) :
    Wake → Advance ε → Prop
  | serves {wake : Wake} {next : Advance ε} {t : Running}
      (running : next.session.phase = .running t) (child : t.child = r.child)
      (progress : next.progress = .waiting (.dispatching (.exit goal)))
      (quiet : wake ≠ .graceOver) (unaware : ∀ status, wake ≠ .exited status) :
      ExitStep s r goal a wake next
  | escalates :
      ExitStep s r goal a .graceOver
        (reaching (s.signal .kill a).toTraced (.waiting (.dispatching (.exit none))))
  | learns (status : ExitStatus) : ExitStep s r goal a (.exited status) (s.reap r status a)
  | overflows {wake : Wake} {next : Advance ε} (progress : next.progress = .ended .overflow) :
      ExitStep s r goal a wake next
  | fails (error : OsError) : ExitStep s r goal a (.waitFailed error) (s.refused (.device error))

/-- A dispatch step is one of these, unless the terminal fails. -/
theorem exitStep {s : Session ε} {r : Running} {goal : Option Nat} {wake : Wake} {a : Answers}
    (running : s.phase = .running r)
    (henabled : enables r (.dispatching (.exit goal)) wake a.now = true)
    (hterminal : wake.isTerminalFailure = false) :
    ExitStep s r goal a wake (s.dispatch r (.exit goal) wake a) := by
  cases wake with
  | output block =>
    have hnoting := noting s block a.now
    show ExitStep s r goal a _ (reaching (s.noteOutput block a.now).toTraced
      ((Goal.exit goal).after (s.noteOutput block a.now).verdict))
    revert hnoting
    generalize s.noteOutput block a.now = o
    intro hnoting
    cases hnoting with
    | unwatched =>
      obtain ⟨_, -, hserved⟩ := Served.feed s block
      obtain ⟨t, ht, hchild⟩ := hserved.child running
      exact .serves ht hchild rfl (by simp) (by simp)
    | lost => exact .overflows rfl
    | @watched time =>
      let noted : Session ε := { s with notified := true }
      let armed := noted.modifyRunning fun r ↦ { r with silenceAt := some time }
      have hnoted : noted.phase = .running r := running
      have harmed : armed.phase = .running { r with silenceAt := some time } := by
        rw [show armed = noted.setRunning { r with silenceAt := some time } from
          modifyRunning_of_running? (running?_of_running hnoted) _]
        exact phase_setRunning hnoted _
      obtain ⟨_, -, hserved⟩ := Served.feed armed block
      obtain ⟨t, ht, hchild⟩ := hserved.child harmed
      exact .serves ht hchild rfl (by simp) (by simp)
  | endOfOutput => exact .serves (phase_setRunning running _) rfl rfl (by simp) (by simp)
  | accepted count => exact .serves (phase_setRunning running _) rfl rfl (by simp) (by simp)
  | inputClosed => exact .serves (phase_setRunning running _) rfl rfl (by simp) (by simp)
  | silence =>
    have hquiet : s.silenceElapsed.session.phase = .running { r with silenceAt := none } := by
      have hquieted : { s with notified := false }.phase = .running r := running
      unfold silenceElapsed
      rw [modifyRunning_of_running? (running?_of_running hquieted)]
      dsimp only
      split
      · exact phase_setRunning hquieted _
      · exact phase_setRunning hquieted _
    exact .serves hquiet rfl rfl (by simp) (by simp)
  | readFailed | writeFailed => cases hterminal
  | waitFailed error => exact .fails error
  | exited status => exact .learns status
  | graceOver => exact .escalates
  | drainOver => cases goal <;> cases henabled

namespace Course

variable {c d : Course ε} {m : Move} {sig : Signal} {grace : Option Nat} {pid : Pid}
  {os : List Occurrence} {o : Occurrence}

/-- The course in which something happens, one after the other. -/
def through (c : Course ε) (os : List Occurrence) : Course ε :=
  c.run (os.map fun o ↦ .happen o.1 o.2)

/-- The last that happens. -/
theorem through_concat (c : Course ε) (os : List Occurrence) (o : Occurrence) :
    c.through (os ++ [o]) = (c.through os).step (.happen o.1 o.2) := by
  rw [through, List.map_append, run_append]
  rfl

/-- What the last that happens makes of the session. -/
theorem session_concat (c : Course ε) (os : List Occurrence) (o : Occurrence) :
    (c.through (os ++ [o])).session = ((c.through os).advance (.happen o.1 o.2)).session := by
  rw [through_concat]
  rfl

/-- What is waited for when the last has happened. -/
theorem waiting_concat (c : Course ε) (os : List Occurrence) (o : Occurrence) :
    (c.through (os ++ [o])).waiting =
      ((c.through os).advance (.happen o.1 o.2)).progress.wait? := by
  rw [through_concat]
  rfl

/-- What is known of the end of the program when the last has happened. -/
theorem exits_concat (c : Course ε) (os : List Occurrence) (o : Occurrence) :
    (c.through (os ++ [o])).exits =
      (c.through os).exits ++ ((c.through os).exit? (.happen o.1 o.2)).toList := by
  rw [through_concat]
  rfl

/-- An operation that dispatches goes on if something happens that it waits for, and else goes on
waiting. -/
theorem advance_dispatching {r : Running} {g : Goal} (running : c.session.phase = .running r)
    (waiting : c.waiting = some (.dispatching g)) (wake : Wake) (a : Answers) :
    c.advance (.happen wake a) =
      if enables r (.dispatching g) wake a.now then c.session.dispatch r g wake a
      else reaching ⟨c.session, []⟩ (.waiting (.dispatching g)) := by
  simp only [advance, Move.act, waiting, Session.resume, current?_of_running running]

/-- An operation that collects the rest of the output goes on if something happens that it waits
for, and else goes on waiting. -/
theorem advance_draining {r : Running} {status : ExitStatus} {deadline : Nat}
    (running : c.session.phase = .running r)
    (waiting : c.waiting = some (.draining status deadline)) (wake : Wake) (a : Answers) :
    c.advance (.happen wake a) =
      if enables r (.draining status deadline) wake a.now then
        c.session.drain r status deadline wake a
      else reaching ⟨c.session, []⟩ (.waiting (.draining status deadline)) := by
  simp only [advance, Move.act, waiting, Session.resume, current?_of_running running]

/-- Nothing happens to an operation that has ended. -/
theorem waiting_happen (h : c.waiting = none) (wake : Wake) (a : Answers) :
    (c.step (.happen wake a)).waiting = none := by
  show (c.advance (.happen wake a)).progress.wait? = none
  simp only [advance, Move.act, h]
  rfl

/-- What was sent before a move and in it is what has been sent since. -/
theorem Escalated.step {late later : Bool} (h : c.Escalated d pid late)
    (hsent : (if late then [(pid, .kill)] else []) ++ signals (d.advance m).trace =
      if later then [(pid, .kill)] else []) : c.Escalated (d.step m) pid later := by
  obtain ⟨since, htrace, hsignals⟩ := h
  refine ⟨since ++ (d.advance m).trace, ?_, ?_⟩
  · rw [← List.append_assoc, ← htrace]
    rfl
  · rw [signals_append, hsignals, hsent]

/-- Nothing more has been sent after a move that sends no signal. -/
theorem Escalated.quiet {late : Bool} (h : c.Escalated d pid late)
    (hquiet : signals (d.advance m).trace = []) : c.Escalated (d.step m) pid late := by
  apply h.step
  rw [hquiet, List.append_nil]

/-- An operation that ends the program sends it the signal first, if it is running. -/
theorem advance_of_stops (h : m.stops? c.session = some (sig, grace)) :
    (∃ a, c.advance m = c.session.stop sig grace a) ∧ c.exit? m = none := by
  cases m with
  | terminate a | kill a =>
    obtain ⟨rfl, rfl⟩ := Prod.mk.inj (Option.some.inj h)
    exact ⟨⟨a, rfl⟩, rfl⟩
  | _ => cases h

/-- An operation that waits for the end of the program serves the session as one does that makes a
single step, until the grace period is over. -/
theorem serves_alike {goal : Option Nat} (waiting : c.waiting = some (.dispatching (.exit goal)))
    {wake : Wake} (hwake : wake ≠ .graceOver) (a : Answers) :
    c.heard? (.happen wake a) =
        { c with waiting := some (.dispatching .step) }.heard? (.happen wake a) ∧
      (c.advance (.happen wake a)).toTraced =
        ({ c with waiting := some (.dispatching .step) }.advance (.happen wake a)).toTraced := by
  have henables (r : Running) : enables r (.dispatching (.exit goal)) wake a.now =
      enables r (.dispatching .step) wake a.now := by
    cases wake <;> first | rfl | exact absurd rfl hwake
  have hdispatch (r : Running) : (c.session.dispatch r (.exit goal) wake a).toTraced =
      (c.session.dispatch r .step wake a).toTraced := by
    cases wake <;> rfl
  constructor
  · simp only [heard?, waiting]
    cases c.session.current? <;> simp only [henables]
  · simp only [advance, Move.act, Session.resume, waiting]
    cases c.session.current? with
    | none => rfl
    | some r =>
      simp only [henables]
      split
      · exact hdispatch r
      · rfl

end Course

open Course

/-- What has happened since an operation began that ends the program: the program was served until
it was reaped, and the rest of its output has been collected since. -/
structure Reaped (c : Course ε) (pid : Pid) (grace : Option Nat) (status : ExitStatus)
    (served : List Occurrence) (reap : Answers) (collected os : List Occurrence) : Prop where
  split : os = served ++ (.exited status, reap) :: collected
  unaware : (c.through served).exits = []
  exits : (c.through os).exits = [status]
  escalated : c.Escalated (c.through os) pid (overdue grace served)

/-- How the rest of the output came to be collected: it was all read before the end, it was all read
after it, or the time to wait for it was over. -/
def Collected (c : Course ε) (served : List Occurrence) (reap : Answers)
    (collected : List Occurrence) : Prop :=
  (collected = [] ∧ ∃ r, (c.through served).session.phase = .running r ∧ r.readOpen = false) ∨
    ∃ earlier last, collected = earlier ++ [last] ∧
      (last.1 = .endOfOutput ∨ last.1 = .drainOver ∧ reap.now + drainTimeout ≤ last.2.now)

/-- An operation that ends the program, in a course in which something has happened since it began:
it waits for the program to be reaped, or for the rest of its output. -/
inductive Stopping (c : Course ε) (pid : Pid) (grace : Option Nat) (os : List Occurrence) : Prop
  | waiting {r : Running} (running : (c.through os).session.phase = .running r)
      (child : r.child = ⟨pid, none⟩) (unaware : (c.through os).exits = [])
      (waiting : (c.through os).waiting = some (.dispatching (.exit (remainder grace os))))
      (escalated : c.Escalated (c.through os) pid (overdue grace os))
  | draining {r : Running} {status : ExitStatus} {served : List Occurrence} {reap : Answers}
      {collected : List Occurrence} (running : (c.through os).session.phase = .running r)
      (waiting : (c.through os).waiting = some (.draining status (reap.now + drainTimeout)))
      (reaped : Reaped c pid grace status served reap collected os)

/-- What becomes of an operation that ends the program when something happens: it goes on, it
returns when the session has ended, it fails to learn of the end of the program, or it asks for a
point in time that the clock cannot show. -/
inductive Sequel (c : Course ε) (pid : Pid) (grace : Option Nat) (os : List Occurrence)
    (o : Occurrence) : Progress → Prop
  | goesOn {w : Wait} (stopping : Stopping c pid grace (os ++ [o])) :
      Sequel c pid grace os o (.waiting w)
  | returns {status : ExitStatus} {served : List Occurrence} {reap : Answers}
      {collected : List Occurrence}
      (reaped : Reaped c pid grace status served reap collected (os ++ [o]))
      (terminated : (c.through (os ++ [o])).session.phase = .terminated status)
      (closed : Collected c served reap collected) : Sequel c pid grace os o (.ended (.done 0))
  | fails {error : OsError} (unknown : o.1 = .waitFailed error) :
      Sequel c pid grace os o (.ended (.failed (.device error)))
  | overflows : Sequel c pid grace os o (.ended .overflow)

variable {c : Course ε} {pid : Pid} {grace : Option Nat} {status : ExitStatus}
  {served collected os : List Occurrence} {reap : Answers} {o : Occurrence}

/-- What has been reaped stays so if something else happens than the end of the grace period. -/
theorem Reaped.later (hc : (c.through os).session.phase.WellFormed)
    (h : Reaped c pid grace status served reap collected os)
    (hquiet : (c.through os).heard? (.happen o.1 o.2) ≠ some .graceOver)
    (hunaware : (c.through os).exit? (.happen o.1 o.2) = none) :
    Reaped c pid grace status served reap (collected ++ [o]) (os ++ [o]) where
  split := by rw [h.split, List.append_assoc, List.cons_append]
  unaware := h.unaware
  exits := by
    rw [exits_concat, h.exits, hunaware]
    rfl
  escalated := by
    rw [through_concat]
    exact h.escalated.quiet (by rw [signals_happen hc, if_neg hquiet])

/-- An operation goes on waiting for the program to be reaped if that leaves the program as it is
and the grace period has not come to its end. -/
theorem Stopping.still {t : Running} (hc : (c.through os).session.phase.WellFormed)
    (unaware : (c.through os).exits = [])
    (escalated : c.Escalated (c.through os) pid (overdue grace os))
    (running : ((c.through os).advance (.happen o.1 o.2)).session.phase = .running t)
    (child : t.child = ⟨pid, none⟩)
    (progress : ((c.through os).advance (.happen o.1 o.2)).progress =
      .waiting (.dispatching (.exit (remainder grace os))))
    (hoverdue : overdue grace (os ++ [o]) = overdue grace os)
    (hquiet : (c.through os).heard? (.happen o.1 o.2) ≠ some .graceOver)
    (hunaware : (c.through os).exit? (.happen o.1 o.2) = none) :
    Stopping c pid grace (os ++ [o]) := by
  refine .waiting (r := t) ?_ child ?_ ?_ ?_
  · rw [session_concat]
    exact running
  · rw [exits_concat, unaware, hunaware]
    rfl
  · rw [waiting_concat, progress, remainder, remainder, hoverdue]
    rfl
  · rw [through_concat, hoverdue]
    exact escalated.quiet (by rw [signals_happen hc, if_neg hquiet])

/-- An operation kills the program when the grace period is over, and goes on waiting. -/
theorem Stopping.kill {r : Running} {a : Answers}
    (running : (c.through os).session.phase = .running r) (child : r.child = ⟨pid, none⟩)
    (unaware : (c.through os).exits = [])
    (escalated : c.Escalated (c.through os) pid (overdue grace os))
    (hheard : (c.through os).heard? (.happen .graceOver a) = some .graceOver)
    (hadvance : (c.through os).advance (.happen .graceOver a) =
      reaching ((c.through os).session.signal .kill a).toTraced
        (.waiting (.dispatching (.exit none))))
    (henabled : enables r (.dispatching (.exit (remainder grace os))) .graceOver a.now = true) :
    Stopping c pid grace (os ++ [(.graceOver, a)]) := by
  rw [enables_graceOver, Bool.and_eq_true, Bool.not_eq_true'] at henabled
  obtain ⟨hbefore, hdue⟩ := henabled
  have hover : overdue grace (os ++ [(.graceOver, a)]) = true := by
    simp [overdue_concat, hdue]
  have hpid : (c.through os).session.pid? = some pid := by
    rw [pid?, running?_of_running running, Option.map_some, child]
  have hkill : signals ((c.through os).advance (.happen .graceOver a)).trace = [(pid, .kill)] := by
    rw [signals_happen (wellFormed_of_running running), if_pos hheard, hpid]
    rfl
  refine .waiting (r := r) ?_ child ?_ ?_ ?_
  · rw [session_concat, hadvance]
    show ((c.through os).session.signal .kill a).session.phase = _
    rw [session_signal, running]
  · rw [exits_concat, unaware, exit?_eq_none hheard (by simp)]
    rfl
  · rw [waiting_concat, hadvance, remainder, hover]
    rfl
  · rw [through_concat, hover]
    apply escalated.step
    rw [hbefore, hkill]
    rfl

/-- An operation that learns of the end of the program goes on with the rest of the output, if there
can be more of it. -/
theorem sequel_learns {r : Running} {a : Answers}
    (running : (c.through os).session.phase = .running r) (child : r.child = ⟨pid, none⟩)
    (unaware : (c.through os).exits = [])
    (escalated : c.Escalated (c.through os) pid (overdue grace os))
    (hheard : (c.through os).heard? (.happen (.exited status) a) = some (.exited status))
    (hadvance : (c.through os).advance (.happen (.exited status) a) =
      (c.through os).session.reap r status a) :
    Sequel c pid grace os (.exited status, a)
      ((c.through os).session.reap r status a).progress := by
  have hexit : (c.through os).exit? (.happen (.exited status) a) = some status := by
    simp only [exit?, hheard]
  have hreaped : Reaped c pid grace status os a [] (os ++ [(.exited status, a)]) := by
    refine ⟨rfl, unaware, ?_, ?_⟩
    · rw [exits_concat, unaware, hexit]
      rfl
    · rw [through_concat]
      exact escalated.quiet
        (by rw [signals_happen (wellFormed_of_running running), if_neg (by simp [hheard])])
  rcases reap_cases running child status a with
    ⟨⟨t, hrunning⟩, hprogress⟩ | ⟨hclosed, hterminated, hprogress⟩
  · have hdraining : Stopping c pid grace (os ++ [(.exited status, a)]) := by
      refine .draining (r := t) ?_ ?_ hreaped
      · rw [session_concat, hadvance, hrunning]
      · rw [waiting_concat, hadvance, hprogress]
        rfl
    rw [hprogress]
    exact .goesOn hdraining
  · rw [hprogress]
    refine .returns hreaped ?_ (.inl ⟨rfl, r, running, hclosed⟩)
    rw [session_concat, hadvance, hterminated]

/-- An operation that waits for the program to be reaped, when something happens. -/
theorem sequel_waiting {r : Running} (running : (c.through os).session.phase = .running r)
    (child : r.child = ⟨pid, none⟩) (unaware : (c.through os).exits = [])
    (waiting : (c.through os).waiting = some (.dispatching (.exit (remainder grace os))))
    (escalated : c.Escalated (c.through os) pid (overdue grace os))
    (hterminal : o.1.isTerminalFailure = false) :
    Sequel c pid grace os o ((c.through os).advance (.happen o.1 o.2)).progress := by
  obtain ⟨wake, a⟩ := o
  have hheard := heard?_happen running waiting wake a
  have hadvance := advance_dispatching running waiting wake a
  cases henabled : enables r (.dispatching (.exit (remainder grace os))) wake a.now with
  | false =>
    simp only [henabled, Bool.false_eq_true, if_false] at hheard hadvance
    have hstill : Stopping c pid grace (os ++ [(wake, a)]) := by
      refine .still (wellFormed_of_running running) unaware escalated ?_ child ?_
        (overdue_of_disabled henabled) ?_ ?_
      · rw [hadvance]
        exact running
      · rw [hadvance]
        rfl
      · simp [hheard]
      · exact exit?_of_unheard (by simp [hheard])
    rw [hadvance]
    exact .goesOn hstill
  | true =>
    simp only [henabled, if_true] at hheard hadvance
    have hstep := exitStep running henabled hterminal
    rw [← hadvance] at hstep
    generalize hnext : (c.through os).advance (.happen wake a) = next at hstep
    cases hstep with
    | @serves _ _ t running' child' progress quiet unaware' =>
      have hstill : Stopping c pid grace (os ++ [(wake, a)]) := by
        refine .still (t := t) (wellFormed_of_running running) unaware escalated ?_
          (child'.trans child) ?_ ?_ ?_ ?_
        · rw [hnext]
          exact running'
        · rw [hnext]
          exact progress
        · simp [overdue_concat, quiet]
        · simpa [hheard] using quiet
        · exact exit?_eq_none hheard unaware'
      rw [progress]
      exact .goesOn hstill
    | escalates => exact .goesOn (.kill running child unaware escalated hheard hnext henabled)
    | learns status => exact sequel_learns running child unaware escalated hheard hnext
    | overflows progress =>
      rw [progress]
      exact .overflows
    | fails error => exact .fails rfl

/-- An operation that waits for the rest of the output, when something happens. -/
theorem sequel_draining {r : Running} (running : (c.through os).session.phase = .running r)
    (waiting : (c.through os).waiting = some (.draining status (reap.now + drainTimeout)))
    (reaped : Reaped c pid grace status served reap collected os)
    (hterminal : o.1.isTerminalFailure = false) :
    Sequel c pid grace os o ((c.through os).advance (.happen o.1 o.2)).progress := by
  obtain ⟨wake, a⟩ := o
  have hadvance := advance_draining running waiting wake a
  -- nothing is heard here that sends a signal or changes what is known of the end
  obtain ⟨hquiet, hunaware⟩ := unheard_of_draining waiting (.happen wake a)
  have hlater : Reaped c pid grace status served reap (collected ++ [(wake, a)])
      (os ++ [(wake, a)]) :=
    reaped.later (wellFormed_of_running running) hquiet (exit?_of_unheard hunaware)
  have hgoesOn {t : Running}
      (hrunning : ((c.through os).advance (.happen wake a)).session.phase = .running t)
      (hprogress : ((c.through os).advance (.happen wake a)).progress =
        .waiting (.draining status (reap.now + drainTimeout))) :
      Sequel c pid grace os (wake, a) ((c.through os).advance (.happen wake a)).progress := by
    have hdraining : Stopping c pid grace (os ++ [(wake, a)]) := by
      refine .draining (r := t) ?_ ?_ hlater
      · rw [session_concat, hrunning]
      · rw [waiting_concat, hprogress]
        rfl
    rw [hprogress]
    exact .goesOn hdraining
  have hreturns {t : Session ε} (hadvance : (c.through os).advance (.happen wake a) =
        reaching (t.complete status a) (.ended (.done 0)))
      (hlast : wake = .endOfOutput ∨ wake = .drainOver ∧ reap.now + drainTimeout ≤ a.now) :
      Sequel c pid grace os (wake, a) ((c.through os).advance (.happen wake a)).progress := by
    have hterminated : (c.through (os ++ [(wake, a)])).session.phase = .terminated status := by
      rw [session_concat, hadvance]
      exact phase_complete t status a
    rw [hadvance]
    exact .returns hlater hterminated (.inr ⟨collected, (wake, a), rfl, hlast⟩)
  cases henabled : enables r (.draining status (reap.now + drainTimeout)) wake a.now with
  | false =>
    simp only [henabled, Bool.false_eq_true, if_false] at hadvance
    exact hgoesOn (by rw [hadvance]; exact running) (by rw [hadvance]; rfl)
  | true =>
    simp only [henabled, if_true] at hadvance
    cases wake with
    | output block =>
      obtain ⟨_, -, hserved⟩ := Served.feed (c.through os).session block
      obtain ⟨t, ht, -⟩ := hserved.child running
      exact hgoesOn (t := t) (by rw [hadvance]; exact ht) (by rw [hadvance]; rfl)
    | endOfOutput => exact hreturns hadvance (.inl rfl)
    | drainOver => exact hreturns hadvance (.inr ⟨rfl, of_decide_eq_true henabled⟩)
    | readFailed => cases hterminal
    | _ => cases henabled

/-- Whatever happens to an operation that ends the program, it goes on or comes to one of its
ends. -/
theorem Stopping.sequel (h : Stopping c pid grace os) (hterminal : o.1.isTerminalFailure = false) :
    Sequel c pid grace os o ((c.through os).advance (.happen o.1 o.2)).progress := by
  cases h with
  | waiting running child unaware waiting escalated =>
    exact sequel_waiting running child unaware waiting escalated hterminal
  | draining running waiting reaped => exact sequel_draining running waiting reaped hterminal

/-- An operation that ends the program waits first for it to be reaped. -/
theorem Stopping.start {m : Move} {sig : Signal} (hc : c.session.phase.WellFormed)
    (h : m.stops? c.session = some (sig, grace))
    (hpid : c.session.pid? = some pid) (hlearnt : c.session.learnt? = none)
    (hexits : c.exits = []) : Stopping (c.step m) pid grace [] := by
  obtain ⟨⟨a, hadvance⟩, hexit⟩ := advance_of_stops h
  obtain ⟨r, hr, rfl⟩ := Option.map_eq_some_iff.1 hpid
  have running : c.session.phase = .running r := (running?_eq_some_iff hc).1 hr
  have hreaped : r.child.reaped = none := by
    rwa [learnt?_of_running running] at hlearnt
  refine .waiting (r := r) ?_ ?_ ?_ ?_ ⟨[], (List.append_nil _).symm, rfl⟩
  · show (c.advance m).session.phase = _
    rw [hadvance]
    simp only [stop, running, reaching, session_signal]
  · exact congrArg (Child.mk r.child.pid) hreaped
  · show c.exits ++ _ = _
    rw [hexits, hexit]
    rfl
  · show (c.advance m).progress.wait? = _
    rw [hadvance]
    simp only [stop, running, await, current?_of_running running]
    rfl

/-- An operation that ends the program does so as long as it waits, whatever happens until then. -/
theorem stopping_run (h : Stopping c pid grace []) (os : List Occurrence)
    (hterminal : ∀ o ∈ os, o.1.isTerminalFailure = false) (hwaits : (c.through os).waiting ≠ none) :
    Stopping c pid grace os := by
  -- from the end, since an operation that waits after the last moment waited before it
  induction os using List.reverseRecOn with
  | nil => exact h
  | append_singleton os o ih =>
    rw [List.forall_mem_append] at hterminal
    rw [through_concat] at hwaits
    have hbefore : (c.through os).waiting ≠ none := fun hended ↦
      hwaits (waiting_happen hended o.1 o.2)
    have hsequel := (ih hterminal.1 hbefore).sequel (o := o) (hterminal.2 o (by simp))
    change ((c.through os).advance (.happen o.1 o.2)).progress.wait? ≠ none at hwaits
    generalize ((c.through os).advance (.happen o.1 o.2)).progress = p at hsequel hwaits
    cases hsequel with
    | goesOn stopping => exact stopping
    | returns | fails | overflows => exact absurd rfl hwaits

/-- A session parts once from its terminal and its owner while an operation ends its program, and
the signals that are sent are the first one and the one that kills the program if it is overdue. -/
theorem Reaped.effects {id : SessionId} {m : Move} {sig : Signal} (hc : Resumable id c)
    (hstops : m.stops? c.session = some (sig, grace)) (hpid : c.session.pid? = some pid)
    (h : Reaped (c.step m) pid grace status served reap collected os)
    (terminated : ((c.step m).through os).session.phase = .terminated status) :
    ∃ since revoked, ((c.step m).through os).trace = c.trace ++ since ∧
      since.filter Effect.isParting =
        [.requested .revoke revoked, .notified (.finished id status)] ∧
      signals since = (pid, sig) :: (if overdue grace served then [(pid, .kill)] else []) := by
  obtain ⟨⟨a, hadvance⟩, -⟩ := advance_of_stops hstops
  have hfirst : signals (c.advance m).trace = [(pid, sig)] := by
    rw [hadvance, signals_stop hc.wellFormed, hpid]
    rfl
  obtain ⟨r, hr, -⟩ := Option.map_eq_some_iff.1 hpid
  have hbegan : Parted id [] c.session.phase := by
    rw [(running?_eq_some_iff hc.wellFormed).1 hr]
    exact .notYet r rfl
  obtain ⟨since, htrace, hparted⟩ := parted_run hc hbegan (m :: os.map fun o ↦ .happen o.1 o.2)
  change ((c.step m).through os).trace = _ at htrace
  change Parted id since ((c.step m).through os).session.phase at hparted
  obtain ⟨later, hlater, hsignals⟩ := h.escalated
  -- what was parted with and what was signalled are in the same effects
  have hsince : since = (c.advance m).trace ++ later := by
    have hboth : c.trace ++ since = c.trace ++ ((c.advance m).trace ++ later) := by
      rw [← htrace, hlater, ← List.append_assoc]
      rfl
    exact List.append_cancel_left hboth
  rw [terminated] at hparted
  cases hparted with
  | once _ revoked hboth =>
    refine ⟨since, revoked, htrace, hboth, ?_⟩
    rw [hsince, signals_append, hfirst, hsignals]
    rfl

/-- An operation that ends the program does nothing to a session that has ended. -/
theorem advance_of_terminated {m : Move} (hphase : c.session.phase = .terminated status)
    (h : m.stops? c.session ≠ none) :
    c.advance m = reaching ⟨c.session, []⟩ (.ended (.done 0)) ∧ c.exit? m = none := by
  obtain ⟨⟨sig, grace⟩, hstops⟩ := Option.ne_none_iff_exists'.1 h
  obtain ⟨⟨a, hadvance⟩, hexit⟩ := advance_of_stops hstops
  refine ⟨?_, hexit⟩
  rw [hadvance]
  simp only [stop, hphase]

/-- Operations that end the program do nothing to a session that has ended, however many. -/
theorem run_of_terminated (hphase : c.session.phase = .terminated status) {moves : List Move}
    (h : ∀ m ∈ moves, m.stops? c.session ≠ none) : (c.run moves).toTraced = c.toTraced := by
  induction moves generalizing c with
  | nil => rfl
  | cons m moves ih =>
    rw [List.forall_mem_cons] at h
    have hsame : (c.step m).toTraced = c.toTraced := by
      show (⟨(c.advance m).session, c.trace ++ (c.advance m).trace⟩ : Traced ε) = _
      rw [(advance_of_terminated hphase h.1).1]
      exact congrArg (Traced.mk c.session) (List.append_nil c.trace)
    have hsession : (c.step m).session = c.session := congrArg Traced.session hsame
    have hlater := ih (c := c.step m) (by rwa [hsession]) (by rw [hsession]; exact h.2)
    exact hlater.trans hsame

/-- How an operation ends the program of a session, whatever was done to the session before and
whatever happens until it returns, as long as the terminal does not fail. It returns only when the
program has been reaped, unless it fails to learn of that. The session has ended then with the
status that the program was reaped with, and its owner was told once. The signals that were sent are
the first one, and behind it the one that kills the program if and only if the grace period was over
before the program had been reaped. The rest of the output has been collected until there was no
more of it or until the time for that was over, which begins when the program has been reaped. In
the meantime the session is served as by an operation that makes a single step. On a session that
has ended such an operation returns without having done anything, however often, and on one that
does not run anything yet it fails. -/
theorem program_ended (id : SessionId) (options : SessionOptions) (e : ε) (before : List Move) :
    let begun := (Course.start (.new id options e)).run before
    (∀ m sig grace pid, m.stops? begun.session = some (sig, grace) →
      begun.session.pid? = some pid → begun.exits = [] →
      ∀ os,
        let waited := (begun.step m).through os
        (∀ last v, (∀ o ∈ os ++ [last], o.1.isTerminalFailure = false) → waited.waiting ≠ none →
          (waited.advance (.happen last.1 last.2)).progress = .ended v → v ≠ .overflow →
          (∃ error, last.1 = .waitFailed error ∧ v = .failed (.device error)) ∨
          v = .done 0 ∧
            ∃ status served reap collected since revoked,
              let done := (begun.step m).through (os ++ [last])
              os ++ [last] = served ++ (.exited status, reap) :: collected ∧
              ((begun.step m).through served).exits = [] ∧ done.exits = [status] ∧
              done.session.phase = .terminated status ∧
              done.trace = begun.trace ++ since ∧
              since.filter Effect.isParting =
                [.requested .revoke revoked, .notified (.finished id status)] ∧
              signals since =
                (pid, sig) :: (if overdue grace served then [(pid, .kill)] else []) ∧
              (overdue grace served = true → (∀ o ∈ served, o.2.now ≤ reap.now) →
                ∃ limit, grace = some limit ∧ limit ≤ reap.now) ∧
              Collected (begun.step m) served reap collected) ∧
        (∀ goal wake a, waited.waiting = some (.dispatching (.exit goal)) → wake ≠ .graceOver →
          let single : Course ε := { waited with waiting := some (.dispatching .step) }
          waited.heard? (.happen wake a) = single.heard? (.happen wake a) ∧
            (waited.advance (.happen wake a)).toTraced =
              (single.advance (.happen wake a)).toTraced) ∧
        ∀ status deadline a, waited.waiting = some (.draining status deadline) →
          waited.heard? (.happen .graceOver a) = none) ∧
    (begun.session.isTerminated = true →
      ∀ moves, (∀ m ∈ moves, m.stops? begun.session ≠ none) →
        (begun.run moves).toTraced = begun.toTraced ∧
          ∀ m, m.stops? begun.session ≠ none →
            (begun.run moves).advance m = reaching ⟨begun.session, []⟩ (.ended (.done 0))) ∧
    (begun.session.phase.state = .idle → ∀ m, m.stops? begun.session ≠ none →
      begun.advance m = begun.session.refused .notRunning) := by
  intro begun
  have hbegun : Resumable id begun := resumable_run id options e before
  refine ⟨?_, ?_, ?_⟩
  · intro m sig grace pid hstops hpid hexits os waited
    have hlearnt : begun.session.learnt? = none := by
      rw [← hbegun.exits, hexits]
      rfl
    have hstart : Stopping (begun.step m) pid grace [] :=
      .start hbegun.wellFormed hstops hpid hlearnt hexits
    refine ⟨?_, ?_, ?_⟩
    · intro last v hterminal hwaits hprogress hintime
      rw [List.forall_mem_append] at hterminal
      have hstopping := stopping_run hstart os hterminal.1 hwaits
      have hsequel := hstopping.sequel (o := last) (hterminal.2 last (by simp))
      change Sequel _ _ _ _ _ (waited.advance (.happen last.1 last.2)).progress at hsequel
      rw [hprogress] at hsequel
      cases hsequel with
      | fails unknown => exact .inl ⟨_, unknown, rfl⟩
      | overflows => exact absurd rfl hintime
      | returns reaped terminated closed =>
        obtain ⟨since, revoked, htrace, hparting, hsignals⟩ :=
          reaped.effects hbegun hstops hpid terminated
        exact .inr ⟨rfl, _, _, _, _, since, revoked, reaped.split, reaped.unaware, reaped.exits,
          terminated, htrace, hparting, hsignals, le_of_overdue, closed⟩
    · intro goal wake a waiting hwake
      exact serves_alike waiting hwake a
    · intro status deadline a waiting
      have hquiet := (unheard_of_draining waiting (.happen .graceOver a)).1
      rw [Option.eq_none_iff_forall_ne_some]
      intro wake hheard
      obtain rfl := eq_of_heard? hheard
      exact hquiet hheard
  · intro hterminated moves hmoves
    obtain ⟨status, hphase⟩ := (isTerminated_iff hbegun.wellFormed).1 hterminated
    have hsame := run_of_terminated hphase hmoves
    have hsession : (begun.run moves).session = begun.session := congrArg Traced.session hsame
    refine ⟨hsame, fun m hm ↦ ?_⟩
    rw [← hsession] at hphase hm ⊢
    exact (advance_of_terminated hphase hm).1
  · intro hidle m hm
    obtain ⟨⟨sig, grace⟩, hstops⟩ := Option.ne_none_iff_exists'.1 hm
    obtain ⟨⟨a, hadvance⟩, -⟩ := advance_of_stops hstops
    rw [hadvance]
    simp only [stop, hidle]

/-- A program that does not heed the first signal is killed when the grace period is over, and the
output that it has left is collected; ending it again does nothing. -/
theorem program_ended_killed :
    let before : List Move := [.run "sh" {}]
    let os : List Occurrence :=
      [(.output [104], { now := 10 }), (.graceOver, { now := 3000 }),
        (.exited (.signaled 9 false), { now := 3001 }), (.output [105], { now := 3002 })]
    let last : Occurrence := (.endOfOutput, { now := 3003 })
    let idle := Course.start (.new 1 {} Emulation.Discard.mk)
    let begun := idle.run before
    let done := (begun.step (.terminate {})).through (os ++ [last])
    begun.session.pid? = some 1 ∧ begun.exits = [] ∧
      done.session.phase = .terminated (.signaled 9 false) ∧
      (∃ since revoked, done.trace = begun.trace ++ since ∧
        since.filter Effect.isParting =
          [.requested .revoke revoked, .notified (.finished 1 (.signaled 9 false))] ∧
        signals since = [(1, .hup), (1, .kill)]) ∧
      (done.run [.terminate {}, .kill {}, .terminate {}]).toTraced = done.toTraced ∧
      idle.advance (.kill {}) = idle.session.refused .notRunning := by
  intro before os last idle begun done
  have hbegun : (Course.start (.new 1 {} Emulation.Discard.mk)).run before = begun := rfl
  have hpid : begun.session.pid? = some 1 := by decide
  have hexits : begun.exits = [] := by decide
  have hstops : Move.stops? begun.session (.terminate {}) = some (.hup, some 3000) := by decide
  have hterminal : ∀ o ∈ os ++ [last], o.1.isTerminalFailure = false := by decide
  have hwaits : ((begun.step (.terminate {})).through os).waiting ≠ none := by decide
  have hreturned : (((begun.step (.terminate {})).through os).advance
      (.happen last.1 last.2)).progress = .ended (.done 0) := by decide
  have hphase : done.session.phase = .terminated (.signaled 9 false) := by decide
  obtain ⟨hends, -⟩ := program_ended 1 {} Emulation.Discard.mk before
  obtain ⟨-, hagain, -⟩ := program_ended 1 {} Emulation.Discard.mk
    (before ++ .terminate {} :: (os ++ [last]).map fun o ↦ .happen o.1 o.2)
  obtain ⟨-, -, hidle⟩ := program_ended 1 {} Emulation.Discard.mk []
  rw [hbegun] at hends
  rw [Course.run_append, hbegun] at hagain
  clear_value begun
  obtain ⟨hreturns, -⟩ := hends (.terminate {}) .hup (some 3000) 1 hstops hpid hexits os
  obtain ⟨_, hunknown, -⟩ | ⟨-, status, served, reap, collected, since, revoked, hsplit, -, -,
      hended, htrace, hparting, hsignals, -⟩ := hreturns last _ hterminal hwaits hreturned (by simp)
  · cases hunknown
  obtain rfl : status = .signaled 9 false := Phase.terminated.inj (hended.symm.trans hphase)
  obtain ⟨rfl, -⟩ : served = [(.output [104], { now := 10 }), (.graceOver, { now := 3000 })] ∧
      reap = { now := 3001 } ∧
        collected = [(.output [105], { now := 3002 }), (.endOfOutput, { now := 3003 })] := by
    simpa [os, last, List.cons_eq_append_iff] using hsplit
  refine ⟨hpid, hexits, hphase, ⟨since, revoked, htrace, hparting, hsignals⟩, ?_, ?_⟩
  · have hterminated : done.session.isTerminated = true := by rw [isTerminated, hphase]; rfl
    exact (hagain hterminated [.terminate {}, .kill {}, .terminate {}] (by simp [Move.stops?])).1
  · exact hidle rfl (.kill {}) (by simp [Move.stops?])

end PtyHost.Session
