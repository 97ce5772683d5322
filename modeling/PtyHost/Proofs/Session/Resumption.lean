import PtyHost.Proofs.Session.Conservation
import PtyHost.Proofs.Session.Lifecycle

/-!
# Operations that are given up

An operation may be given up wherever it waits, also when the program has ended and the rest of its
output is being collected. The session is driven on by any other operation then, which comes to the
same end: with the status that the program was reaped with first, with one request to revoke the
grant, and with one word to the owner.

Main statements: `resumable_run` on what is so after every move, whatever was given up before,
`parted_run` on how a session parts from its terminal and its owner, `Course.received_run` on the
output, and `Course.phase_of_drives`, by which any operation can bring a session to its end.
-/

namespace PtyHost

open Emulation (Recorded)

/-- Whether an effect asks for a grant to be revoked, or tells the owner that the session has
finished. -/
def Effect.isParting : Effect → Bool
  | .requested .revoke _ => true
  | e => e.isFinish

/-- Nothing minor is a parting. -/
theorem Effect.isParting_of_isMinor {e : Effect} (h : e.isMinor = true) : e.isParting = false := by
  cases e <;> simp_all [isMinor, isCall, isParting, isFinish]

namespace Session

/-- How a session that was running has parted since from its terminal and its owner: not yet, or
once from each of them when it ended. -/
inductive Parted (id : SessionId) (since : List Effect) : Phase → Prop
  | notYet (r : Running) (none : since.filter Effect.isParting = []) : Parted id since (.running r)
  | once (status : ExitStatus) (revoked : Bool)
      (both : since.filter Effect.isParting =
        [.requested .revoke revoked, .notified (.finished id status)]) :
      Parted id since (.terminated status)

namespace Parted

variable {id : SessionId} {since trace : List Effect} {p q : Phase}

/-- Nothing changes as long as the session comes no further and does not part. -/
theorem still (h : Parted id since p) (halike : p.Alike q)
    (htrace : ∀ e ∈ trace, e.isParting = false) : Parted id (since ++ trace) q := by
  have hnone : trace.filter Effect.isParting = [] :=
    List.filter_eq_nil_iff.2 (by simpa using htrace)
  have hsame : (since ++ trace).filter Effect.isParting = since.filter Effect.isParting := by
    rw [List.filter_append, hnone, List.append_nil]
  cases h with
  | notYet r hbefore =>
    obtain ⟨s, rfl, -⟩ := halike.of_running rfl
    exact .notYet s (hsame.trans hbefore)
  | once status revoked hboth =>
    obtain rfl := halike.eq_terminated rfl
    exact .once status revoked (hsame.trans hboth)

/-- The owner is told of the end exactly when the session ends. -/
theorem told_iff (h : Parted id since p) (k : Parted id (since ++ trace) q) :
    (∃ status, .notified (.finished id status) ∈ trace) ↔
      (∃ r, p = .running r) ∧ ∃ status, q = .terminated status := by
  have hmem {status : ExitStatus} (hnone : trace.filter Effect.isParting = []) :
      .notified (.finished id status) ∉ trace := by
    intro hmem
    have hparting := List.filter_eq_nil_iff.1 hnone _ hmem
    exact hparting rfl
  cases h with
  | notYet r hbefore =>
    cases k with
    | notYet s hafter =>
      rw [List.filter_append, hbefore, List.nil_append] at hafter
      simp [hmem hafter]
    | once status revoked hafter =>
      rw [List.filter_append, hbefore, List.nil_append] at hafter
      have htold : .notified (.finished id status) ∈ trace.filter Effect.isParting := by
        simp [hafter]
      simpa using ⟨status, (List.mem_filter.1 htold).1⟩
  | once status revoked hbefore =>
    cases k with
    | notYet s hafter =>
      rw [List.filter_append, hbefore] at hafter
      cases hafter
    | once other again hafter =>
      rw [List.filter_append, hbefore] at hafter
      have hnone : trace.filter Effect.isParting = [] := by
        have hlength := congrArg List.length hafter
        rw [List.length_append] at hlength
        exact List.eq_nil_of_length_eq_zero (by simpa using hlength)
      simp [hmem hnone]

end Parted

variable {ε : Type}

/-- A session whose terminal is granted parts from it and from its owner when it ends. -/
theorem partings_complete {s : Session ε} (hdevice : s.device.isOpen = true)
    (hgranted : s.granted = true) (status : ExitStatus) (a : Answers) :
    (s.complete status a).trace.filter Effect.isParting =
      [.requested .revoke a.revoke.toBool, .notified (.finished s.id status)] := by
  rw [trace_complete, trace_release hdevice hgranted, farewell]
  cases s.options.autoClose <;> rfl

/-- What is so of a session whatever operations have been given up: a program that is running has a
terminal that is granted, and what the session knows of its end is what was first reported, also
while the rest of its output is being collected. -/
structure Resumable (id : SessionId) (c : Course ε) : Prop where
  wellFormed : c.session.phase.WellFormed
  number : c.session.id = id
  held : c.session.isRunning = true → c.session.device.isOpen = true ∧ c.session.granted = true
  exits : c.exits.head? = c.session.learnt?
  waiting : ∀ status deadline, c.waiting = some (.draining status deadline) →
    c.session.learnt? = some status

variable {c : Course ε} {m : Move} {next : Advance ε} {id : SessionId}

namespace Resumable

/-- Nothing has been given up in the beginning. -/
theorem start (id : SessionId) (options : SessionOptions) (e : ε) :
    Resumable id (Course.start (.new id options e)) where
  wellFormed := Phase.wellFormed_idle
  number := rfl
  held := by
    intro h
    cases h
  exits := rfl
  waiting := by
    intro status deadline h
    cases h

/-- A session that has ended has the status that was first reported. -/
theorem head?_exits (hc : Resumable id c) {status : ExitStatus}
    (h : c.session.phase = .terminated status) : c.exits.head? = some status := by
  rw [hc.exits, learnt?_of_terminated h]

end Resumable

variable [Emulation ε]

/-- A running program has a terminal that is granted from its start to its end. -/
theorem Passage.held (h : Passage c m next)
    (hc : c.session.isRunning = true → c.session.device.isOpen = true ∧ c.session.granted = true)
    (hnext : next.session.isRunning = true) :
    next.session.device.isOpen = true ∧ next.session.granted = true := by
  have halike {s : Session ε} (h : c.session.Alike s) (hs : s.isRunning = true) :
      s.device.isOpen = true ∧ s.granted = true := by
    rw [h.device, h.granted]
    exact hc (h.isRunning.symm.trans hs)
  have hcompleted {s : Session ε} {status : ExitStatus} {a : Answers}
      (h : (s.complete status a).session.isRunning = true) : False := by
    simp [isRunning] at h
  cases h with
  | edits _ _ edits _ => exact halike edits.alike hnext
  | output _ before after _ _ _ => exact halike (before.alike.through after.alike) hnext
  | lost _ before => exact halike before.alike hnext
  | closed running | reaped _ running => exact hc (isRunning_of_running running)
  | refused idle | aborted idle => exact absurd (isRunning_of_idle idle) (ne_false_of_eq_true hnext)
  | started _ _ _ success => exact holds_startup success
  | ended | drained => exact (hcompleted hnext).elim

namespace Resumable

/-- Every move leaves something that can be gone on with. -/
theorem step (hc : Resumable id c) (m : Move) : Resumable id (c.step m) where
  wellFormed := Course.wellFormed_step hc.wellFormed m
  number := (c.passage hc.wellFormed m).number.trans hc.number
  held := (c.passage hc.wellFormed m).held hc.held
  exits := Course.head?_exits_step hc.wellFormed hc.exits hc.waiting m
  waiting := (c.passage hc.wellFormed m).awaited hc.waiting

/-- A move parts from the terminal and from the owner exactly when it ends the session. -/
theorem parted (hc : Resumable id c) {since : List Effect} (h : Parted id since c.session.phase)
    (m : Move) : Parted id (since ++ (c.advance m).trace) (c.step m).session.phase := by
  have hpassage := c.passage hc.wellFormed m
  show Parted id (since ++ (c.advance m).trace) (c.advance m).session.phase
  revert hpassage
  generalize c.advance m = next
  intro hpassage
  have hminor {trace : List Effect} (h : ∀ e ∈ trace, e.isMinor = true) :
      ∀ e ∈ trace, e.isParting = false := fun e he ↦ Effect.isParting_of_isMinor (h e he)
  have hidle (idle : c.session.phase = .idle) : False := by
    rw [idle] at h
    cases h
  have hrunning {r s : Running} (running : c.session.phase = .running r) :
      Parted id (since ++ []) (.running s) := by
    rw [running] at h
    cases h with
    | notYet _ hnone =>
      rw [List.append_nil]
      exact .notYet s hnone
  have hcompleted {r s : Running} {status : ExitStatus} (a : Answers)
      (running : c.session.phase = .running r) :
      Parted id (since ++ ({ c.session with phase := .running s }.complete status a).trace)
        ({ c.session with phase := .running s }.complete status a).session.phase := by
    obtain ⟨hdevice, hgranted⟩ := hc.held (isRunning_of_running running)
    rw [phase_complete]
    rw [running] at h
    cases h with
    | notYet _ hnone =>
      refine .once status a.revoke.toBool ?_
      rw [List.filter_append, hnone, List.nil_append, ← hc.number]
      exact partings_complete (s := { c.session with phase := .running s }) hdevice hgranted _ a
  cases hpassage with
  | edits _ _ edits _ => exact h.still edits.alike.phase (hminor edits.isMinor)
  | output _ before after trace _ _ =>
    refine h.still (before.alike.through after.alike).phase ?_
    intro e he
    rw [trace] at he
    rcases before.fed_or_isMinor after e he with rfl | hminor
    · rfl
    · exact Effect.isParting_of_isMinor hminor
  | lost _ before => exact h.still before.alike.phase (hminor before.isMinor)
  | closed running | reaped _ running => exact hrunning running
  | refused idle | aborted idle | started _ idle => exact (hidle idle).elim
  | ended a running | drained a running => exact hcompleted a running

end Resumable

/-- A session can be gone on with throughout its course. -/
theorem resumable_run (id : SessionId) (options : SessionOptions) (e : ε) (moves : List Move) :
    Resumable id ((Course.start (.new id options e)).run moves) :=
  Course.always_run (fun _ m hc ↦ hc.step m) (.start id options e) moves

/-- A session parts once from its terminal and from its owner, in whatever moves it comes to its
end. -/
theorem parted_run (hc : Resumable id c) {since : List Effect} (h : Parted id since c.session.phase)
    (moves : List Move) :
    ∃ more, (c.run moves).trace = c.trace ++ more ∧
      Parted id (since ++ more) (c.run moves).session.phase := by
  induction moves generalizing c since with
  | nil => exact ⟨[], (List.append_nil _).symm, by rwa [List.append_nil]⟩
  | cons m moves ih =>
    obtain ⟨more, htrace, hparted⟩ := ih (hc.step m) (hc.parted h m)
    refine ⟨(c.advance m).trace ++ more, ?_, ?_⟩
    · rw [Course.run_cons, htrace, ← List.append_assoc]
      rfl
    · rw [← List.append_assoc]
      exact hparted

/-- Whether a move begins an operation that drives a session. -/
def Move.drives : Move → Bool
  | .process | .runUntilFinished | .terminate _ | .kill _ => true
  | _ => false

namespace Course

/-- An operation that drives a running session begins by waiting, and leaves the session as it
is. -/
theorem step_of_drives {r : Running} (h : m.drives = true)
    (running : c.session.phase = .running r) :
    ∃ g, (c.step m).session = c.session ∧ (c.step m).waiting = some (.dispatching g) := by
  have hbegun {s : Advance ε} {g : Goal} (hsession : s.session = c.session)
      (hprogress : s.progress = .waiting (.dispatching g)) :
      ∃ g, s.session = c.session ∧ s.progress.wait? = some (.dispatching g) :=
    ⟨g, hsession, congrArg Progress.wait? hprogress⟩
  have hstop (sig : Signal) (grace : Option Nat) (a : Answers) :
      (c.session.stop sig grace a).session = c.session ∧
        (c.session.stop sig grace a).progress = .waiting (.dispatching (.exit grace)) := by
    simp [Session.stop, Session.signal, await, current?_of_running running, running, reaching]
  show ∃ g, (c.advance m).session = _ ∧ (c.advance m).progress.wait? = _
  cases m with
  | process =>
    have hprocess : c.advance .process =
        reaching ⟨c.session, []⟩ (.waiting (.dispatching .step)) := by
      simp only [advance, Move.act, Session.process, await, current?_of_running running]
    rw [hprocess]
    exact hbegun rfl rfl
  | runUntilFinished =>
    have hdrive : c.advance .runUntilFinished =
        reaching ⟨c.session, []⟩ (.waiting (.dispatching .finished)) := by
      simp only [advance, Move.act, Session.runUntilFinished, await, current?_of_running running,
        isRunning_of_running running, if_true]
    rw [hdrive]
    exact hbegun rfl rfl
  | terminate a | kill a => exact hbegun (hstop _ _ a).1 (hstop _ _ a).2
  | _ => cases h

/-- An operation that drives a session learns of the end of its program, with the status that is
known already if there is one, and then collects the rest of the output or ends the session. -/
theorem step_exited {r : Running} {g : Goal} {status : ExitStatus} {a : Answers}
    (running : c.session.phase = .running r) (waiting : c.waiting = some (.dispatching g))
    (hstatus : r.child.reaped.all (· = status) = true) :
    (c.step (.happen (.exited status) a)).session.phase = .terminated status ∨
      ∃ s, (c.step (.happen (.exited status) a)).session.phase = .running s ∧
        (c.step (.happen (.exited status) a)).waiting =
          some (.draining status (a.now + drainTimeout)) := by
  have hreaped : (r.child.learn (some status)).reaped.getD status = status := by
    rw [Passage.getD_reaped_learn]
    cases h : r.child.reaped with
    | none => rfl
    | some known => simpa [h] using hstatus
  have hadvance : c.advance (.happen (.exited status) a) = c.session.reap r status a := by
    simp only [advance, Move.act, waiting, Session.resume, current?_of_running running, enables,
      hstatus, if_true, Session.dispatch]
  show (c.advance _).session.phase = _ ∨
    ∃ s, (c.advance _).session.phase = _ ∧ (c.advance _).progress.wait? = _
  rw [hadvance]
  unfold Session.reap
  dsimp only
  rw [hreaped, setRunning_of_running running]
  split
  · exact .inr ⟨_, rfl, rfl⟩
  · exact .inl (phase_complete _ status a)

/-- The collecting of the rest of the output is over after its deadline. -/
theorem step_drainOver {r : Running} {status : ExitStatus} {deadline : Nat} {a : Answers}
    (running : c.session.phase = .running r)
    (waiting : c.waiting = some (.draining status deadline)) (hnow : deadline ≤ a.now) :
    (c.step (.happen .drainOver a)).session.phase = .terminated status := by
  have hadvance : c.advance (.happen .drainOver a) =
      reaching (c.session.complete status a) (.ended (.done 0)) := by
    simp [advance, Move.act, waiting, Session.resume, current?_of_running running, enables, hnow,
      Session.drain]
  show (c.advance _).session.phase = _
  rw [hadvance]
  exact phase_complete c.session status a

/-- A session that has ended keeps its status. -/
theorem phase_step_of_terminated {status : ExitStatus} (h : c.session.phase = .terminated status)
    (m : Move) : (c.step m).session.phase = .terminated status := by
  have hleads := c.leads (h ▸ Phase.wellFormed_terminated status) m
  rw [h] at hleads
  revert hleads
  generalize (c.step m).session.phase = p
  intro hleads
  cases hleads
  rfl

/-- Any operation that drives a session can bring it to its end, also after another one was given
up, with the status that is known already if there is one. -/
theorem phase_of_drives {r : Running} {status : ExitStatus} {a b : Answers} (h : m.drives = true)
    (running : c.session.phase = .running r) (hstatus : c.session.learnt?.all (· = status) = true)
    (hnow : a.now + drainTimeout ≤ b.now) :
    (c.run [m, .happen (.exited status) a, .happen .drainOver b]).session.phase =
      .terminated status := by
  obtain ⟨g, hsession, hwaiting⟩ := step_of_drives h running
  have hrunning : (c.step m).session.phase = .running r := by rw [hsession, running]
  have hreaped : r.child.reaped.all (· = status) = true := by
    rwa [learnt?_of_running running] at hstatus
  rw [run_cons, run_cons, run_cons, run_nil]
  rcases step_exited (a := a) hrunning hwaiting hreaped with hended | ⟨s, hs, hdraining⟩
  · exact phase_step_of_terminated hended _
  · exact step_drainOver hs hdraining hnow

/-- The blocks of output that are read in some moves, the oldest first, each with whether it is
lost. -/
def readings (c : Course ε) : List Move → List Reading
  | [] => []
  | m :: moves =>
    ((c.block? m).map fun block ↦ ⟨block, c.overflows m⟩).toList ++ (c.step m).readings moves

/-- No block that is read is empty. -/
theorem block_ne_nil {moves : List Move} : ∀ r ∈ c.readings moves, r.block ≠ [] := by
  induction moves generalizing c with
  | nil => simp [readings]
  | cons m moves ih =>
    intro r hr
    rcases List.mem_append.1 hr with hfirst | hrest
    · obtain ⟨block, hblock, rfl⟩ := Option.map_eq_some_iff.1 (Option.mem_toList.1 hfirst)
      obtain ⟨-, -, -, hne, -⟩ := reads_of_block? hblock
      exact hne
    · exact ih r hrest

/-- The emulation is handed what is read in some moves, in order and each block once, except for the
blocks that are lost. -/
theorem received_run (c : Course (Recorded ε)) (hc : c.session.phase.WellFormed)
    (moves : List Move) :
    (c.run moves).session.emulation.received =
      c.session.emulation.received ++ (c.readings moves).flatMap Reading.handed := by
  induction moves generalizing c with
  | nil => exact (List.append_nil _).symm
  | cons m moves ih =>
    have hstep : (c.step m).session.emulation.received = c.session.emulation.received ++
        ((c.block? m).map fun block ↦ ⟨block, c.overflows m⟩).toList.flatMap Reading.handed := by
      refine (c.passage hc m).received.trans ?_
      cases c.block? m with
      | none => simp
      | some block => simp [Reading.handed, overflows]
    rw [run_cons, ih _ (wellFormed_step hc m), hstep, readings, List.flatMap_append,
      List.append_assoc]

end Course

/-- What becomes of a session after its program was running, in whatever moves it is driven on,
given up and driven on again. The emulation is handed the blocks that are read, in order and each
once, except for those that are lost, and a block is lost exactly if output is watched for, the rest
of it is not being collected yet, and the clock cannot show the end of the countdown that is to
start. As long as the session has not ended it has neither asked for its grant to be revoked nor
told its owner of the end. When it has ended it has done both once, with the status that was first
reported of its program, and the owner is told of the end in the move that ends the session and in
no other. Any operation that drives a session can bring it to its end, and there is only the status
that is known already if there is one. -/
theorem teardown_resumed (id : SessionId) (options : SessionOptions) (e : ε)
    (before moves : List Move)
    (hrunning : ((Course.start (.new id options (⟨e, []⟩ : Recorded ε))).run
      before).session.isRunning = true) :
    let begun := (Course.start (.new id options (⟨e, []⟩ : Recorded ε))).run before
    let c := begun.run moves
    (c.session.emulation.received = begun.session.emulation.received ++
      (begun.readings moves).flatMap Reading.handed ∧
    (c.session.emulation.received = begun.session.emulation.received ++
      (begun.readings moves).flatMap (·.block) ↔ ∀ r ∈ begun.readings moves, r.lost = false) ∧
    ∀ block a, c.heard? (.happen (.output block) a) = some (.output block) →
      (c.overflows (.happen (.output block) a) = true ↔
        c.isDraining = false ∧ c.session.monitorsOutput = true ∧
          Clock.after? a.now c.session.options.silenceTimeout = none)) ∧
    (∃ since, c.trace = begun.trace ++ since ∧
      (c.session.isTerminated = false → since.filter Effect.isParting = []) ∧
      (c.session.isTerminated = true →
        ∃ status revoked, c.session.exitStatus? = some status ∧ c.exits.head? = some status ∧
          since.filter Effect.isParting =
            [.requested .revoke revoked, .notified (.finished id status)])) ∧
    (∀ m, (∃ status, .notified (.finished id status) ∈ (c.advance m).trace) ↔
      c.session.isRunning = true ∧ (c.step m).session.isTerminated = true) ∧
    ∀ d status a b, d.drives = true → c.session.isRunning = true →
      c.session.learnt?.all (· = status) = true → a.now + drainTimeout ≤ b.now →
      (c.run [d, .happen (.exited status) a, .happen .drainOver b]).session.phase =
        .terminated status := by
  intro begun c
  have hbegun : Resumable id begun := resumable_run id options _ before
  have hc : Resumable id c := by
    have hrun := resumable_run id options (⟨e, []⟩ : Recorded ε) (before ++ moves)
    rwa [Course.run_append] at hrun
  obtain ⟨r, hr⟩ := (isRunning_iff hbegun.wellFormed).1 hrunning
  have hbegan : Parted id [] begun.session.phase := by
    rw [hr]
    exact .notYet r rfl
  obtain ⟨since, htrace, hparted⟩ := parted_run hbegun hbegan moves
  change Parted id since c.session.phase at hparted
  have hreceived := begun.received_run hbegun.wellFormed moves
  refine ⟨⟨hreceived, ?_, ?_⟩, ⟨since, htrace, ?_, ?_⟩, ?_, ?_⟩
  · rw [hreceived, List.append_cancel_left_eq]
    exact handed_eq_blocks_iff Course.block_ne_nil
  · intro block a hheard
    exact Course.overflows_output_iff hheard
  · intro hgoing
    generalize hphase : c.session.phase = p at hparted
    cases hparted with
    | notYet _ hnone => exact hnone
    | once status => simp [isTerminated, hphase] at hgoing
  · intro hterminated
    obtain ⟨status, hphase⟩ := (isTerminated_iff hc.wellFormed).1 hterminated
    have hstatus : c.session.exitStatus? = some status :=
      (exitStatus?_eq_some_iff hc.wellFormed).2 hphase
    rw [hphase] at hparted
    cases hparted with
    | once _ revoked hboth => exact ⟨status, revoked, hstatus, hc.head?_exits hphase, hboth⟩
  · intro m
    rw [hparted.told_iff (hc.parted hparted m), isRunning_iff hc.wellFormed,
      isTerminated_iff (hc.step m).wellFormed]
  · intro d status a b hd hgoing hstatus hnow
    obtain ⟨s, hs⟩ := (isRunning_iff hc.wellFormed).1 hgoing
    exact Course.phase_of_drives hd hs hstatus hnow

/-- The operation that kills a program is given up in the middle of the rest of its output, and
another one comes to the end. -/
theorem teardown_resumed_killed :
    let before : List Move := [.run "sh" {}]
    let moves : List Move :=
      [.kill {}, .happen (.exited (.signaled 9 false)) {}, .happen (.output [104]) {}, .abandon,
        .process, .happen (.exited (.signaled 9 false)) {}, .happen (.output [105]) {},
        .happen .endOfOutput {}]
    let begun := (Course.start (.new 1 {} (⟨.mk, []⟩ : Recorded Emulation.Discard))).run before
    let c := begun.run moves
    begun.session.isRunning = true ∧ c.session.phase = .terminated (.signaled 9 false) ∧
      c.session.emulation.received = [104, 105] ∧ c.exits.head? = some (.signaled 9 false) ∧
      ∃ since revoked, c.trace = begun.trace ++ since ∧ since.filter Effect.isParting =
        [.requested .revoke revoked, .notified (.finished 1 (.signaled 9 false))] := by
  intro before moves
  have hrunning : ((Course.start (.new 1 {} (⟨.mk, []⟩ : Recorded Emulation.Discard))).run
      before).session.isRunning = true := by decide
  have hphase : (((Course.start (.new 1 {} (⟨.mk, []⟩ : Recorded Emulation.Discard))).run
      before).run moves).session.phase = .terminated (.signaled 9 false) := by decide
  have hreadings : (((Course.start (.new 1 {} (⟨.mk, []⟩ : Recorded Emulation.Discard))).run
      before).readings moves).flatMap Reading.handed = [104, 105] := by decide
  obtain ⟨⟨hreceived, -⟩, ⟨since, htrace, -, hended⟩, -⟩ :=
    teardown_resumed 1 {} Emulation.Discard.mk before moves hrunning
  obtain ⟨status, revoked, hstatus, hexits, hparting⟩ := hended (by rw [isTerminated, hphase]; rfl)
  rw [exitStatus?, hphase] at hstatus
  obtain rfl := Option.some.inj hstatus
  rw [hreadings] at hreceived
  exact ⟨hrunning, hphase, hreceived, hexits, since, revoked, htrace, hparting⟩

end Session

end PtyHost
