import PtyHost.Proofs.Session.Notices
import PtyHost.Proofs.Session.Stopping

/-!
# What the termination of a session comes to

An operation goes on each time that something happens that it waits for, until it has ended. The
termination of a running session ends well exactly with the end of the session; while it waits, and
if it fails, the program is still running.

Main statements: `concludes_through`, and `reports_through` on what the owner is told.
-/

namespace PtyHost.Session

variable {ε : Type}

/-- How a session stands when its termination has come to some point. -/
def Concludes (s : Session ε) : Progress → Prop
  | .waiting (.dispatching (.exit _)) | .waiting (.draining ..) | .ended (.failed _) =>
    s.isRunning = true
  | .waiting (.dispatching _) => False
  | .ended (.done _) => s.isTerminated = true
  | .ended .overflow => True

/-- What is told in two parts. -/
theorem Reports.trans {s t u : Session ε} {first rest : List Effect} (h : Reports s first t)
    (k : Reports t rest u) : Reports s (first ++ rest) u where
  id := k.id.trans h.id
  own := by
    intro n hn
    rw [notices_append] at hn
    rcases List.mem_append.1 hn with hfirst | hrest
    · exact h.own n hfirst
    · exact (k.own n hrest).trans h.id
  finishes := by
    have hfirst := h.finishes
    have hrest := k.finishes
    rw [notices_append, Session.finishes, List.countP_append]
    unfold Session.finishes at hfirst hrest
    omega

/-- Learning of the end of the program goes on with its termination, or ends it. -/
theorem concludes_reap {s : Session ε} (h : s.isRunning = true) (r : Running)
    (status : ExitStatus) (a : Answers) :
    (s.reap r status a).session.Concludes (s.reap r status a).progress := by
  unfold reap
  dsimp only
  split
  · exact h
  · exact isTerminated_complete _ _ a

/-- Asking a running program to end begins its termination. -/
theorem concludes_terminate {s : Session ε} (hs : s.phase.WellFormed) (h : s.isRunning = true)
    (a : Answers) : (s.terminate a).session.Concludes (s.terminate a).progress := by
  obtain ⟨r, hr⟩ := (isRunning_iff hs).1 h
  unfold terminate stop await
  rw [current?_of_running hr, hr]
  show (s.signal s.options.terminateSignal a).session.isRunning = true
  rwa [session_signal]

variable [Emulation ε]

/-- Goes on with an operation when something happens. Nothing happens to one that has ended. -/
def Advance.resume (n : Advance ε) (o : Occurrence) : Advance ε :=
  match n.progress with
  | .waiting w =>
    let next := n.session.resume w o.1 o.2
    { next with trace := n.trace ++ next.trace }
  | .ended _ => n

/-- Goes on with an operation while things happen, one after the other. -/
def Advance.through (n : Advance ε) (os : List Occurrence) : Advance ε := os.foldl resume n

/-- What has happened leaves a phase whose entries go together. -/
theorem Advance.wellFormed_resume {n : Advance ε} (hn : n.session.phase.WellFormed)
    (o : Occurrence) : (n.resume o).session.phase.WellFormed := by
  unfold resume
  split
  · next w _ => exact wellFormed_act hn (.happen o.1 o.2) (some w)
  · exact hn

/-- A dispatch step goes on with the termination of a session, or ends it. -/
theorem concludes_dispatch {s : Session ε} {r : Running} {goal : Option Nat} {o : Occurrence}
    (running : s.phase = .running r)
    (henabled : enables r (.dispatching (.exit goal)) o.1 o.2.now = true) :
    (s.dispatch r (.exit goal) o.1 o.2).session.Concludes
      (s.dispatch r (.exit goal) o.1 o.2).progress := by
  have hrunning : s.isRunning = true := isRunning_of_running running
  cases hterminal : o.1.isTerminalFailure with
  | true =>
    cases hwake : o.1 with
    | readFailed | writeFailed => exact hrunning
    | _ => simp [hwake, Wake.isTerminalFailure] at hterminal
  | false =>
    have hstep := exitStep running henabled hterminal
    revert hstep
    generalize s.dispatch r (.exit goal) o.1 o.2 = next
    generalize o.1 = wake
    intro hstep
    cases hstep with
    | serves hnext _ hprogress =>
      rw [hprogress]
      exact isRunning_of_running hnext
    | escalates =>
      show (s.signal .kill o.2).session.isRunning = true
      rwa [session_signal]
    | learns status => exact concludes_reap hrunning r status o.2
    | overflows hprogress =>
      rw [hprogress]
      trivial
    | fails => exact hrunning

/-- Collecting the rest of the output goes on with the termination of a session, or ends it. -/
theorem concludes_drain {s : Session ε} {r : Running} {status : ExitStatus} {deadline : Nat}
    {o : Occurrence} (running : s.phase = .running r) :
    (s.drain r status deadline o.1 o.2).session.Concludes
      (s.drain r status deadline o.1 o.2).progress := by
  unfold drain
  split
  · next block _ =>
    obtain ⟨_, -, hserved⟩ := Served.feed s block
    exact hserved.isRunning.trans (isRunning_of_running running)
  · exact isTerminated_complete _ status o.2
  · exact isTerminated_complete _ status o.2
  · exact isTerminated_complete _ status o.2
  · exact isRunning_of_running running

/-- Whatever happens, the termination of a session goes on or ends. -/
theorem concludes_resume {n : Advance ε} (hn : n.session.phase.WellFormed)
    (h : n.session.Concludes n.progress) (o : Occurrence) :
    (n.resume o).session.Concludes (n.resume o).progress := by
  unfold Advance.resume
  split
  · next w hprogress =>
    rw [hprogress] at h
    have hrunning : n.session.isRunning = true := by
      unfold Concludes at h
      split at h <;> simp_all
    obtain ⟨r, running⟩ := (isRunning_iff hn).1 hrunning
    dsimp only
    unfold Session.resume
    rw [current?_of_running running]
    dsimp only
    split
    · next henabled =>
      cases w with
      | dispatching g =>
        cases g with
        | exit goal => exact concludes_dispatch running henabled
        | step | finished => cases h
      | draining status deadline => exact concludes_drain running
    · exact h
  · exact h

/-- The termination of a session waits while its program runs, and has ended well exactly with the
end of the session. -/
theorem concludes_through {n : Advance ε} (hn : n.session.phase.WellFormed)
    (h : n.session.Concludes n.progress) (os : List Occurrence) :
    (n.through os).session.Concludes (n.through os).progress := by
  induction os generalizing n with
  | nil => exact h
  | cons o os ih => exact ih (Advance.wellFormed_resume hn o) (concludes_resume hn h o)

/-- What is told since an operation began. -/
theorem reports_through {s : Session ε} {n : Advance ε} (hn : n.session.phase.WellFormed)
    (h : Reports s n.trace n.session) (os : List Occurrence) :
    Reports s (n.through os).trace (n.through os).session := by
  induction os generalizing n with
  | nil => exact h
  | cons o os ih =>
    refine ih (Advance.wellFormed_resume hn o) ?_
    unfold Advance.resume
    split
    · next w _ => exact h.trans (reports_act hn (.happen o.1 o.2) (some w))
    · exact h

end PtyHost.Session
