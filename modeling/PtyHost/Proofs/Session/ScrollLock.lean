import PtyHost.Proofs.Session.Display
import PtyHost.Proofs.Session.Writes

/-!
# One scroll lock in three places

Whether the output is held is known to the title tracker, which is told by the user, to the session,
which learns it from the tracker's events, and to the running program's record, from which a
dispatch step reads it. Nothing but a toggle changes it: what the tracker reports of output is no
lock, and all that is reported is acted on at once.

Main statement: `scroll_lock_coherent`.
-/

namespace PtyHost.Session

open Emulation

/-- The lock of a session, and that of its tracker. -/
def locks (s : Session TitleTracker) : Bool × Bool := (s.outputLocked, s.emulation.held)

/-- What a move asks scroll lock to be. -/
def Move.toggled? : Move → Option Bool
  | .setScrollLock locked => some locked
  | _ => none

/-- Changing what there is while a program is running leaves both locks as they are. -/
@[simp]
theorem locks_modifyRunning (s : Session TitleTracker) (f : Running → Running) :
    (s.modifyRunning f).locks = s.locks := by
  unfold modifyRunning
  split <;> rfl

/-- Queued input leaves both locks as they are. -/
theorem locks_enqueue (s : Session TitleTracker) (data : Bytes) :
    (s.enqueue data).session.locks = s.locks := by
  unfold enqueue
  split <;> rfl

/-- Completing a session leaves both locks as they are. -/
@[simp]
theorem locks_complete (s : Session TitleTracker) (status : ExitStatus) (a : Answers) :
    (s.complete status a).session.locks = s.locks := by
  obtain ⟨titles, hsession⟩ := session_complete s status a
  rw [hsession]
  rfl

/-- Output leaves both locks as they are: a clean tracker reports nothing of it that is a lock. -/
theorem locks_feed {s : Session TitleTracker} (h : s.emulation.IsClean) (block : Bytes) :
    (s.feed block).session.locks = s.locks := by
  have hheld : (s.emulation.receive block).held = s.emulation.held := by
    rw [TitleTracker.receive_eq]
  rw [(settles_feed_of_isClean h block).session, queueing, locks_modifyRunning]
  exact Prod.ext rfl hheld

/-- Starting the silence countdown over leaves both locks as they are. -/
theorem locks_rearmed (s : Session TitleTracker) (now : Nat) :
    (s.rearmed now).session.locks = s.locks := by
  unfold rearmed armSilence
  cases Clock.after? now s.options.silenceTimeout with
  | none => rfl
  | some t => exact locks_modifyRunning _ _

/-- Beginning to end the program leaves both locks as they are. -/
theorem locks_stop (s : Session TitleTracker) (sig : Signal) (grace : Option Nat) (a : Answers) :
    (s.stop sig grace a).session.locks = s.locks := by
  unfold stop
  split
  · rfl
  · rfl
  · exact congrArg locks (session_signal s sig a)

/-- Taking note of output leaves both locks as they are. -/
theorem locks_noteOutput {s : Session TitleTracker} (h : s.emulation.IsClean) (block : Bytes)
    (now : Nat) : (s.noteOutput block now).session.locks = s.locks := by
  have hnoting := noting s block now
  revert hnoting
  generalize s.noteOutput block now = o
  intro hnoting
  cases hnoting with
  | unwatched => exact locks_feed h block
  | lost => rfl
  | @watched t =>
    have hclean : (Session.modifyRunning { s with notified := true }
        fun r ↦ { r with silenceAt := some t }).emulation.IsClean := by
      unfold modifyRunning
      split <;> exact h
    exact (locks_feed hclean block).trans (locks_modifyRunning _ _)

/-- What happens to the operation that waits leaves both locks as they are. -/
theorem Happening.locks {c : Course TitleTracker} {a : Answers} {wake : Wake}
    {t : Traced TitleTracker} (h : Happening c a wake t) (hclean : c.session.emulation.IsClean) :
    t.session.locks = c.session.locks := by
  cases h with
  | noted block => exact locks_noteOutput hclean block a.now
  | collected block => exact locks_feed hclean block
  | elapsed =>
    unfold silenceElapsed
    dsimp only
    split
    · exact locks_modifyRunning _ _
    · exact locks_modifyRunning _ _
  | completed s status => exact locks_complete _ status a
  | killed => exact congrArg Session.locks (session_signal _ _ a)
  | wrote | cleared | closed | learnt | failed => rfl

/-- A toggle is known to a session at once, if it agreed with its tracker before. -/
theorem locks_setScrollLock {s : Session TitleTracker} (hreported : s.emulation.reported = [])
    (hsame : s.outputLocked = s.emulation.held) (locked : Bool) :
    (s.setScrollLock locked).session.locks = (locked, locked) := by
  show (Session.applyAll
    { s with emulation := { s.emulation.scrollLock locked with reported := [] } }
    (s.emulation.scrollLock locked).reported.reverse).session.locks = _
  unfold TitleTracker.scrollLock
  split
  · next hheld =>
    rw [hreported]
    exact Prod.ext (hsame.trans hheld) hheld
  · rw [hreported]
    show ((Session.lockOutput _ locked)).locks = _
    rw [lockOutput, locks_modifyRunning]
    rfl

/-- A move that does not toggle scroll lock leaves both locks as they are. -/
theorem Course.locks_advance {c : Course TitleTracker} (hc : c.session.phase.WellFormed)
    (hclean : c.session.emulation.IsClean) {m : Move} (h : m.toggled? = none) :
    (c.advance m).session.locks = c.session.locks := by
  cases m with
  | setScrollLock => cases h
  | run program a =>
    have hattempt := attempt hc program a
    show (c.session.run program a).session.locks = _
    revert hattempt
    generalize c.session.run program a = o
    intro hattempt
    cases hattempt <;> rfl
  | send data =>
    show (c.session.send data).session.locks = _
    unfold send
    split
    · split
      · rfl
      · exact locks_enqueue c.session data
    · rfl
  | resize size a =>
    show (c.session.resize size a).session.locks = _
    unfold resize
    split
    · split <;> rfl
    · rfl
  | signal sig a =>
    show (c.session.signal sig a).session.locks = _
    rw [session_signal]
  | sendSignal number a =>
    show (c.session.sendSignal number a).session.locks = _
    unfold sendSignal
    split
    · rw [session_signal]
    · rfl
  | setMonitorActivity | setKeymap | process | runUntilFinished | abandon => rfl
  | setMonitorSilence monitor now =>
    show (c.session.setMonitorSilence monitor now).session.locks = _
    unfold setMonitorSilence
    split
    · rfl
    · dsimp only
      split
      · exact locks_rearmed _ now
      · split
        · rfl
        · exact locks_modifyRunning _ _
  | setSilenceTimeout span now =>
    show (c.session.setSilenceTimeout span now).session.locks = _
    unfold setSilenceTimeout
    dsimp only
    split
    · exact locks_rearmed _ now
    · rfl
  | setWriteable allowed a =>
    show (c.session.setWriteable allowed a).session.locks = _
    unfold setWriteable
    split
    · split <;> rfl
    · rfl
  | setUserTitle what caption =>
    show (c.session.setUserTitle what caption).session.locks = _
    rw [session_setUserTitle]
    rfl
  | terminate a => exact locks_stop _ _ _ a
  | kill a => exact locks_stop _ _ _ a
  | happen wake a =>
    cases hheard : c.heard? (.happen wake a) with
    | none =>
      show (c.advance (.happen wake a)).toTraced.session.locks = _
      rw [advance_of_silent hheard]
    | some heard =>
      obtain rfl := eq_of_heard? hheard
      exact (happening hheard).locks hclean

/-- Whether one scroll lock is in all three places, and the tracker has nothing more to say. -/
structure Coherent (s : Session TitleTracker) : Prop where
  wellFormed : s.phase.WellFormed
  clean : s.emulation.IsClean
  held : s.outputLocked = s.emulation.held
  agreed : s.Agreed

/-- A move sets scroll lock to what it asks for, in all three places. -/
theorem Coherent.step {c : Course TitleTracker} (h : c.session.Coherent) (m : Move) :
    (c.step m).session.Coherent ∧
      (c.step m).session.emulation.held = m.toggled?.getD c.session.emulation.held := by
  have hwellFormed := Course.wellFormed_step h.wellFormed m
  have hclean := (c.passage h.wellFormed m).lasting TitleTracker.lasting_isClean h.clean
  have hagreed := (c.passage h.wellFormed m).agreed h.agreed
  have hlocks : (c.advance m).session.locks =
      (m.toggled?.getD c.session.emulation.held, m.toggled?.getD c.session.emulation.held) := by
    cases htoggled : m.toggled? with
    | none =>
      rw [Course.locks_advance h.wellFormed h.clean htoggled]
      exact Prod.ext h.held rfl
    | some locked =>
      obtain rfl : m = .setScrollLock locked := by
        cases m <;> simp_all [Move.toggled?]
      exact locks_setScrollLock h.clean.2 h.held locked
  obtain ⟨hlocked, hheld⟩ := Prod.ext_iff.1 hlocks
  exact ⟨⟨hwellFormed, hclean, hlocked.trans hheld.symm, hagreed⟩, hheld⟩

/-- Scroll lock is what the last toggle has made it, throughout a course. -/
theorem Coherent.run {c : Course TitleTracker} (h : c.session.Coherent) (moves : List Move) :
    (c.run moves).session.Coherent ∧
      (c.run moves).session.emulation.held =
        (moves.filterMap Move.toggled?).getLast?.getD c.session.emulation.held := by
  induction moves generalizing c with
  | nil => exact ⟨h, rfl⟩
  | cons m moves ih =>
    obtain ⟨hstep, hheld⟩ := h.step m
    obtain ⟨hrun, hlast⟩ := ih hstep
    refine ⟨hrun, hlast.trans ?_⟩
    rw [hheld]
    cases htoggled : m.toggled? with
    | none => simp [htoggled]
    | some locked =>
      simp [htoggled, List.getLast?_cons]

/-- Whatever is done to a session with a new title tracker, and whatever happens to it, after each
move there is one scroll lock: that of the session, that of its tracker, and, while a program is
running, that of its record are the same, namely what the last toggle has asked for, and the tracker
has no event that was not acted on. -/
theorem scroll_lock_coherent (id : SessionId) (options : SessionOptions) (sink : Sink)
    (moves : List Move) :
    let s := ((Course.start (.new id options ({ sink } : TitleTracker))).run moves).session
    s.outputLocked = s.emulation.held ∧
    (∀ r, s.running? = some r → r.locked = s.emulation.held) ∧
    (Emulation.takeEvents s.emulation).1 = [] ∧
    s.emulation.held = (moves.filterMap Move.toggled?).getLast?.getD false := by
  intro s
  have hstart : Coherent (.new id options ({ sink } : TitleTracker)) :=
    ⟨Phase.wellFormed_idle, TitleTracker.isClean_new sink, rfl, fun r hr ↦ by cases hr⟩
  obtain ⟨hrun, hlast⟩ := Coherent.run (c := .start _) hstart moves
  refine ⟨hrun.held, ?_, quiet_titleTracker_iff.2 hrun.clean.2, hlast⟩
  intro r hr
  exact (hrun.agreed r hr).trans hrun.held

end PtyHost.Session
