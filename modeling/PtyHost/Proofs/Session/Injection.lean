import PtyHost.Proofs.Emulation.Reports
import PtyHost.Proofs.Session.Queue

/-!
# What a program can put into its own input

The emulation of a session asks for input in the name of the output, which is the program's own. A
session with a title tracker queues nothing in that name but answers to status reports.

Main statement: `output_confined`.
-/

namespace PtyHost

namespace Emulation

/-- What stays so of an emulation in a session, which takes its events whenever there may be
some. -/
structure Lasting {ε : Type} [Emulation ε] (P : ε → Prop) : Prop where
  received (e : ε) (block : Bytes) (h : P e) : P (takeEvents (Emulation.receive e block)).2
  resized (e : ε) (size : WindowSize) (h : P e) : P (Emulation.resized e size)
  toggled (e : ε) (locked : Bool) (h : P e) : P (takeEvents (Emulation.scrollLock e locked)).2

/-- Whether a tracker has handed out all that it has reported and reads no command with a control
character. -/
def TitleTracker.IsClean (t : TitleTracker) : Prop := t.parser.IsClean ∧ t.reported = []

/-- A new tracker is clean. -/
theorem TitleTracker.isClean_new (sink : Sink) : IsClean { sink } := ⟨trivial, rfl⟩

/-- A tracker stays clean. -/
theorem TitleTracker.lasting_isClean : Lasting TitleTracker.IsClean where
  received := by
    intro t block h
    refine ⟨?_, rfl⟩
    show (t.receive block).parser.IsClean
    rw [receive_eq]
    exact (Escape.isClean_run h.1 _).1
  resized := by
    intro t size h
    exact h
  toggled := by
    intro t locked h
    refine ⟨?_, rfl⟩
    show (t.scrollLock locked).parser.IsClean
    unfold TitleTracker.scrollLock
    split
    · exact h.1
    · exact h.1

/-- All that a clean tracker reports of a block of output is tame. -/
theorem TitleTracker.isTame_of_mem_received {t : TitleTracker} (h : t.IsClean) (block : Bytes) :
    ∀ event ∈ (takeEvents (Emulation.receive t block)).1, event.isTame = true := by
  have htaken : (takeEvents (Emulation.receive t block)).1 =
      reports t.parser (Escape.heeded t.parser block) := by
    show (t.receive block).reported.reverse = _
    rw [receive_eq, h.2, List.append_nil, List.reverse_reverse]
    rfl
  rw [htaken]
  exact isTame_of_mem_reports h.1 _

end Emulation

namespace Session

open Emulation

/-- All the input that tame events and locks ask for is answers to status reports. -/
theorem inputs_eq_replicate {events : List Event}
    (h : ∀ event ∈ events, event.isTame = true ∨ event.isLock = true) :
    inputs events = List.replicate (events.count (.write statusAnswer)) statusAnswer := by
  induction events with
  | nil => rfl
  | cons event events ih =>
    rw [List.forall_mem_cons] at h
    have hrest := ih h.2
    have hfirst : inputs (event :: events) = inputs [event] ++ inputs events :=
      List.filterMap_append (l := [event])
    rw [hfirst, hrest]
    cases event with
    | write data =>
      have hdata : data = statusAnswer := by simpa [Event.isTame, Event.isLock] using h.1
      subst hdata
      rw [List.count_cons_self, List.replicate_succ]
      rfl
    | _ =>
      rw [List.count_cons_of_ne (by simp)]
      rfl

section

variable {ε : Type} [Emulation ε] {P : ε → Prop}

/-- What lasts of an emulation lasts through edits. -/
theorem Edits.lasting (hP : Lasting P) {s t : Session ε} {trace : List Effect}
    (h : Edits s trace t) (hs : P s.emulation) : P t.emulation := by
  refine h.keep (P := fun u ↦ P u.emulation) ?_ hs
  intro s trace t edit hs
  cases edit with
  | tell | call | note | enqueue | write | clear => exact hs
  | lock locked =>
    unfold lockOutput modifyRunning
    split <;> exact hs
  | countdown silenceAt =>
    unfold modifyRunning
    split <;> exact hs
  | resized size => exact hP.resized _ size hs
  | toggle locked => exact hP.toggled _ locked hs

/-- What lasts of an emulation lasts through a passage. -/
theorem Passage.lasting (hP : Lasting P) {c : Course ε} {m : Move} {next : Advance ε}
    (h : Passage c m next) (hc : P c.session.emulation) : P next.session.emulation := by
  cases h with
  | edits _ _ edits _ => exact edits.lasting hP hc
  | @output _ block _ _ _ _ before after _ _ _ =>
    exact after.lasting hP (hP.received _ block (before.lasting hP hc))
  | lost _ before => exact before.lasting hP hc
  | closed | refused | aborted | started | reaped => exact hc
  | ended a | drained a =>
    show P (Session.complete _ _ a).session.emulation
    rw [emulation_complete]
    exact hc

/-- What lasts of an emulation lasts throughout a course. -/
theorem Course.lasting_run (hP : Lasting P) {c : Course ε} (hw : c.session.phase.WellFormed)
    (hc : P c.session.emulation) (moves : List Move) : P (c.run moves).session.emulation :=
  Course.always_run_of_wellFormed (P := fun c ↦ P c.session.emulation)
    (fun c m hw hc ↦ (c.passage hw m).lasting hP hc) hw hc moves

/-- What output makes an emulation ask for is put behind what is queued already. -/
theorem Course.queue_output {c : Course ε} {block : Bytes} {a : Answers}
    (h : c.heard? (.happen (.output block) a) = some (.output block)) :
    (c.step (.happen (.output block) a)).session.queue =
      c.session.queue ++ queued (c.advance (.happen (.output block) a)).trace := by
  have hfeed (s : Session ε) :
      (s.feed block).session.queue = s.queue ++ queued (s.feed block).trace := by
    obtain ⟨trace, htrace, hserved⟩ := Served.feed s block
    rw [htrace]
    exact hserved.queue
  have hannounce : queued c.session.announce.trace = [] := by
    rw [trace_announce]
    split <;> rfl
  have hhappening := happening h
  show (c.advance _).toTraced.session.queue = _ ++ queued (c.advance _).toTraced.trace
  revert hhappening
  generalize (c.advance (.happen (.output block) a)).toTraced = t
  intro hhappening
  cases hhappening with
  | noted =>
    have hnoting := noting c.session block a.now
    revert hnoting
    generalize c.session.noteOutput block a.now = o
    intro hnoting
    cases hnoting with
    | unwatched => exact hfeed c.session
    | lost =>
      show c.session.queue = _ ++ queued c.session.announce.trace
      rw [hannounce, List.append_nil]
    | @watched t =>
      show (Session.feed _ block).session.queue = _ ++ queued (_ ++ (Session.feed _ block).trace)
      rw [queued_append, hannounce, List.nil_append, hfeed, queue_countdown]
      rfl
  | collected => exact hfeed c.session
  | completed _ _ _ last => simp [Wake.endsDrain] at last
  | failed failure => simp at failure

end

/-- What a move brings from the owner is sent in it. -/
theorem eq_send_of_mem_sent {m : Move} {piece : Bytes} (h : piece ∈ m.sent) : m = .send piece := by
  cases m with
  | send data =>
    rw [Move.sent] at h
    split at h
    · cases h
    · rw [List.mem_singleton.1 h]
  | _ => cases h

namespace Course

variable {c : Course TitleTracker} {m : Move}

/-- All that a clean tracker reports in a move is tame or a lock, and it is a lock unless output is
heard. -/
theorem isTame_of_mem_reports (h : c.session.emulation.IsClean) {event : Event}
    (hevent : event ∈ c.reports m) :
    event.isLock = true ∨
      event.isTame = true ∧ ∃ block, c.heard? m = some (.output block) := by
  unfold reports at hevent
  split at hevent
  · next locked =>
    have hquiet : Quiet c.session.emulation := quiet_titleTracker_iff.2 h.2
    obtain ⟨held, rfl⟩ := Modest.lock_of_mem locked hquiet event hevent
    exact .inl rfl
  · split at hevent
    · next block hheard =>
      split at hevent
      · cases hevent
      · exact .inr ⟨TitleTracker.isTame_of_mem_received h block event hevent, block, hheard⟩
    · cases hevent
  · cases hevent

/-- A move queues what the owner sends and the answers to the status reports in the output that is
heard. -/
theorem queued_of_isClean (hc : c.session.phase.WellFormed) (h : c.session.emulation.IsClean)
    (m : Move) :
    queued (c.advance m).trace =
      if c.session.isRunning then
        m.sent ++ List.replicate ((c.reports m).count (.write statusAnswer)) statusAnswer
      else [] := by
  rw [queued_advance hc, offers, inputs_eq_replicate]
  intro event hevent
  exact (isTame_of_mem_reports h hevent).symm.imp_left And.left

/-- All that is queued in some moves is what the owner sends and answers to status reports. -/
theorem mem_queued_run (hc : c.session.phase.WellFormed) (h : c.session.emulation.IsClean)
    {moves : List Move} {piece : Bytes} (hpiece : piece ∈ queued (c.run moves).trace) :
    piece ∈ queued c.trace ∨ piece = statusAnswer ∨ .send piece ∈ moves := by
  induction moves generalizing c with
  | nil => exact .inl hpiece
  | cons m moves ih =>
    have hnext : (c.step m).session.emulation.IsClean :=
      (c.passage hc m).lasting TitleTracker.lasting_isClean h
    rcases ih (wellFormed_step hc m) hnext hpiece with hbefore | hanswer | hsent
    · change piece ∈ queued (c.trace ++ (c.advance m).trace) at hbefore
      rw [queued_append, List.mem_append, queued_of_isClean hc h] at hbefore
      rcases hbefore with hbefore | hmove
      · exact .inl hbefore
      · split at hmove
        · rcases List.mem_append.1 hmove with hsent | hanswer
          · exact .inr (.inr (List.mem_cons.2 (.inl (eq_send_of_mem_sent hsent).symm)))
          · exact .inr (.inl (List.eq_of_mem_replicate hanswer))
        · cases hmove
    · exact .inr (.inl hanswer)
    · exact .inr (.inr (List.mem_cons_of_mem m hsent))

end Course

/-- What output can lead to. All that a new title tracker ever reports, whatever its sink, whatever
is done to it and in whatever blocks it gets its output, is what the output reports and the changes
of scroll lock: each change is reported once, and all else is a status report's answer, a title of a
known kind without control characters, a request for a window size, or a bell. In a session with
such a tracker, a move queues what the owner sends in it and the answers to the status reports in
the block of output that is heard in it, if any is; these are put behind what is queued already. So
each piece of input that is ever queued is one that the owner has sent, or an answer to a status
report. -/
theorem output_confined (sink : Sink) :
    (∀ uses : List Use,
      let t : TitleTracker := { sink }
      (t.told uses).filter Event.isLock = toggles false uses ∧
      (t.told uses).filter (!Event.isLock ·) = reports .text (t.heard uses) ∧
      ∀ event ∈ t.told uses, event.isTame = true ∨ event ∈ toggles false uses) ∧
    ∀ (id : SessionId) (options : SessionOptions) (moves : List Move),
      let c := (Course.start (.new id options ({ sink } : TitleTracker))).run moves
      (∀ m, queued (c.advance m).trace =
        if c.session.isRunning then
          m.sent ++ List.replicate ((c.reports m).count (.write statusAnswer)) statusAnswer
        else []) ∧
      (∀ m, .write statusAnswer ∈ c.reports m → ∃ block, c.heard? m = some (.output block)) ∧
      (∀ block a, c.heard? (.happen (.output block) a) = some (.output block) →
        (c.step (.happen (.output block) a)).session.queue = c.session.queue ++
          List.replicate ((c.reports (.happen (.output block) a)).count (.write statusAnswer))
            statusAnswer) ∧
      ∀ piece ∈ queued c.trace, piece = statusAnswer ∨ .send piece ∈ moves := by
  refine ⟨?_, ?_⟩
  · intro uses t
    have hclean : t.parser.IsClean := trivial
    obtain ⟨hlocks, hothers⟩ := TitleTracker.locks_told hclean uses
    refine ⟨hlocks, hothers, ?_⟩
    intro event hevent
    exact (TitleTracker.isTame_of_mem_told hclean hevent).resolve_left (by simp [t])
  · intro id options moves c
    have hnew : ({ sink } : TitleTracker).IsClean := TitleTracker.isClean_new sink
    have hc : c.session.phase.WellFormed := Course.wellFormed_run Phase.wellFormed_idle moves
    have hclean : c.session.emulation.IsClean :=
      Course.lasting_run TitleTracker.lasting_isClean Phase.wellFormed_idle hnew moves
    refine ⟨Course.queued_of_isClean hc hclean, ?_, ?_, ?_⟩
    · intro m hanswer
      exact ((Course.isTame_of_mem_reports hclean hanswer).resolve_left (by simp [Event.isLock])).2
    · intro block a hheard
      have hrunning : c.session.isRunning = true := by
        obtain ⟨r, _, current, -⟩ := Course.advance_of_heard hheard
        exact isRunning_of_current? current
      rw [Course.queue_output hheard, Course.queued_of_isClean hc hclean, if_pos hrunning]
      rfl
    · intro piece hpiece
      exact (Course.mem_queued_run Phase.wellFormed_idle hnew hpiece).resolve_left
        (by simp [Course.start])

end Session

end PtyHost
