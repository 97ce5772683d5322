import PtyHost.Machine.Probe
import PtyHost.Proofs.Session.Conservation
import PtyHost.Proofs.Session.Lifecycle
import PtyHost.Proofs.Session.Service

/-!
# Where the input for a program is

Input comes from the owner of a session and from its emulation. It is queued in pieces and written
in that order, as many bytes at a time as the terminal takes, until the other side of the terminal
turns out to be closed: then what is queued is dropped, and what comes later is queued anew.

Main statements: `Course.queued_advance` says that what a move offers is what it queues, and
`Course.written_run` where the input is at the end of a run in which nothing was dropped.
-/

namespace PtyHost

/-- The input that an event of the emulation asks for. -/
def Emulation.Event.input? : Emulation.Event → Option Bytes
  | .write data => some data
  | _ => none

namespace Session

/-- The input that events of the emulation ask for. -/
def inputs (events : List Emulation.Event) : List Bytes := events.filterMap (·.input?)

/-- The input that a move brings from the owner; there is nothing to queue about an empty piece. -/
def Move.sent : Move → List Bytes
  | .send data => if data = [] then [] else [data]
  | _ => []

/-- What the terminal takes of the oldest piece and what is left make up what was queued. -/
theorem take_append_remaining (count : Nat) (queue : List Bytes) :
    (queue.headD []).take count ++ (remaining count queue).flatten = queue.flatten := by
  cases queue with
  | nil => simp [remaining]
  | cons front rest =>
    rw [List.headD_cons, remaining]
    split
    · next hall => rw [List.take_of_length_le hall, List.flatten_cons]
    · rw [List.flatten_cons, ← List.append_assoc, List.take_append_drop, List.flatten_cons]

variable {ε : Type}

/-- Nothing is queued in an idle session. -/
theorem queue_of_idle {s : Session ε} (h : s.phase = .idle) : s.queue = [] := by
  simp [queue, running?, h]

/-- What is queued in a session that is running is queued for its program. -/
theorem queue_of_current? {s : Session ε} {r : Running} (h : s.current? = some r) :
    s.queue = r.pending := by
  simp [queue, running?_of_current? h]

/-- Changes to the countdown leave the queue as it is. -/
theorem queue_countdown (s : Session ε) (silenceAt : Option Nat) :
    (s.modifyRunning fun r ↦ { r with silenceAt }).queue = s.queue := by
  unfold modifyRunning
  split
  · next r hr =>
    change s.running? = some r at hr
    simp [queue, hr]
  · rfl

/-- Whether what is written and what is left in the queue make up what was in it before and what is
queued in the trace. -/
def Conserves (s : Session ε) (t : Traced ε) : Prop :=
  written t.trace ++ t.session.queue.flatten = s.queue.flatten ++ (queued t.trace).flatten

namespace Conserves

variable {s : Session ε} {t : Traced ε}

/-- No input is lost where a session is served. -/
theorem served (h : Served s t.trace t.session) : Conserves s t := by
  rw [Conserves, h.written, h.queue, List.nil_append, List.flatten_append]

/-- No input is lost where the queue is left alone. -/
theorem aside (hqueue : t.session.queue = s.queue) (hqueued : ∀ e ∈ t.trace, e.queued? = none)
    (hwritten : ∀ e ∈ t.trace, e.written? = none) : Conserves s t := by
  rw [Conserves, queued_eq_nil hqueued, written_eq_nil hwritten, hqueue]
  simp

/-- No input is lost where the queue is left alone and nothing else than the terminal and the
program is dealt with. -/
theorem provided (hqueue : t.session.queue = s.queue) (h : ∀ e ∈ t.trace, e.isProvision = true) :
    Conserves s t :=
  aside hqueue (fun e he ↦ Effect.queued?_of_isProvision (h e he))
    fun e he ↦ Effect.written?_of_isProvision (h e he)

/-- No input is lost where the countdown is started. -/
theorem rearmed (s : Session ε) (now : Nat) : Conserves s (s.rearmed now).toTraced := by
  unfold Session.rearmed
  split
  · next armed harm =>
    obtain ⟨t, -, rfl⟩ := Option.map_eq_some_iff.1 harm
    exact aside (queue_countdown s (some t)) (by simp) (by simp)
  · exact aside rfl (by simp) (by simp)

/-- No input is lost where silence monitoring is turned on or off. -/
theorem setMonitorSilence (s : Session ε) (monitor : Bool) (now : Nat) :
    Conserves s (s.setMonitorSilence monitor now).toTraced := by
  unfold Session.setMonitorSilence
  split
  · exact aside rfl (by simp) (by simp)
  · dsimp only
    split
    · exact rearmed _ now
    · split
      · exact aside rfl (by simp) (by simp)
      · exact aside (queue_countdown _ none) (by simp) (by simp)

/-- No input is lost where the time that counts as silence is changed. -/
theorem setSilenceTimeout (s : Session ε) (span now : Nat) :
    Conserves s (s.setSilenceTimeout span now).toTraced := by
  unfold Session.setSilenceTimeout
  dsimp only
  split
  · exact rearmed _ now
  · exact aside rfl (by simp) (by simp)

/-- No input is lost when the countdown ends. -/
theorem silenceElapsed (s : Session ε) : Conserves s s.silenceElapsed := by
  unfold Session.silenceElapsed
  dsimp only
  split
  · exact aside (queue_countdown _ none) (by simp [notify, Effect.queued?])
      (by simp [notify, Effect.written?])
  · exact aside (queue_countdown _ none) (by simp) (by simp)

/-- No input is lost where a program is started, or not. -/
theorem run {s : Session ε} (hs : s.phase.WellFormed) (program : String) (a : Answers) :
    Conserves s (s.run program a).toTraced := by
  have hattempt := attempt hs program a
  revert hattempt
  generalize s.run program a = o
  intro hattempt
  cases hattempt with
  | refused => exact aside rfl (by simp) (by simp)
  | failed idle provision => exact provided rfl provision
  | aborted idle provision => exact provided rfl provision
  | started idle provision =>
    exact provided (queue_of_idle idle).symm provision

variable [Emulation ε]

/-- No input is lost where output is handed to the emulation. -/
theorem feed (s : Session ε) (block : Bytes) : Conserves s (s.feed block) := by
  obtain ⟨trace, htrace, hserved⟩ := Served.feed s block
  have hconserves : Conserves s ⟨(s.feed block).session, trace⟩ := served hserved
  rw [Conserves, htrace]
  exact hconserves

/-- No input is lost where output is noted. -/
theorem noteOutput (s : Session ε) (block : Bytes) (now : Nat) :
    Conserves s (s.noteOutput block now).toTraced := by
  have hannounce : (∀ e ∈ s.announce.trace, e.queued? = none) ∧
      ∀ e ∈ s.announce.trace, e.written? = none := by
    rw [trace_announce]
    split <;> simp [Effect.queued?, Effect.written?]
  have hnoting := noting s block now
  revert hnoting
  generalize s.noteOutput block now = o
  intro hnoting
  cases hnoting with
  | unwatched => exact feed s block
  | lost => exact aside rfl hannounce.1 hannounce.2
  | @watched t =>
    have hfeed := feed
      ({ s with notified := true }.modifyRunning fun r ↦ { r with silenceAt := some t }) block
    rw [Conserves, queue_countdown] at hfeed
    show written (_ ++ _) ++ _ = _ ++ (queued (_ ++ _)).flatten
    rw [written_append, queued_append, written_eq_nil hannounce.2, queued_eq_nil hannounce.1]
    exact hfeed

end Conserves

/-- Nothing is queued or written when a session ends. -/
theorem trace_complete_aside (s : Session ε) (status : ExitStatus) (a : Answers) :
    queued (s.complete status a).trace = [] ∧ written (s.complete status a).trace = [] := by
  have hrelease := isProvision_release s a
  have hfarewell : queued (s.farewell status) = [] ∧ written (s.farewell status) = [] := by
    unfold farewell
    split <;> exact ⟨rfl, rfl⟩
  rw [trace_complete, queued_append, written_append, hfarewell.1, hfarewell.2,
    queued_eq_nil fun e he ↦ Effect.queued?_of_isProvision (hrelease e he),
    written_eq_nil fun e he ↦ Effect.written?_of_isProvision (hrelease e he)]
  exact ⟨rfl, rfl⟩

/-- A piece of input is queued exactly if a program is running. -/
theorem queued_enqueue {s : Session ε} (hs : s.phase.WellFormed) (data : Bytes) :
    queued (s.enqueue data).trace = if s.isRunning then [data] else [] := by
  rw [← isSome_running? hs, enqueue]
  cases s.running? <;> rfl

/-- Setting a title queues nothing. -/
theorem queued_setUserTitle (s : Session ε) (what : UInt16) (caption : String) :
    queued (s.setUserTitle what caption).trace = [] := by
  refine queued_eq_nil ?_
  intro e he
  rw [trace_setUserTitle s what caption e he]
  rfl

/-- Of the events of an emulation, only those that ask for input queue any. -/
theorem queued_apply {s : Session ε} (hs : s.phase.WellFormed) (event : Emulation.Event) :
    queued (s.apply event).trace = if s.isRunning then inputs [event] else [] := by
  cases event with
  | write data => exact queued_enqueue hs data
  | userTitle what caption =>
    exact (queued_setUserTitle s what caption).trans (ite_self _).symm
  | sizeRequest | bell | lock => exact (ite_self _).symm

/-- What the events of an emulation ask for is queued, if a program is running. -/
theorem queued_applyAll {s : Session ε} (hs : s.phase.WellFormed)
    (events : List Emulation.Event) :
    queued (s.applyAll events).trace = if s.isRunning then inputs events else [] := by
  have hfold : ∀ t : Traced ε, t.session.phase.WellFormed →
      queued (events.foldl (fun t e ↦ t.andThen (·.apply e)) t).trace =
        queued t.trace ++ if t.session.isRunning then inputs events else [] := by
    induction events with
    | nil =>
      intro t _
      rw [show inputs [] = [] from rfl, ite_self, List.append_nil]
      rfl
    | cons event events ih =>
      intro t ht
      have hserved := Served.apply t.session event
      have hinputs : inputs (event :: events) = inputs [event] ++ inputs events :=
        List.filterMap_append (l := [event])
      rw [List.foldl_cons, ih (t.andThen (·.apply event)) (hserved.phase.wellFormed ht), hinputs]
      show queued (t.trace ++ (t.session.apply event).trace) ++
        (if (t.session.apply event).session.isRunning then _ else _) = _
      rw [queued_append, queued_apply ht, hserved.isRunning, List.append_assoc]
      cases t.session.isRunning <;> simp
  exact hfold ⟨s, []⟩ hs

/-- Sending a signal queues nothing. -/
theorem queued_signal (s : Session ε) (sig : Signal) (a : Answers) :
    queued (s.signal sig a).trace = [] := by
  unfold signal
  split <;> rfl

/-- Sending a signal by its number queues nothing. -/
theorem queued_sendSignal (s : Session ε) (number : Int) (a : Answers) :
    queued (s.sendSignal number a).trace = [] := by
  unfold sendSignal
  split
  · exact queued_signal s _ a
  · rfl

/-- Beginning to end the program queues nothing. -/
theorem queued_stop (s : Session ε) (sig : Signal) (grace : Option Nat) (a : Answers) :
    queued (s.stop sig grace a).trace = [] := by
  unfold stop
  split
  · rfl
  · rfl
  · exact queued_signal s sig a

/-- Allowing or forbidding messages queues nothing. -/
theorem queued_setWriteable (s : Session ε) (allowed : Bool) (a : Answers) :
    queued (s.setWriteable allowed a).trace = [] := by
  unfold setWriteable
  split
  · split <;> rfl
  · rfl

/-- Trying to run a program queues nothing. -/
theorem queued_run {s : Session ε} (hs : s.phase.WellFormed) (program : String) (a : Answers) :
    queued (s.run program a).trace = [] := by
  have hattempt := attempt hs program a
  revert hattempt
  generalize s.run program a = o
  intro hattempt
  cases hattempt with
  | refused => rfl
  | failed _ provision | aborted _ provision | started _ provision =>
    exact queued_eq_nil fun e he ↦ Effect.queued?_of_isProvision (provision e he)

/-- What the owner sends is queued if a program is running. -/
theorem queued_send {s : Session ε} (hs : s.phase.WellFormed) (data : Bytes) :
    queued (s.send data).trace = if s.isRunning then (Move.send data).sent else [] := by
  have hcurrent := isSome_current? hs
  unfold send
  split
  · next r hr =>
    have hrunning : s.isRunning = true := isRunning_of_current? hr
    by_cases hdata : data = []
    · simp [hdata, Move.sent, Traced.ending]
    · simp [hdata, Move.sent, Traced.ending, queued_enqueue hs, hrunning]
  · next hnone =>
    rw [hnone] at hcurrent
    rw [← hcurrent]
    rfl

namespace Course

/-- Whether the other side of the terminal turns out to be closed to input in a move. -/
def hangsUp (c : Course ε) (m : Move) : Bool := c.heard? m = some .inputClosed

variable {c : Course ε} {m : Move}

/-- What is heard when the other side turns out to be closed. -/
theorem heard?_of_hangsUp (h : c.hangsUp m = true) : c.heard? m = some .inputClosed :=
  of_decide_eq_true h

/-- The terminal accepts no more bytes at a time than the oldest piece has. -/
theorem front_of_accepted {count : Nat} (h : c.heard? m = some (.accepted count)) :
    ∃ front rest, c.session.queue = front :: rest ∧ count ≤ front.length := by
  obtain ⟨a, r, w, -, current, -, henabled⟩ := heard?_eq_some_iff.1 h
  rw [queue_of_current? current]
  cases w with
  | dispatching g =>
    cases hpending : r.pending with
    | nil => simp [enables, hpending] at henabled
    | cons front rest => exact ⟨front, rest, rfl, by simpa [enables, hpending] using henabled⟩
  | draining => cases henabled

end Course

variable [Emulation ε]

/-- Changing the window size queues nothing. -/
theorem queued_resize (s : Session ε) (size : WindowSize) (a : Answers) :
    queued (s.resize size a).trace = [] := by
  unfold resize
  split
  · split <;> rfl
  · rfl

/-- What an emulation asks for when it gets a block of output is queued. -/
theorem queued_feed {s : Session ε} (hs : s.phase.WellFormed) (block : Bytes) :
    queued (s.feed block).trace =
      if s.isRunning then inputs (Emulation.takeEvents (Emulation.receive s.emulation block)).1
      else [] :=
  queued_applyAll
    (s := { s with emulation := (Emulation.takeEvents (Emulation.receive s.emulation block)).2 })
    hs _

/-- Input is lost in nothing that happens to an operation that waits, but for the closing of the
other side and the end of the session. -/
theorem Happening.conserves {c : Course ε} {a : Answers} {wake : Wake} {t : Traced ε}
    (h : Happening c a wake t) (hopen : wake ≠ .inputClosed)
    (hgoing : t.session.isTerminated = false) : Conserves c.session t := by
  cases h with
  | noted block => exact .noteOutput c.session block a.now
  | collected block => exact .feed c.session block
  | @wrote r current count =>
    show (_ ++ []) ++ (remaining count r.pending).flatten = c.session.queue.flatten ++ []
    rw [List.append_nil, List.append_nil, take_append_remaining, queue_of_current? current]
  | cleared => exact absurd rfl hopen
  | elapsed => exact .silenceElapsed c.session
  | closed current | learnt current =>
    exact .aside (queue_of_current? current).symm (by simp) (by simp)
  | completed s status =>
    simp [isTerminated] at hgoing
  | killed => exact .served (.signal c.session .kill a)
  | failed => exact .served (.refl c.session)

namespace Course

/-- The events that the emulation reports in a move, when scroll lock is toggled and when it is
handed a block of output. -/
def reports (c : Course ε) : Move → List Emulation.Event
  | .setScrollLock locked =>
    (Emulation.takeEvents (Emulation.scrollLock c.session.emulation locked)).1
  | .happen wake a =>
    match c.heard? (.happen wake a) with
    | some (.output block) =>
      if c.overflows (.happen wake a) then []
      else (Emulation.takeEvents (Emulation.receive c.session.emulation block)).1
    | _ => []
  | _ => []

/-- The input that a move offers to a running program. -/
def offers (c : Course ε) (m : Move) : List Bytes :=
  if c.session.isRunning then m.sent ++ inputs (c.reports m) else []

/-- The input that moves offer, one after the other. -/
def offered (c : Course ε) : List Move → List Bytes
  | [] => []
  | m :: moves => c.offers m ++ (c.step m).offered moves

/-- Whether the other side of the terminal does not turn out to be closed in any of some moves. -/
def keepsOpen (c : Course ε) : List Move → Bool
  | [] => true
  | m :: moves => !c.hangsUp m && (c.step m).keepsOpen moves

variable {c : Course ε} {m : Move}

/-- Input that is not dropped, because the other side is closed or the session ends, is written, or
it is still queued. -/
theorem conserves_advance (hc : c.session.phase.WellFormed) (hopen : c.hangsUp m = false)
    (hgoing : (c.step m).session.isTerminated = false) :
    Conserves c.session (c.advance m).toTraced := by
  by_cases hserves : m.serves = true
  · exact .served (served_act hserves c.session c.waiting)
  cases m with
  | run program a => exact .run hc program a
  | setMonitorActivity monitor =>
    refine .aside rfl ?_ ?_
    · intro e he
      cases he
    · intro e he
      cases he
  | setMonitorSilence monitor now => exact .setMonitorSilence c.session monitor now
  | setSilenceTimeout span now => exact .setSilenceTimeout c.session span now
  | happen wake a =>
    cases hheard : c.heard? (.happen wake a) with
    | none =>
      rw [advance_of_silent hheard]
      exact .served (.refl c.session)
    | some heard =>
      obtain rfl := eq_of_heard? hheard
      refine (happening hheard).conserves ?_ hgoing
      rintro rfl
      simp [hangsUp, hheard] at hopen
  | _ => exact absurd rfl hserves

/-- Nothing is offered in a move in which the owner sends nothing and the emulation reports
nothing. -/
theorem offers_eq_nil (hsent : m.sent = []) (hreports : c.reports m = []) : c.offers m = [] := by
  rw [offers, hsent, hreports]
  exact ite_self _

/-- The emulation reports nothing when something else than output is heard. -/
theorem reports_happen_of_ne {wake : Wake} {a : Answers}
    (h : ∀ block, c.heard? (.happen wake a) ≠ some (.output block)) :
    c.reports (.happen wake a) = [] := by
  unfold reports
  dsimp only
  split
  · next block hheard => exact absurd hheard (h block)
  · rfl

/-- What the emulation reports when it is handed a block of output. -/
theorem offers_output {block : Bytes} {a : Answers}
    (h : c.heard? (.happen (.output block) a) = some (.output block)) :
    c.offers (.happen (.output block) a) =
      if c.overflows (.happen (.output block) a) then []
      else inputs (Emulation.takeEvents (Emulation.receive c.session.emulation block)).1 := by
  obtain ⟨r, w, current, -⟩ := advance_of_heard h
  rw [offers, isRunning_of_current? current, if_pos rfl, reports, h]
  dsimp only
  split <;> rfl

/-- What a block of output makes the emulation ask for is queued, unless the block is lost. -/
theorem queued_noteOutput (hc : c.session.phase.WellFormed) {block : Bytes} {a : Answers}
    (h : c.heard? (.happen (.output block) a) = some (.output block))
    (hdraining : c.isDraining = false) :
    queued (c.session.noteOutput block a.now).trace = c.offers (.happen (.output block) a) := by
  obtain ⟨r, w, current, -⟩ := advance_of_heard h
  have hrunning : c.session.isRunning = true := isRunning_of_current? current
  have hannounce : queued c.session.announce.trace = [] := by
    rw [trace_announce]
    split <;> rfl
  have hover := overflows_output_iff h
  rw [offers_output h]
  have hnoting := noting c.session block a.now
  revert hnoting
  generalize c.session.noteOutput block a.now = o
  intro hnoting
  cases hnoting with
  | unwatched hunwatched =>
    rw [if_neg (by simp [hover, hunwatched])]
    show queued (c.session.feed block).trace = _
    rw [queued_feed hc, if_pos hrunning]
  | lost hwatched beyond =>
    rw [if_pos (hover.2 ⟨hdraining, hwatched, beyond⟩)]
    exact hannounce
  | @watched t _ within =>
    have hnoted : { c.session with notified := true }.running? = some r :=
      running?_of_current? current
    have hcounting : { c.session with notified := true }.Alike
      ({ c.session with notified := true }.setRunning { r with silenceAt := some t }) :=
      alike_setRunning hnoted rfl
    rw [if_neg (by simp [hover, within]), modifyRunning_of_running? hnoted]
    show queued (_ ++ (Session.feed _ block).trace) = _
    rw [queued_append, hannounce, queued_feed (hcounting.phase.wellFormed hc)]
    exact if_pos hrunning

/-- What happens to an operation that waits queues what the emulation asks for. -/
theorem queued_happening (hc : c.session.phase.WellFormed) {wake : Wake} {a : Answers}
    {t : Traced ε} (h : Happening c a wake t) (hheard : c.heard? (.happen wake a) = some wake) :
    queued t.trace = c.offers (.happen wake a) := by
  have haside (hqueued : queued t.trace = []) (hdeaf : ∀ block, wake ≠ .output block) :
      queued t.trace = c.offers (.happen wake a) := by
    refine hqueued.trans (offers_eq_nil rfl (reports_happen_of_ne ?_)).symm
    intro block hblock
    exact hdeaf block (eq_of_heard? hblock).symm
  cases h with
  | noted block waiting => exact queued_noteOutput hc hheard (by simp [isDraining, waiting])
  | collected block waiting =>
    obtain ⟨r, w, current, -⟩ := advance_of_heard hheard
    have hwhole : c.overflows (.happen (.output block) a) ≠ true := by
      simp [overflows_output_iff hheard, isDraining, waiting]
    rw [offers_output hheard, if_neg hwhole, queued_feed hc, isRunning_of_current? current,
      if_pos rfl]
  | wrote => exact haside rfl (by simp)
  | cleared | closed | learnt => exact haside rfl (by simp)
  | elapsed =>
    refine haside ?_ (by simp)
    unfold Session.silenceElapsed
    dsimp only
    split <;> rfl
  | completed s status _ last =>
    refine haside (trace_complete_aside _ status a).1 ?_
    rintro block rfl
    simp [Wake.endsDrain] at last
  | killed => exact haside (queued_signal c.session .kill a) (by simp)
  | failed failure =>
    refine haside rfl ?_
    rintro block rfl
    simp at failure

/-- What a move offers is what it queues. -/
theorem queued_advance {c : Course ε} (hc : c.session.phase.WellFormed) (m : Move) :
    queued (c.advance m).trace = c.offers m := by
  have haside (hqueued : queued (c.advance m).trace = []) (hsent : m.sent = [])
      (hreports : c.reports m = []) : queued (c.advance m).trace = c.offers m :=
    hqueued.trans (offers_eq_nil hsent hreports).symm
  cases m with
  | run program a => exact haside (queued_run hc program a) rfl rfl
  | send data =>
    show queued (c.session.send data).trace = _
    rw [queued_send hc, offers, show c.reports (.send data) = [] from rfl]
    exact congrArg (fun pieces ↦ if c.session.isRunning then pieces else [])
      (List.append_nil (Move.send data).sent).symm
  | resize size a => exact haside (queued_resize c.session size a) rfl rfl
  | signal sig a => exact haside (queued_signal c.session sig a) rfl rfl
  | sendSignal number a => exact haside (queued_sendSignal c.session number a) rfl rfl
  | setScrollLock locked =>
    exact queued_applyAll
      (s := { c.session with
        emulation :=
          (Emulation.takeEvents (Emulation.scrollLock c.session.emulation locked)).2 })
      hc _
  | setMonitorActivity monitor => exact haside rfl rfl rfl
  | setMonitorSilence monitor now =>
    exact haside (congrArg queued (trace_setMonitorSilence c.session monitor now)) rfl rfl
  | setSilenceTimeout span now =>
    exact haside (congrArg queued (trace_setSilenceTimeout c.session span now)) rfl rfl
  | setWriteable allowed a => exact haside (queued_setWriteable c.session allowed a) rfl rfl
  | setUserTitle what caption => exact haside (queued_setUserTitle c.session what caption) rfl rfl
  | setKeymap keymap => exact haside rfl rfl rfl
  | process =>
    exact haside rfl rfl rfl
  | runUntilFinished =>
    exact haside rfl rfl rfl
  | terminate a => exact haside (queued_stop c.session _ _ a) rfl rfl
  | kill a => exact haside (queued_stop c.session _ _ a) rfl rfl
  | abandon => exact haside rfl rfl rfl
  | happen wake a =>
    cases hheard : c.heard? (.happen wake a) with
    | none =>
      refine haside ?_ rfl (reports_happen_of_ne (by simp [hheard]))
      rw [advance_of_silent hheard]
      rfl
    | some heard =>
      obtain rfl := eq_of_heard? hheard
      exact queued_happening hc (happening hheard) hheard

/-- A write takes bytes of the oldest piece, as many as the terminal accepts. -/
theorem write_advance {count : Nat} (h : c.heard? m = some (.accepted count)) :
    written (c.advance m).trace = (c.session.queue.headD []).take count ∧
      (c.advance m).session.queue = remaining count c.session.queue := by
  obtain ⟨a, -, -, rfl, -⟩ := heard?_eq_some_iff.1 h
  have hhappening := happening h
  show written (c.advance _).toTraced.trace = _ ∧ (c.advance _).toTraced.session.queue = _
  revert hhappening
  generalize (c.advance (.happen (.accepted count) a)).toTraced = t
  intro hhappening
  cases hhappening with
  | @wrote r current =>
    rw [queue_of_current? current]
    exact ⟨List.append_nil _, rfl⟩
  | completed _ _ _ last => simp [Wake.endsDrain] at last
  | failed failure => simp at failure

/-- When the other side turns out to be closed, what is queued is dropped, and nothing is written or
offered. -/
theorem hangUp_advance (h : c.hangsUp m = true) :
    written (c.advance m).trace = [] ∧ (c.advance m).session.queue = [] := by
  have hheard := heard?_of_hangsUp h
  obtain ⟨a, -, -, rfl, -⟩ := heard?_eq_some_iff.1 hheard
  have hhappening := happening hheard
  show written (c.advance _).toTraced.trace = [] ∧ (c.advance _).toTraced.session.queue = []
  revert hhappening
  generalize (c.advance (.happen .inputClosed a)).toTraced = t
  intro hhappening
  cases hhappening with
  | cleared => exact ⟨rfl, rfl⟩
  | completed _ _ _ last => simp [Wake.endsDrain] at last
  | failed failure => simp at failure

/-- Input that has been offered and that has not been dropped was written or is still queued, in
the order in which it was offered. -/
theorem written_run (hc : c.session.phase.WellFormed) {moves : List Move}
    (hopen : c.keepsOpen moves = true)
    (hgoing : (c.run moves).session.isTerminated = false) :
    written (c.run moves).trace ++ (c.run moves).session.queue.flatten =
      written c.trace ++ c.session.queue.flatten ++ (c.offered moves).flatten := by
  induction moves generalizing c with
  | nil => simp [offered]
  | cons m moves ih =>
    simp only [keepsOpen, Bool.and_eq_true, Bool.not_eq_true'] at hopen
    have hnext : (c.step m).session.isTerminated = false := by
      rw [Bool.eq_false_iff]
      intro hended
      rw [run_cons, isTerminated_run (wellFormed_step hc m) hended] at hgoing
      cases hgoing
    have hstep : written (c.advance m).trace ++ (c.step m).session.queue.flatten =
        c.session.queue.flatten ++ (c.offers m).flatten := by
      rw [← queued_advance hc]
      exact conserves_advance hc hopen.1 hnext
    calc written ((c.step m).run moves).trace ++ ((c.step m).run moves).session.queue.flatten
      _ = written (c.step m).trace ++ (c.step m).session.queue.flatten ++
            ((c.step m).offered moves).flatten := ih (wellFormed_step hc m) hopen.2 hgoing
      _ = written c.trace ++ (written (c.advance m).trace ++ (c.step m).session.queue.flatten) ++
            ((c.step m).offered moves).flatten := by
          rw [show (c.step m).trace = c.trace ++ (c.advance m).trace from rfl, written_append,
            List.append_assoc (written c.trace)]
      _ = written c.trace ++ c.session.queue.flatten ++ (c.offered (m :: moves)).flatten := by
          rw [hstep, offered, List.flatten_append]
          simp only [List.append_assoc]

end Course

/-- Where the input is at any point of a course. As long as the other side of the terminal has not
turned out to be closed, what was written to the running program and what is queued for it make up
what its owner sent and its emulation asked for, in that order. A write takes the first bytes of
that, as many as the terminal accepts, and an empty piece at the front is gone after it. When the
other side turns out to be closed, the queue is empty, and what was written is the beginning of what
had been offered up to then; from there on, what is written and queued is what is offered later. -/
theorem input_in_order (id : SessionId) (options : SessionOptions) (e : ε) (moves : List Move) :
    let start := Course.start (.new id options e)
    let c := start.run moves
    (start.keepsOpen moves = true → c.session.isRunning = true →
      written c.trace ++ c.session.queue.flatten = (start.offered moves).flatten) ∧
    (∀ m count, c.heard? m = some (.accepted count) →
      written (c.step m).trace = written c.trace ++ c.session.queue.flatten.take count ∧
      (c.step m).session.queue.flatten = c.session.queue.flatten.drop count ∧
      ∀ rest, c.session.queue = [] :: rest → (c.step m).session.queue = rest) ∧
    ∀ m, c.hangsUp m = true →
      (c.step m).session.queue = [] ∧ written (c.step m).trace = written c.trace ∧
      (start.keepsOpen moves = true → written c.trace <+: (start.offered moves).flatten) ∧
      ∀ later, (c.step m).keepsOpen later = true →
        ((c.step m).run later).session.isRunning = true →
        written ((c.step m).run later).trace ++ ((c.step m).run later).session.queue.flatten =
          written c.trace ++ ((c.step m).offered later).flatten := by
  intro start c
  have hstart : start.session.phase.WellFormed := Phase.wellFormed_idle
  have hc : c.session.phase.WellFormed := Course.wellFormed_run hstart moves
  have hconserved (hopen : start.keepsOpen moves = true) (hrunning : c.session.isRunning = true) :
      written c.trace ++ c.session.queue.flatten = (start.offered moves).flatten :=
    Course.written_run hstart hopen (isTerminated_of_isRunning hrunning)
  refine ⟨hconserved, ?_, ?_⟩
  · intro m count hheard
    obtain ⟨front, rest, hqueue, hcount⟩ := Course.front_of_accepted hheard
    obtain ⟨hwritten, hnext⟩ := Course.write_advance hheard
    have hsplit := take_append_remaining count c.session.queue
    rw [hqueue, List.headD_cons] at hsplit
    refine ⟨?_, ?_, ?_⟩
    · show written (c.trace ++ (c.advance m).trace) = _
      rw [written_append, hwritten, hqueue, List.headD_cons, List.flatten_cons,
        List.take_append_of_le_length hcount]
    · show (c.advance m).session.queue.flatten = _
      rw [hnext, hqueue, ← hsplit, List.drop_left' (List.length_take_of_le hcount)]
    · intro rest hempty
      show (c.advance m).session.queue = rest
      rw [hnext, hempty]
      simp [remaining]
  · intro m hhangs
    obtain ⟨hwritten, hqueue⟩ := Course.hangUp_advance hhangs
    have hstep : written (c.step m).trace = written c.trace := by
      show written (c.trace ++ (c.advance m).trace) = written c.trace
      rw [written_append, hwritten, List.append_nil]
    refine ⟨hqueue, hstep, ?_, ?_⟩
    · intro hopen
      rw [← hconserved hopen ?_]
      · exact List.prefix_append _ _
      · have hheard := Course.heard?_of_hangsUp hhangs
        obtain ⟨_, _, _, -, current, -⟩ := Course.heard?_eq_some_iff.1 hheard
        exact isRunning_of_current? current
    · intro later hopen hrunning
      have hrun := Course.written_run (Course.wellFormed_step hc m) hopen
        (isTerminated_of_isRunning hrunning)
      rw [hstep, show (c.step m).session.queue = [] from hqueue] at hrun
      simpa using hrun

/-- The owner's input is written in two parts, the emulation asks for an empty piece and another
one, and the program closes its side before the last of it is written. -/
theorem input_in_order_cut_short :
    let e : Machine.Probe Emulation.Discard := ⟨{}, [.write [], .write [0x1B, 0x5B]], []⟩
    let moves : List Move :=
      [.run "sh" {}, .send [104, 105], .setScrollLock true, .terminate {}, .happen (.accepted 1) {},
        .happen (.accepted 1) {}, .happen (.accepted 0) {}, .happen (.accepted 1) {}]
    let hangUp := Move.happen .inputClosed {}
    let start := Course.start (.new 1 {} e)
    let c := start.run moves
    (start.keepsOpen moves = true ∧ c.session.isRunning = true ∧ c.hangsUp hangUp = true) ∧
      written c.trace ++ c.session.queue.flatten = (start.offered moves).flatten ∧
      written c.trace = [104, 105, 0x1B] ∧ (c.step hangUp).session.queue = [] := by
  intro e moves hangUp
  have hopen : (Course.start (.new 1 {} e)).keepsOpen moves = true := by decide
  have hrunning : ((Course.start (.new 1 {} e)).run moves).session.isRunning = true := by decide
  have hhangs : ((Course.start (.new 1 {} e)).run moves).hangsUp hangUp = true := by decide
  obtain ⟨hconserved, -, hafter⟩ := input_in_order 1 {} e moves
  exact ⟨⟨hopen, hrunning, hhangs⟩, hconserved hopen hrunning, by decide, (hafter hangUp hhangs).1⟩

end Session

end PtyHost
