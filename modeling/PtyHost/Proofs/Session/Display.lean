import PtyHost.Proofs.Session.Service

/-!
# What is done about the window

A session gives its terminal a window size, tells its owner of the sizes that its program asks for,
and leaves it to him to grant them. Of all that a session does while its program is running, only a
change that the owner makes gives the terminal another size, and a request is told exactly if the
emulation reports it.

Main statements: `Displays.resize` and `Displays.resume`.
-/

namespace PtyHost

namespace Effect

/-- The window size that an effect gives to the terminal. -/
def sized? : Effect → Option WindowSize
  | .sizedWindow size => some size
  | _ => none

/-- The window size that an effect tells the owner to be asked for. -/
def requested? : Effect → Option WindowSize
  | .notified (.resizeRequested _ size) => some size
  | _ => none

/-- The block of output that an effect hands to the emulation. -/
def fed? : Effect → Option Bytes
  | .fed block => some block
  | _ => none

/-- Whether an effect has nothing to do with the window and with output. -/
def isPlain (e : Effect) : Bool := e.sized?.isNone && e.requested?.isNone && e.fed?.isNone

end Effect

namespace Emulation

/-- The window size that an event asks for. -/
def Event.size? : Event → Option WindowSize
  | .sizeRequest size => some size
  | _ => none

/-- The window sizes that events ask for. -/
def sizeRequests (events : List Event) : List WindowSize := events.filterMap (·.size?)

variable {ε : Type} [Emulation ε]

/-- Hands blocks of output to an emulation and takes its events behind each: the events, and the
emulation behind them. -/
def replay (e : ε) : List Bytes → List Event × ε
  | [] => ([], e)
  | block :: blocks =>
    let next := takeEvents (Emulation.receive e block)
    (next.1 ++ (replay next.2 blocks).1, (replay next.2 blocks).2)

/-- Blocks may be handed over in two parts. -/
theorem replay_append (e : ε) (first rest : List Bytes) :
    replay e (first ++ rest) =
      ((replay e first).1 ++ (replay (replay e first).2 rest).1,
        (replay (replay e first).2 rest).2) := by
  induction first generalizing e with
  | nil => rfl
  | cons block first ih =>
    rw [List.cons_append, replay, ih]
    simp only [replay, List.append_assoc]

end Emulation

namespace Session

open Emulation

/-- The window sizes that are given to the terminal in a trace. -/
def sized (trace : List Effect) : List WindowSize := trace.filterMap Effect.sized?

/-- The window sizes that the owner is told in a trace to be asked for. -/
def requested (trace : List Effect) : List WindowSize := trace.filterMap Effect.requested?

/-- The blocks of output that are handed to the emulation in a trace. -/
def fed (trace : List Effect) : List Bytes := trace.filterMap Effect.fed?

section

variable {first rest trace : List Effect}

@[simp] theorem sized_append : sized (first ++ rest) = sized first ++ sized rest :=
  List.filterMap_append

@[simp] theorem requested_append :
    requested (first ++ rest) = requested first ++ requested rest := List.filterMap_append

@[simp] theorem fed_append : fed (first ++ rest) = fed first ++ fed rest := List.filterMap_append

/-- Nothing is done about the window by effects that have nothing to do with it. -/
theorem plain_trace (h : ∀ e ∈ trace, e.isPlain = true) :
    sized trace = [] ∧ requested trace = [] ∧ fed trace = [] := by
  simp only [Effect.isPlain, Bool.and_eq_true, Option.isNone_iff_eq_none] at h
  refine ⟨?_, ?_, ?_⟩
  · exact List.filterMap_eq_nil_iff.2 fun e he ↦ (h e he).1.1
  · exact List.filterMap_eq_nil_iff.2 fun e he ↦ (h e he).1.2
  · exact List.filterMap_eq_nil_iff.2 fun e he ↦ (h e he).2

end

variable {ε : Type}

/-- A session that has acted on events: the owner was told of the sizes that they ask for. -/
structure Relays (s : Session ε) (events : List Event) (t : Traced ε) : Prop where
  size : t.session.size = s.size
  emulation : t.session.emulation = s.emulation
  sized : sized t.trace = []
  requested : requested t.trace = sizeRequests events
  fed : fed t.trace = []

/-- Acting on an event tells the owner of the size that it asks for. -/
theorem Relays.apply (s : Session ε) (event : Event) : Relays s [event] (s.apply event) := by
  cases event with
  | write data =>
    show Relays s _ (s.enqueue data)
    unfold enqueue
    split <;> exact ⟨rfl, rfl, rfl, rfl, rfl⟩
  | userTitle what caption =>
    show Relays s _ (s.setUserTitle what caption)
    unfold setUserTitle
    split
    · exact ⟨rfl, rfl, rfl, rfl, rfl⟩
    · split <;> exact ⟨rfl, rfl, rfl, rfl, rfl⟩
  | sizeRequest | bell => exact ⟨rfl, rfl, rfl, rfl, rfl⟩
  | lock locked =>
    show Relays s _ ⟨s.lockOutput locked, []⟩
    unfold lockOutput modifyRunning
    split <;> exact ⟨rfl, rfl, rfl, rfl, rfl⟩

/-- Acting on events tells the owner of the sizes that they ask for. -/
theorem Relays.applyAll (s : Session ε) (events : List Event) :
    Relays s events (s.applyAll events) := by
  have hfold : ∀ (done : List Event) (t : Traced ε), Relays s done t →
      Relays s (done ++ events) (events.foldl (fun t e ↦ t.andThen (·.apply e)) t) := by
    induction events with
    | nil =>
      intro done t h
      rw [List.append_nil]
      exact h
    | cons event events ih =>
      intro done t h
      have hnext := Relays.apply t.session event
      rw [List.append_cons]
      refine ih _ _ ⟨hnext.size.trans h.size, hnext.emulation.trans h.emulation, ?_, ?_, ?_⟩
      · show Session.sized (_ ++ _) = _
        rw [sized_append, h.sized, hnext.sized]
        rfl
      · show Session.requested (_ ++ _) = _
        rw [requested_append, h.requested, hnext.requested]
        exact List.filterMap_append.symm
      · show Session.fed (_ ++ _) = _
        rw [fed_append, h.fed, hnext.fed]
        rfl
  exact hfold [] ⟨s, []⟩ ⟨rfl, rfl, rfl, rfl, rfl⟩

variable [Emulation ε]

/-- The window size of a running program is changed, and the terminal, which is open, takes it
unless it reports a failure. -/
theorem resize_of_isOpen {s : Session ε} (hcurrent : s.current?.isSome = true)
    (hopen : s.device.isOpen = true) (size : WindowSize) (a : Answers) :
    s.resize size a =
      match a.setWindowSize with
      | .ok () =>
        { session := { s with size, emulation := Emulation.resized s.emulation size }
          trace := [.sizedWindow size]
          verdict := .done () }
      | .error cause => { session := { s with size }, verdict := .failed (.device cause) } := by
  obtain ⟨r, hr⟩ := Option.isSome_iff_exists.1 hcurrent
  unfold Session.resize
  rw [hr]
  cases hdevice : s.device with
  | closed =>
    rw [hdevice] at hopen
    cases hopen
  | opened slave given => cases a.setWindowSize <;> rfl

/-- A session in which something was done about the window, with the size that was asked for and
whether the terminal took it: the session has that size, the emulation was handed blocks of output
and is told of a size that the terminal took, and the owner is told of the sizes that the emulation
has reported. -/
structure Displays (s : Session ε) (asked : Option WindowSize) (taken : Bool) (t : Traced ε) :
    Prop where
  size : t.session.size = asked.getD s.size
  sized : sized t.trace = if taken then asked.toList else []
  emulation : t.session.emulation =
    (Session.sized t.trace).foldl Emulation.resized (replay s.emulation (fed t.trace)).2
  requested : requested t.trace = sizeRequests (replay s.emulation (fed t.trace)).1

namespace Displays

variable {s u : Session ε} {t : Traced ε} {taken : Bool} {trace : List Effect}

/-- A size that the session or the terminal has is the one that was asked for, or the session had it
before. -/
theorem eq_of_size {asked : Option WindowSize} (h : Displays s asked taken t) {size : WindowSize}
    (hsize : size = t.session.size ∨ size ∈ Session.sized t.trace) :
    asked = some size ∨ size = s.size := by
  rw [h.size, h.sized] at hsize
  cases asked with
  | none =>
    rw [Option.getD_none, Option.toList_none, ite_self] at hsize
    exact .inr (hsize.resolve_right List.not_mem_nil)
  | some other =>
    left
    rcases hsize with rfl | hset
    · rfl
    · split at hset
      · exact congrArg some (List.mem_singleton.1 hset).symm
      · cases hset

/-- Nothing is done about the window. -/
theorem plain (hsize : t.session.size = s.size) (hemulation : t.session.emulation = s.emulation)
    (h : ∀ e ∈ t.trace, e.isPlain = true) : Displays s none taken t := by
  obtain ⟨hsized, hrequested, hfed⟩ := plain_trace h
  refine ⟨hsize, ?_, ?_, ?_⟩
  · rw [hsized]
    exact (ite_self _).symm
  · rw [hsized, hfed]
    exact hemulation
  · rw [hrequested, hfed]
    rfl

/-- Nothing at all is done. -/
theorem refl (s : Session ε) : Displays s none taken ⟨s, []⟩ := plain rfl rfl (by simp)

/-- Nothing is done about the window before something else is done. -/
theorem behind (hsize : u.size = s.size) (hemulation : u.emulation = s.emulation)
    (hplain : ∀ e ∈ trace, e.isPlain = true) (h : Displays u none taken t) :
    Displays s none taken ⟨t.session, trace ++ t.trace⟩ := by
  obtain ⟨hsized, hrequested, hfed⟩ := plain_trace hplain
  refine ⟨h.size.trans hsize, ?_, ?_, ?_⟩
  · rw [sized_append, hsized]
    exact h.sized
  · rw [sized_append, hsized, fed_append, hfed, ← hemulation]
    exact h.emulation
  · rw [requested_append, hrequested, fed_append, hfed, ← hemulation]
    exact h.requested

/-- A block of output is handed to the emulation, and the owner is told what it reports. -/
theorem feed (s : Session ε) (block : Bytes) : Displays s none taken (s.feed block) := by
  have hrelays := Relays.applyAll
    { s with emulation := (Emulation.takeEvents (Emulation.receive s.emulation block)).2 }
    (Emulation.takeEvents (Emulation.receive s.emulation block)).1
  have hsized : Session.sized (s.feed block).trace = [] := hrelays.sized
  have hfed : Session.fed (s.feed block).trace = [block] := congrArg (block :: ·) hrelays.fed
  refine ⟨hrelays.size, ?_, ?_, ?_⟩
  · rw [hsized]
    exact (ite_self _).symm
  · rw [hsized, hfed]
    exact hrelays.emulation
  · rw [hfed, replay, replay, List.append_nil]
    exact hrelays.requested

/-- The owner changes the window size of a running program. -/
theorem resize (hcurrent : s.current?.isSome = true) (hopen : s.device.isOpen = true)
    (size : WindowSize) (a : Answers) :
    Displays s (some size) a.setWindowSize.toBool (s.resize size a).toTraced := by
  rw [resize_of_isOpen hcurrent hopen]
  cases a.setWindowSize <;> exact ⟨rfl, rfl, rfl, rfl⟩

/-- The owner sends input. -/
theorem send (s : Session ε) (data : Bytes) : Displays s none taken (s.send data).toTraced := by
  unfold Session.send
  split
  · split
    · exact refl s
    · unfold Session.enqueue
      split
      · exact plain rfl rfl (List.forall_mem_singleton.2 rfl)
      · exact refl s
  · exact refl s

/-- A signal is sent. -/
theorem signal (s : Session ε) (sig : Signal) (a : Answers) :
    Displays s none taken (s.signal sig a).toTraced := by
  unfold Session.signal
  split
  · exact plain rfl rfl (List.forall_mem_singleton.2 rfl)
  · exact refl s

/-- The program is asked to end. -/
theorem terminate (s : Session ε) (a : Answers) :
    Displays s none taken (s.terminate a).toTraced := by
  unfold Session.terminate Session.stop
  split
  · exact refl s
  · exact refl s
  · exact signal s _ a

/-- Output is noted, and handed to the emulation unless it is lost. -/
theorem noteOutput (s : Session ε) (block : Bytes) (now : Nat) :
    Displays s none taken (s.noteOutput block now).toTraced := by
  have hannounce : ∀ e ∈ s.announce.trace, e.isPlain = true := by
    rw [trace_announce]
    split
    · exact List.forall_mem_singleton.2 rfl
    · simp
  have hnoting := noting s block now
  revert hnoting
  generalize s.noteOutput block now = o
  intro hnoting
  cases hnoting with
  | unwatched => exact feed s block
  | lost => exact plain rfl rfl hannounce
  | watched =>
    refine behind ?_ ?_ hannounce (feed _ block)
    · unfold modifyRunning
      split <;> rfl
    · unfold modifyRunning
      split <;> rfl

/-- The end of a session does nothing about the window. -/
theorem complete (s : Session ε) (status : ExitStatus) (a : Answers) :
    Displays s none taken (s.complete status a) := by
  obtain ⟨titles, hsession⟩ := session_complete s status a
  refine plain (by rw [hsession]) (by rw [hsession]) ?_
  have hrelease : ∀ e ∈ (s.release a).trace, e.isPlain = true := by
    unfold release
    simp only [List.forall_mem_append]
    refine ⟨?_, ?_⟩
    · split
      · exact List.forall_mem_singleton.2 rfl
      · simp
    · split
      · exact List.forall_mem_singleton.2 rfl
      · simp
  have hfarewell : ∀ e ∈ s.farewell status, e.isPlain = true := by
    unfold farewell
    refine List.forall_mem_append.2 ⟨?_, List.forall_mem_singleton.2 rfl⟩
    split
    · simp
    · exact List.forall_mem_singleton.2 rfl
  rw [trace_complete]
  exact List.forall_mem_append.2 ⟨hrelease, hfarewell⟩

/-- The silence countdown comes to its end. -/
theorem silenceElapsed (s : Session ε) : Displays s none taken s.silenceElapsed := by
  have hquiet : ({ s with notified := false }.modifyRunning fun r ↦
      { r with silenceAt := none }).size = s.size ∧
      ({ s with notified := false }.modifyRunning fun r ↦
        { r with silenceAt := none }).emulation = s.emulation := by
    unfold modifyRunning
    split <;> exact ⟨rfl, rfl⟩
  unfold Session.silenceElapsed
  dsimp only
  split
  · exact plain hquiet.1 hquiet.2 (List.forall_mem_singleton.2 rfl)
  · exact plain hquiet.1 hquiet.2 (by simp)

/-- What happens to an operation that waits leaves the window as it is. -/
theorem happening {c : Course ε} {a : Answers} {wake : Wake} {t : Traced ε}
    (h : Happening c a wake t) : Displays c.session none taken t := by
  cases h with
  | noted block => exact noteOutput c.session block a.now
  | collected block => exact feed c.session block
  | wrote => exact plain rfl rfl (List.forall_mem_singleton.2 rfl)
  | cleared | closed | learnt | failed => exact plain rfl rfl (by simp)
  | elapsed => exact silenceElapsed c.session
  | completed s status =>
    have hcomplete : Displays (c.session.setRunning s) none taken _ := complete _ status a
    exact ⟨hcomplete.size, hcomplete.sized, hcomplete.emulation, hcomplete.requested⟩
  | killed => exact signal c.session .kill a

/-- An operation that waits goes on. -/
theorem resume (s : Session ε) (w : Wait) (wake : Wake) (a : Answers) :
    Displays s none taken (s.resume w wake a).toTraced := by
  let c : Course ε := { session := s, waiting := some w }
  show Displays c.session none taken (c.advance (.happen wake a)).toTraced
  cases hheard : c.heard? (.happen wake a) with
  | none =>
    rw [Course.advance_of_silent hheard]
    exact refl s
  | some heard =>
    obtain rfl := Course.eq_of_heard? hheard
    exact happening (Course.happening hheard)

end Displays

end Session

end PtyHost
