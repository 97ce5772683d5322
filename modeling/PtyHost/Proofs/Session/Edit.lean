import PtyHost.Proofs.Session.Phases
import PtyHost.Session.Dispatch

/-!
# What operations are made of

All that the operations of a session do short of starting its program, reading its output and ending
it is made of a few edits. Edits leave alone how far the session has come, its terminal and its
number.

Main statements: an `edits_` lemma for each operation, and `Edits.alike`, `Edits.isMinor` and
`Edits.agreed` on what all of them keep.
-/

namespace PtyHost

/-- Whether a notification is the one that the session has finished. -/
def Notification.isFinished : Notification → Bool
  | .finished .. => true
  | _ => false

/-- Whether an effect is a call for the running program that nothing in the session depends on. -/
def Effect.isCall : Effect → Bool
  | .sizedWindow _ | .setMessages _ | .signalled .. => true
  | _ => false

/-- Whether an effect neither takes nor gives back a terminal, and neither starts nor ends a program
nor hands on its output. -/
def Effect.isMinor : Effect → Bool
  | .notified n => !n.isFinished
  | .queued _ | .wrote _ => true
  | e => e.isCall

namespace Session

variable {ε : Type}

/-- Signals leave a session as it is. -/
theorem session_signal (s : Session ε) (sig : Signal) (a : Answers) :
    (s.signal sig a).session = s := by
  unfold signal
  split <;> rfl

/-- Sessions of the same number that have come equally far, with the same terminal. -/
structure Alike (s t : Session ε) : Prop where
  id : t.id = s.id
  device : t.device = s.device
  granted : t.granted = s.granted
  phase : s.phase.Alike t.phase

namespace Alike

variable {s t : Session ε}

/-- Sessions that have come equally far have both a program running or none. -/
theorem isRunning (h : s.Alike t) : t.isRunning = s.isRunning := by
  rw [Session.isRunning, Session.isRunning, h.phase.state]

/-- Sessions that have come equally far have both ended or not. -/
theorem isTerminated (h : s.Alike t) : t.isTerminated = s.isTerminated := by
  rw [Session.isTerminated, Session.isTerminated, h.phase.state]

/-- Sessions that have come equally far have both ended with the same status. -/
theorem exitStatus? (h : s.Alike t) : t.exitStatus? = s.exitStatus? := h.phase.exitStatus?

/-- What has come as far as something that has come equally far has done so itself, whatever its
emulation has become on the way. -/
theorem through {u : Session ε} {e : ε} (h : s.Alike t) (k : { t with emulation := e }.Alike u) :
    s.Alike u where
  id := k.id.trans h.id
  device := k.device.trans h.device
  granted := k.granted.trans h.granted
  phase := h.phase.trans k.phase

end Alike

/-- Another thing in the place of what there is leaves a session alike if it is the same program and
there may be more output of it as before. -/
theorem alike_setRunning {s : Session ε} {r q : Running} (h : s.running? = some r)
    (hcore : q.core = r.core) : s.Alike (s.setRunning q) where
  id := rfl
  device := rfl
  granted := rfl
  phase := ⟨rfl, (congrArg some hcore).trans (congrArg (Option.map Running.core) h).symm, rfl⟩

/-- Changes to what is queued, to the lock and to the countdown leave a session alike. -/
theorem alike_modifyRunning (s : Session ε) {f : Running → Running}
    (hcore : ∀ r, (f r).core = r.core) : s.Alike (s.modifyRunning f) := by
  unfold modifyRunning
  split
  · next r hr => exact alike_setRunning hr (hcore r)
  · exact ⟨rfl, rfl, rfl, .refl _⟩

variable [Emulation ε]

/-- One thing that is done to a session in the course of an operation. -/
inductive Edit : Session ε → List Effect → Session ε → Prop
  | tell (s : Session ε) {n : Notification} (h : n.isFinished = false) (own : n.id = s.id) :
      Edit s [.notified n] s
  | call (s : Session ε) {e : Effect} (h : e.isCall = true) : Edit s [e] s
  | note (s : Session ε) (options : SessionOptions) (size : WindowSize) (titles : Titles)
      (keymap : String) (notified : Bool) :
      Edit s [] { s with options, size, titles, keymap, notified }
  | lock (s : Session ε) (locked : Bool) : Edit s [] (s.lockOutput locked)
  | enqueue {s : Session ε} {r : Running} (h : s.running? = some r) (data : Bytes) :
      Edit s [.queued data] (s.setRunning { r with pending := r.pending ++ [data] })
  | write {s : Session ε} {r : Running} (h : s.running? = some r) (count : Nat) :
      Edit s [.wrote ((r.pending.headD []).take count)]
        (s.setRunning { r with pending := remaining count r.pending })
  | clear {s : Session ε} {r : Running} (h : s.running? = some r) :
      Edit s [] (s.setRunning { r with pending := [] })
  | countdown (s : Session ε) (silenceAt : Option Nat) :
      Edit s [] (s.modifyRunning fun r ↦ { r with silenceAt })
  | resized (s : Session ε) (size : WindowSize) :
      Edit s [] { s with emulation := Emulation.resized s.emulation size }
  | toggle (s : Session ε) (locked : Bool) :
      Edit s []
        { s with
          emulation := (Emulation.takeEvents (Emulation.scrollLock s.emulation locked)).2 }

/-- Edits, one after the other. -/
inductive Edits : Session ε → List Effect → Session ε → Prop
  | nil (s : Session ε) : Edits s [] s
  | cons {s t u : Session ε} {first rest : List Effect} (edit : Edit s first t)
      (more : Edits t rest u) : Edits s (first ++ rest) u

/-- An edit alone. -/
theorem Edit.edits {s t : Session ε} {trace : List Effect} (h : Edit s trace t) :
    Edits s trace t := by
  simpa using Edits.cons h (.nil t)

/-- Edits go on from where others have come to. -/
theorem Edits.trans {s t u : Session ε} {first rest : List Effect} (h : Edits s first t)
    (k : Edits t rest u) : Edits s (first ++ rest) u := by
  induction h with
  | nil => exact k
  | cons edit _ ih =>
    rw [List.append_assoc]
    exact .cons edit (ih k)

/-- Edits go on from an edit without a trace. -/
theorem Edits.after {s t u : Session ε} {trace : List Effect} (h : Edit s [] t)
    (k : Edits t trace u) : Edits s trace u := .cons h k

/-- Telling the owner something other than the end is an edit. -/
theorem edits_notify (s : Session ε) {n : Notification} (h : n.isFinished = false)
    (own : n.id = s.id) : Edits s (s.notify n).trace (s.notify n).session :=
  (Edit.tell s h own).edits

/-- Setting a title is made of edits. -/
theorem edits_setUserTitle (s : Session ε) (what : UInt16) (caption : String) :
    Edits s (s.setUserTitle what caption).trace (s.setUserTitle what caption).session := by
  unfold setUserTitle
  split
  · exact .nil s
  · next titles _ =>
    split
    · exact .nil s
    · exact .after (.note s s.options s.size titles s.keymap s.notified) (edits_notify _ rfl rfl)

/-- Queuing input is an edit, if there is a program to read it. -/
theorem edits_enqueue (s : Session ε) (data : Bytes) :
    Edits s (s.enqueue data).trace (s.enqueue data).session := by
  unfold enqueue
  split
  · next h => exact (Edit.enqueue h data).edits
  · exact .nil s

/-- Acting on an event is made of edits. -/
theorem edits_apply (s : Session ε) (event : Emulation.Event) :
    Edits s (s.apply event).trace (s.apply event).session := by
  cases event with
  | write data => exact edits_enqueue s data
  | userTitle what caption => exact edits_setUserTitle s what caption
  | sizeRequest size => exact edits_notify s rfl rfl
  | bell => exact edits_notify s rfl rfl
  | lock locked => exact (Edit.lock s locked).edits

/-- Acting on events is made of edits. -/
theorem edits_applyAll (s : Session ε) (events : List Emulation.Event) :
    Edits s (s.applyAll events).trace (s.applyAll events).session := by
  have hfold : ∀ t : Traced ε, Edits s t.trace t.session →
      Edits s (events.foldl (fun t e ↦ t.andThen (·.apply e)) t).trace
        (events.foldl (fun t e ↦ t.andThen (·.apply e)) t).session := by
    induction events with
    | nil => exact fun _ h ↦ h
    | cons event events ih => exact fun t h ↦ ih _ (h.trans (edits_apply t.session event))
  exact hfold ⟨s, []⟩ (.nil s)

/-- Announcing output is made of edits. -/
theorem edits_announce (s : Session ε) : Edits s s.announce.trace s.announce.session := by
  have hnoted : Edit s [] { s with notified := true } :=
    .note s s.options s.size s.titles s.keymap true
  unfold announce
  split
  · exact .nil s
  · split
    · exact .after hnoted (edits_notify _ rfl rfl)
    · exact hnoted.edits

/-- Starting the countdown is an edit, if the clock can show its end. -/
theorem edit_armSilence {s t : Session ε} {now : Nat} (h : s.armSilence now = some t) :
    Edit s [] t := by
  obtain ⟨at?, -, rfl⟩ := Option.map_eq_some_iff.1 h
  exact .countdown s (some at?)

/-- The end of the countdown is made of edits. -/
theorem edits_silenceElapsed (s : Session ε) :
    Edits s s.silenceElapsed.trace s.silenceElapsed.session := by
  have hquiet : Edits s []
      ({ s with notified := false }.modifyRunning fun r ↦ { r with silenceAt := none }) :=
    .after (.note s s.options s.size s.titles s.keymap false) (Edit.countdown _ none).edits
  unfold silenceElapsed
  dsimp only
  split
  · refine hquiet.trans (edits_notify _ rfl ?_)
    unfold modifyRunning
    split <;> rfl
  · exact hquiet

/-- Sending input is made of edits. -/
theorem edits_send (s : Session ε) (data : Bytes) :
    Edits s (s.send data).trace (s.send data).session := by
  unfold send
  split
  · by_cases h : data = []
    · simpa [h, Traced.ending] using Edits.nil s
    · simpa [h, Traced.ending] using edits_enqueue s data
  · exact .nil s

/-- Changing the window size is made of edits. -/
theorem edits_resize (s : Session ε) (size : WindowSize) (a : Answers) :
    Edits s (s.resize size a).trace (s.resize size a).session := by
  have hnoted : Edit s [] { s with size } :=
    .note s s.options size s.titles s.keymap s.notified
  unfold resize
  split
  · split
    · exact .after hnoted (.after (.resized _ size) (Edit.call _ rfl).edits)
    · exact hnoted.edits
  · exact .nil s

/-- Sending a signal is an edit, if there is a program to get it. -/
theorem edits_signal (s : Session ε) (sig : Signal) (a : Answers) :
    Edits s (s.signal sig a).trace (s.signal sig a).session := by
  unfold signal
  split
  · exact (Edit.call s rfl).edits
  · exact .nil s

/-- Sending a signal by its number is made of edits. -/
theorem edits_sendSignal (s : Session ε) (number : Int) (a : Answers) :
    Edits s (s.sendSignal number a).trace (s.sendSignal number a).session := by
  unfold sendSignal
  split
  · exact edits_signal s _ a
  · exact .nil s

/-- Toggling scroll lock is made of edits. -/
theorem edits_setScrollLock (s : Session ε) (locked : Bool) :
    Edits s (s.setScrollLock locked).trace (s.setScrollLock locked).session :=
  .after (.toggle s locked) (edits_applyAll _ _)

/-- Starting the countdown again is an edit, if the clock can show its end. -/
theorem edits_rearmed (s : Session ε) (now : Nat) :
    Edits s (s.rearmed now).trace (s.rearmed now).session := by
  unfold rearmed
  split
  · next h => exact (edit_armSilence h).edits
  · exact .nil s

/-- Turning silence monitoring on or off is made of edits. -/
theorem edits_setMonitorSilence (s : Session ε) (monitor : Bool) (now : Nat) :
    Edits s (s.setMonitorSilence monitor now).trace (s.setMonitorSilence monitor now).session := by
  have hnoted : Edit s [] { s with options := { s.options with monitorSilence := monitor } } :=
    .note s _ s.size s.titles s.keymap s.notified
  unfold setMonitorSilence
  split
  · exact .nil s
  · dsimp only
    split
    · exact .after hnoted (edits_rearmed _ now)
    · split
      · exact hnoted.edits
      · exact .after hnoted (Edit.countdown _ none).edits

/-- Changing the time that counts as silence is made of edits. -/
theorem edits_setSilenceTimeout (s : Session ε) (span now : Nat) :
    Edits s (s.setSilenceTimeout span now).trace (s.setSilenceTimeout span now).session := by
  have hnoted : Edit s [] { s with options := { s.options with silenceTimeout := span } } :=
    .note s _ s.size s.titles s.keymap s.notified
  unfold setSilenceTimeout
  dsimp only
  split
  · exact .after hnoted (edits_rearmed _ now)
  · exact hnoted.edits

/-- Allowing or forbidding messages is an edit, if there is a terminal. -/
theorem edits_setWriteable (s : Session ε) (allowed : Bool) (a : Answers) :
    Edits s (s.setWriteable allowed a).trace (s.setWriteable allowed a).session := by
  unfold setWriteable
  split
  · split
    · exact (Edit.call s rfl).edits
    · exact .nil s
  · exact .nil s

/-- An edit leaves the session alike. -/
theorem Edit.alike {s t : Session ε} {trace : List Effect} (h : Edit s trace t) : s.Alike t := by
  have hstill (u : Session ε) (hid : u.id = s.id) (hdevice : u.device = s.device)
      (hgranted : u.granted = s.granted) (hphase : u.phase = s.phase) : s.Alike u :=
    ⟨hid, hdevice, hgranted, hphase ▸ .refl _⟩
  cases h with
  | tell | call => exact hstill _ rfl rfl rfl rfl
  | note options size titles keymap notified => exact hstill _ rfl rfl rfl rfl
  | resized size => exact hstill _ rfl rfl rfl rfl
  | toggle locked => exact hstill _ rfl rfl rfl rfl
  | enqueue hr | write hr | clear hr => exact alike_setRunning hr rfl
  | countdown silenceAt => exact alike_modifyRunning s fun _ ↦ rfl
  | lock locked =>
    obtain ⟨hid, hdevice, hgranted, hphase⟩ :=
      alike_modifyRunning { s with outputLocked := locked } (f := fun r ↦ { r with locked })
        fun _ ↦ rfl
    exact ⟨hid, hdevice, hgranted, hphase⟩

/-- What an edit does is minor. -/
theorem Edit.isMinor {s t : Session ε} {trace : List Effect} (h : Edit s trace t) :
    ∀ e ∈ trace, e.isMinor = true := by
  cases h with
  | tell hn => simp [Effect.isMinor, hn]
  | @call e he =>
    intro x hx
    obtain rfl := List.mem_singleton.1 hx
    cases x <;> simp_all [Effect.isCall, Effect.isMinor]
  | enqueue | write => simp [Effect.isMinor]
  | note | lock | clear | countdown | resized | toggle => simp

/-- What every edit keeps is kept by all of them. -/
theorem Edits.keep {P : Session ε → Prop} (hedit : ∀ s trace t, Edit s trace t → P s → P t)
    {s t : Session ε} {trace : List Effect} (h : Edits s trace t) (hs : P s) : P t := by
  induction h with
  | nil => exact hs
  | cons edit _ ih => exact ih (hedit _ _ _ edit hs)

/-- Edits leave the session alike. -/
theorem Edits.alike {s t : Session ε} {trace : List Effect} (h : Edits s trace t) : s.Alike t := by
  induction h with
  | nil s => exact ⟨rfl, rfl, rfl, .refl _⟩
  | cons edit _ ih =>
    obtain ⟨hid, hdevice, hgranted, hphase⟩ := edit.alike
    exact ⟨ih.id.trans hid, ih.device.trans hdevice, ih.granted.trans hgranted,
      hphase.trans ih.phase⟩

/-- What edits do is minor. -/
theorem Edits.isMinor {s t : Session ε} {trace : List Effect} (h : Edits s trace t) :
    ∀ e ∈ trace, e.isMinor = true := by
  induction h with
  | nil => simp
  | cons edit _ ih =>
    intro e he
    rcases List.mem_append.1 he with hfirst | hrest
    · exact edit.isMinor e hfirst
    · exact ih e hrest

/-- What edits tell the owner comes from the session. -/
theorem Edits.own {s t : Session ε} {trace : List Effect} (h : Edits s trace t) :
    ∀ n, .notified n ∈ trace → n.id = s.id := by
  induction h with
  | nil => simp
  | @cons s t u first rest edit _ ih =>
    intro n hn
    rcases List.mem_append.1 hn with hfirst | hrest
    · cases edit with
      | tell _ own =>
        obtain rfl := Effect.notified.inj (List.mem_singleton.1 hfirst)
        exact own
      | call he =>
        rw [← List.mem_singleton.1 hfirst] at he
        cases he
      | enqueue | write => simp at hfirst
      | note | lock | clear | countdown | resized | toggle => cases hfirst
    · exact (ih n hrest).trans edit.alike.id

/-- All that is done where a block of output is handed on is that, and minor things around it. -/
theorem Edits.fed_or_isMinor {s t u v : Session ε} {first last : List Effect} {block : Bytes}
    (before : Edits s first t) (after : Edits u last v) :
    ∀ e ∈ first ++ .fed block :: last, e = .fed block ∨ e.isMinor = true := by
  intro e he
  rcases List.mem_append.1 he with hfirst | hrest
  · exact .inr (before.isMinor e hfirst)
  · exact (List.mem_cons.1 hrest).imp_right (after.isMinor e)

/-- Whether the lock of the running program is that of the session. -/
def Agreed (s : Session ε) : Prop := ∀ r, s.running? = some r → r.locked = s.outputLocked

omit [Emulation ε] in
/-- Another thing in the place of what there is agrees if its lock is the one that there was. -/
theorem Agreed.setRunning {s : Session ε} (hs : s.Agreed) {r q : Running} (hr : s.running? = some r)
    (hlocked : q.locked = r.locked) : (s.setRunning q).Agreed := by
  intro x hx
  obtain rfl := Option.some.inj hx
  exact hlocked.trans (hs r hr)

/-- Edits keep the lock of the running program that of the session. -/
theorem Edits.agreed {s t : Session ε} {trace : List Effect} (h : Edits s trace t)
    (hs : s.Agreed) : t.Agreed := by
  refine h.keep ?_ hs
  intro s trace t edit hs
  cases edit with
  | tell | call => exact hs
  | note | resized | toggle => exact hs
  | enqueue hr | write hr | clear hr => exact hs.setRunning hr rfl
  | countdown silenceAt =>
    unfold modifyRunning
    split
    · next r hr => exact hs.setRunning hr rfl
    · exact hs
  | lock locked =>
    unfold lockOutput modifyRunning
    split
    · intro x hx
      obtain rfl := Option.some.inj hx
      rfl
    · next hnone =>
      intro r hr
      cases hnone.symm.trans hr

end Session

end PtyHost
