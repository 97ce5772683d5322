import Mathlib.Data.List.Induction
import PtyHost.Proofs.Session.Injection
import PtyHost.Proofs.Session.Notices

/-!
# Titles as they were last written

A session has four titles, and the number of a kind addresses one or two of them. Whoever writes
one, the owner or the program in its output, and however often: each title is the caption that was
last written to it, and the owner is told of a write exactly if it has changed a title.

Main statements: `Titles.get_writeAll`, and `Session.settles_feed` on what a block of output does to
a session.
-/

namespace PtyHost

/-- The writing of a title of some kind. -/
structure Write where
  what : UInt16
  caption : String
deriving DecidableEq, Repr

namespace Titles

/-- One of the four titles. -/
inductive Part
  | title
  | userTitle
  | iconText
  | iconName
deriving DecidableEq, Repr

/-- The four titles. -/
def Part.all : List Part := [.title, .userTitle, .iconText, .iconName]

/-- Whether a kind of title addresses one of the four: 0 the user title and the text of the icon, 1
the text of the icon, 2 the user title, 30 the title and 32 the name of the icon. -/
def Part.isAddressed (what : UInt16) : Part → Bool
  | .title => what = 30
  | .userTitle => what = 0 ∨ what = 2
  | .iconText => what = 0 ∨ what = 1
  | .iconName => what = 32

/-- One of the four titles. -/
def get (t : Titles) : Part → String
  | .title => t.title
  | .userTitle => t.userTitle
  | .iconText => t.iconText
  | .iconName => t.iconName

/-- The caption that was last written to a title, or what the title was before. -/
def current (t : Titles) (ws : List Write) (p : Part) : String :=
  ((ws.filter fun w ↦ p.isAddressed w.what).getLast?.map (·.caption)).getD (t.get p)

/-- Whether a write, after some others, changes a title that it addresses. -/
def isChanged (t : Titles) (before : List Write) (w : Write) : Bool :=
  Part.all.any fun p ↦ p.isAddressed w.what && t.current before p ≠ w.caption

/-- The titles after a write. -/
def write (t : Titles) (w : Write) : Titles := (t.put? w.what w.caption).getD t

/-- The titles after some writes. -/
def writeAll (t : Titles) (ws : List Write) : Titles := ws.foldl write t

variable {t u : Titles} {p : Part}

/-- Titles are the same if each of the four is. -/
theorem eq_of_get (h : ∀ p, t.get p = u.get p) : t = u := by
  obtain ⟨_, _, _, _⟩ := t
  obtain ⟨_, _, _, _⟩ := u
  exact Titles.mk.injEq .. ▸ ⟨h .title, h .userTitle, h .iconText, h .iconName⟩

/-- There are no more than four titles. -/
theorem Part.mem_all (p : Part) : p ∈ Part.all := by cases p <;> decide

/-- A write changes the titles that it addresses, and no others. -/
theorem get_write (t : Titles) (w : Write) (p : Part) :
    (t.write w).get p = if p.isAddressed w.what then w.caption else t.get p := by
  obtain ⟨what, caption⟩ := w
  unfold write put?
  by_cases h0 : what = 0
  · subst h0
    cases p <;> rfl
  by_cases h1 : what = 1
  · subst h1
    cases p <;> rfl
  by_cases h2 : what = 2
  · subst h2
    cases p <;> rfl
  by_cases h30 : what = 30
  · subst h30
    cases p <;> rfl
  by_cases h32 : what = 32
  · subst h32
    cases p <;> rfl
  cases p <;> simp [Part.isAddressed, h0, h1, h2, h30, h32]

/-- The last of some more writes counts if it addresses a title. -/
theorem current_append (t : Titles) (ws : List Write) (w : Write) (p : Part) :
    t.current (ws ++ [w]) p = if p.isAddressed w.what then w.caption else t.current ws p := by
  unfold current
  rw [List.filter_append]
  by_cases h : p.isAddressed w.what = true
  · simp [h]
  · simp [h]

/-- The titles after some more writes. -/
theorem writeAll_append (t : Titles) (ws more : List Write) :
    t.writeAll (ws ++ more) = (t.writeAll ws).writeAll more := List.foldl_append

/-- Each title is the caption that was last written to it. -/
theorem get_writeAll (t : Titles) (ws : List Write) (p : Part) :
    (t.writeAll ws).get p = t.current ws p := by
  induction ws using List.reverseRecOn with
  | nil => rfl
  | append_singleton ws w ih =>
    rw [writeAll_append, current_append, ← ih]
    exact get_write _ w p

/-- Writes that come behind others. -/
theorem isChanged_writeAll (t : Titles) (first rest : List Write) (w : Write) :
    (t.writeAll first).isChanged rest w = t.isChanged (first ++ rest) w := by
  have hcurrent (p : Part) : (t.writeAll first).current rest p = t.current (first ++ rest) p := by
    rw [← get_writeAll, ← get_writeAll, writeAll_append]
  simp only [isChanged, hcurrent]

/-- A write leaves all titles as they are exactly if it changes none that it addresses. -/
theorem write_eq_iff {before : List Write} {w : Write} :
    (t.writeAll before).write w = t.writeAll before ↔ t.isChanged before w = false := by
  have hsame (p : Part) : ((t.writeAll before).write w).get p = (t.writeAll before).get p ↔
      (p.isAddressed w.what = true → t.current before p = w.caption) := by
    rw [get_write, get_writeAll]
    split
    · next h => exact ⟨fun heq _ ↦ heq.symm, fun heq ↦ (heq h).symm⟩
    · next h => exact iff_of_true rfl fun haddressed ↦ absurd haddressed h
  simp only [isChanged, List.any_eq_false, Bool.and_eq_true, decide_eq_true_eq, not_and, not_not]
  constructor
  · intro heq p _
    exact (hsame p).1 (congrArg (·.get p) heq)
  · intro h
    exact eq_of_get fun p ↦ (hsame p).2 (h p p.mem_all)

end Titles

/-- What is written by an event of an emulation. -/
def Emulation.Event.write? : Emulation.Event → Option Write
  | .userTitle what caption => some ⟨what, caption⟩
  | _ => none

/-- Whether a notification is that a title has changed. -/
def Notification.isRetitling : Notification → Bool
  | .titleChanged _ => true
  | _ => false

namespace Session

open Emulation

/-- What events write, one after the other. -/
def writes (events : List Event) : List Write := events.filterMap (·.write?)

/-- What is told of titles in a trace. -/
def retitlings (trace : List Effect) : List Notification :=
  (notices trace).filter (·.isRetitling)

/-- What is told of some writes that come behind others: each that changes a title is told of once.
-/
def retold (id : SessionId) (t : Titles) (before : List Write) : List Write → List Notification
  | [] => []
  | w :: ws =>
    (if t.isChanged before w then [.titleChanged id] else []) ++ retold id t (before ++ [w]) ws

/-- What is told of some more writes. -/
theorem retold_append (id : SessionId) (t : Titles) (before ws more : List Write) :
    retold id t before (ws ++ more) = retold id t before ws ++ retold id t (before ++ ws) more := by
  induction ws generalizing before with
  | nil => simp [retold]
  | cons w ws ih => simp [retold, ih]

/-- What is told of writes that come behind others. -/
theorem retold_writeAll (id : SessionId) (t : Titles) (first before ws : List Write) :
    retold id (t.writeAll first) before ws = retold id t (first ++ before) ws := by
  induction ws generalizing before with
  | nil => rfl
  | cons w ws ih => rw [retold, retold, Titles.isChanged_writeAll, ih, List.append_assoc]

@[simp] theorem retitlings_append (first rest : List Effect) :
    retitlings (first ++ rest) = retitlings first ++ retitlings rest := by
  simp [retitlings]

variable {ε : Type}

/-- A session with more input queued for its program, if one is running. -/
def queueing (s : Session ε) (pieces : List Bytes) : Session ε :=
  s.modifyRunning fun r ↦ { r with pending := r.pending ++ pieces }

/-- Input is queued behind what is queued already. -/
theorem queueing_of_running? {s : Session ε} {r : Running} (h : s.running? = some r)
    (pieces : List Bytes) :
    s.queueing pieces = s.setRunning { r with pending := r.pending ++ pieces } :=
  modifyRunning_of_running? h _

/-- Without a program nothing is queued. -/
theorem queueing_of_none {s : Session ε} (h : s.running? = none) (pieces : List Bytes) :
    s.queueing pieces = s := modifyRunning_of_none h _

/-- A session in which nothing more is queued. -/
theorem queueing_nil (s : Session ε) : s.queueing [] = s := by
  cases h : s.running? with
  | none => exact queueing_of_none h []
  | some r =>
    rw [queueing_of_running? h, List.append_nil]
    exact setRunning_self h

/-- Input is queued in two parts. -/
theorem queueing_queueing (s : Session ε) (first rest : List Bytes) :
    (s.queueing first).queueing rest = s.queueing (first ++ rest) := by
  cases h : s.running? with
  | none => rw [queueing_of_none h, queueing_of_none h, queueing_of_none h]
  | some r =>
    rw [queueing_of_running? h, queueing_of_running? h,
      queueing_of_running? (running?_setRunning s _), List.append_assoc]
    rfl

/-- Input is queued whatever the titles and the emulation are. -/
theorem queueing_with (s : Session ε) (pieces : List Bytes) (titles : Titles) (emulation : ε) :
    { s.queueing pieces with titles, emulation } =
      ({ s with titles, emulation } : Session ε).queueing pieces := by
  cases h : s.running? with
  | none =>
    rw [queueing_of_none h]
    exact (queueing_of_none (s := { s with titles, emulation }) h pieces).symm
  | some r =>
    rw [queueing_of_running? h]
    exact (queueing_of_running? (s := { s with titles, emulation }) h pieces).symm

/-- A session that was told of events, in order, and has an emulation that goes on from there: the
events have written its titles, the owner was told of each write that has changed one, input was
queued for the program, and nothing else is different. -/
structure Settles (s : Session ε) (told : List Event × ε) (t : Traced ε) : Prop where
  session : t.session =
    ({ s with titles := s.titles.writeAll (writes told.1), emulation := told.2 } :
      Session ε).queueing (inputs told.1)
  told : retitlings t.trace = retold s.id s.titles [] (writes told.1)

namespace Settles

variable {s : Session ε} {t u : Traced ε} {first rest : List Event × ε}

/-- The session keeps its number. -/
theorem id (h : Settles s first t) : t.session.id = s.id := by
  rw [h.session]
  unfold queueing modifyRunning
  split <;> rfl

/-- The events have written the titles. -/
theorem titles (h : Settles s first t) : t.session.titles = s.titles.writeAll (writes first.1) := by
  rw [h.session]
  unfold queueing modifyRunning
  split <;> rfl

/-- The emulation is the one that goes on. -/
theorem emulation (h : Settles s first t) : t.session.emulation = first.2 := by
  rw [h.session]
  unfold queueing modifyRunning
  split <;> rfl

/-- Events are told of in two parts. -/
theorem trans (h : Settles s first t) (k : Settles t.session rest u) :
    Settles s (first.1 ++ rest.1, rest.2) ⟨u.session, t.trace ++ u.trace⟩ where
  session := by
    have hwrites : writes (first.1 ++ rest.1) = writes first.1 ++ writes rest.1 :=
      List.filterMap_append
    have hinputs : inputs (first.1 ++ rest.1) = inputs first.1 ++ inputs rest.1 :=
      List.filterMap_append
    have hsession := k.session
    rw [h.titles, h.session, queueing_with, queueing_queueing, ← hinputs,
      ← Titles.writeAll_append, ← hwrites] at hsession
    exact hsession
  told := by
    have hwrites : writes (first.1 ++ rest.1) = writes first.1 ++ writes rest.1 :=
      List.filterMap_append
    show retitlings (t.trace ++ u.trace) = _
    rw [retitlings_append, h.told, k.told, h.id, h.titles, retold_writeAll, hwrites, retold_append,
      List.append_nil]
    rfl

end Settles

/-- A session that nothing is told of. -/
theorem settles_nil (s : Session ε) : Settles s ([], s.emulation) ⟨s, []⟩ :=
  ⟨(queueing_nil s).symm, rfl⟩

/-- A title that is set is told of if it changes anything. -/
theorem settles_setUserTitle (s : Session ε) (what : UInt16) (caption : String) :
    Settles s ([.userTitle what caption], s.emulation) (s.setUserTitle what caption) where
  session := by
    rw [session_setUserTitle]
    exact (queueing_nil _).symm
  told := by
    have hchanged : s.titles.isChanged [] ⟨what, caption⟩ = false ↔
        s.titles.write ⟨what, caption⟩ = s.titles := Titles.write_eq_iff.symm
    show _ = (if _ then _ else _) ++ []
    unfold setUserTitle
    cases hput : s.titles.put? what caption with
    | none =>
      rw [hchanged.2 (by simp [Titles.write, hput])]
      rfl
    | some titles =>
      have hwrite : s.titles.write ⟨what, caption⟩ = titles := by simp [Titles.write, hput]
      rw [hwrite] at hchanged
      by_cases hsame : titles = s.titles
      · rw [hchanged.2 hsame]
        simp [hsame, retitlings]
      · have htrue : s.titles.isChanged [] ⟨what, caption⟩ = true := by
          simpa using mt hchanged.1 hsame
        rw [htrue]
        simp [hsame, retitlings, notify, notices, Effect.notice?, Notification.isRetitling]

/-- Acting on an event that is no lock does what the event tells. -/
theorem settles_apply (s : Session ε) {event : Event} (h : event.isLock = false) :
    Settles s ([event], s.emulation) (s.apply event) := by
  cases event with
  | write data =>
    show Settles s _ (s.enqueue data)
    unfold enqueue
    split
    · next r hr => exact ⟨(queueing_of_running? hr [data]).symm, rfl⟩
    · next hnone => exact ⟨(queueing_of_none hnone [data]).symm, rfl⟩
  | userTitle what caption => exact settles_setUserTitle s what caption
  | sizeRequest size | bell => exact ⟨(queueing_nil s).symm, rfl⟩
  | lock => cases h

/-- Acting on events that are no locks does what they tell. -/
theorem settles_applyAll (s : Session ε) {events : List Event}
    (h : ∀ event ∈ events, event.isLock = false) :
    Settles s (events, s.emulation) (s.applyAll events) := by
  induction events using List.reverseRecOn with
  | nil => exact settles_nil s
  | append_singleton events event ih =>
    rw [List.forall_mem_append] at h
    have hfirst := ih h.1
    have hlast := settles_apply (s.applyAll events).session (h.2 event (List.mem_singleton_self _))
    have hall := hfirst.trans hlast
    rw [hfirst.emulation] at hall
    simpa [applyAll, Traced.andThen] using hall

variable [Emulation ε]

/-- A block of output does what the emulation reports of it, if that is no lock. -/
theorem settles_feed (s : Session ε) (block : Bytes)
    (h : ∀ event ∈ (Emulation.takeEvents (Emulation.receive s.emulation block)).1,
      event.isLock = false) :
    Settles s (Emulation.takeEvents (Emulation.receive s.emulation block)) (s.feed block) := by
  have happlied := settles_applyAll
    { s with emulation := (Emulation.takeEvents (Emulation.receive s.emulation block)).2 } h
  exact ⟨happlied.session, happlied.told⟩

/-- A block of output does what a clean tracker reports of it. -/
theorem settles_feed_of_isClean {s : Session TitleTracker} (h : s.emulation.IsClean)
    (block : Bytes) :
    Settles s (Emulation.takeEvents (Emulation.receive s.emulation block)) (s.feed block) :=
  settles_feed s block fun event hevent ↦
    Event.isLock_of_isTame (TitleTracker.isTame_of_mem_received h block event hevent)

end Session

end PtyHost
