import PtyHost.Proofs.Session.Lifecycle
import PtyHost.Proofs.Session.Service

/-!
# What a session tells its owner

Owners of many sessions hear of all of them over one channel. What a session tells carries its own
number, and it tells of its end in the move that ends it and never else, in whatever state it is and
whatever overflows.

Main statement: `reports_act`, on any move of any session whose phase is well formed.
-/

namespace PtyHost

/-- What an effect tells the owner. -/
def Effect.notice? : Effect → Option Notification
  | .notified n => some n
  | _ => none

/-- What is about a terminal or a program tells the owner nothing. -/
theorem Effect.notice?_of_isProvision {e : Effect} (h : e.isProvision = true) :
    e.notice? = none := by
  cases e <;> simp_all [isProvision, notice?]

/-- The parts of an attempt to start a program tell the owner nothing. -/
theorem Effect.notice?_of_isOpening {e : Effect} (h : Session.isOpening e = true) :
    e.notice? = none := by
  cases e <;> simp_all [Session.isOpening, notice?]

namespace Session

/-- What is told to the owner in a trace, the oldest first. -/
def notices (trace : List Effect) : List Notification := trace.filterMap Effect.notice?

@[simp] theorem notices_nil : notices [] = [] := rfl

@[simp] theorem notices_append (first rest : List Effect) :
    notices (first ++ rest) = notices first ++ notices rest :=
  List.filterMap_append

/-- What is told is what the trace has as a notification. -/
theorem mem_notices {trace : List Effect} {n : Notification} :
    n ∈ notices trace ↔ .notified n ∈ trace := by
  constructor
  · intro h
    obtain ⟨e, he, hn⟩ := List.mem_filterMap.1 h
    cases e with
    | notified m => exact Option.some.inj hn ▸ he
    | _ => cases hn
  · exact fun h ↦ List.mem_filterMap.2 ⟨_, h, rfl⟩

/-- Nothing is told by effects that tell nothing. -/
theorem notices_eq_nil {trace : List Effect} (h : ∀ e ∈ trace, e.notice? = none) :
    notices trace = [] :=
  List.filterMap_eq_nil_iff.2 h

/-- How often the end of a program is told of. -/
def finishes (ns : List Notification) : Nat := ns.countP (·.isFinished)

variable {ε : Type}

/-- Giving a terminal back tells the owner nothing. -/
theorem notices_release (s : Session ε) (a : Answers) : notices (s.release a).trace = [] :=
  notices_eq_nil fun e he ↦ Effect.notice?_of_isProvision (isProvision_release s a e he)

/-- Completing a session tells of its end once, and only it. -/
theorem notices_complete (s : Session ε) (status : ExitStatus) (a : Answers) :
    (∀ n ∈ notices (s.complete status a).trace, n.id = s.id) ∧
      finishes (notices (s.complete status a).trace) = 1 := by
  rw [trace_complete, notices_append, notices_release, List.nil_append]
  unfold farewell
  split <;> simp [notices, Effect.notice?, finishes, Notification.isFinished, Notification.id]

/-- A session that is let go of tells its owner nothing. -/
theorem notices_drop (s : Session ε) (a : Answers) : notices (s.drop a) = [] := by
  unfold drop
  rw [notices_append, notices_release, List.append_nil]
  split <;> rfl

/-- An attempt to start a program tells the owner nothing. -/
theorem notices_startup (s : Session ε) (program : String) (a : Answers) :
    notices (s.startup program a).trace = [] :=
  notices_eq_nil fun e he ↦ Effect.notice?_of_isOpening (isOpening_startup s program a e he)

/-- A trace that says nothing of an end. -/
theorem finishes_eq_zero {trace : List Effect} (h : ∀ e ∈ trace, e.isFinish = false) :
    finishes (notices trace) = 0 := by
  refine List.countP_eq_zero.2 fun n hn ↦ ?_
  have hfinish := h _ (mem_notices.1 hn)
  cases n <;> simp_all [Notification.isFinished, Effect.isFinish]

/-- A program that was started tells the owner nothing yet. -/
theorem notices_started (s : Session ε) (program : String) (pid : Pid) (silenceAt : Option Nat)
    (a : Answers) : notices (s.started program pid silenceAt a).trace = [] := by
  show notices (if _ then _ else _) = []
  split <;> rfl

/-- A session that has told its owner something: it has kept its number, what it has told carries
that number, and it has told of its end exactly if it has come to it. -/
structure Reports (s : Session ε) (trace : List Effect) (t : Session ε) : Prop where
  id : t.id = s.id
  own : ∀ n ∈ notices trace, n.id = s.id
  finishes : finishes (notices trace) + s.isTerminated.toNat = t.isTerminated.toNat

namespace Reports

variable {s t : Session ε} {trace : List Effect}

/-- A session that tells its owner nothing, and comes to no end. -/
theorem quiet (hid : t.id = s.id) (hended : t.isTerminated = s.isTerminated)
    (h : notices trace = []) : Reports s trace t where
  id := hid
  own := by simp [h]
  finishes := by
    rw [h, hended]
    exact Nat.zero_add _

/-- The end of a session is told of once. -/
theorem complete {r q : Running} (running : s.phase = .running r) (status : ExitStatus)
    (a : Answers) : Reports s ({ s with phase := .running q }.complete status a).trace
      ({ s with phase := .running q }.complete status a).session where
  id := id_complete _ status a
  own := (notices_complete _ status a).1
  finishes := by
    have hended :
        ({ s with phase := .running q }.complete status a).session.isTerminated = true := by
      simp [isTerminated]
    rw [(notices_complete _ status a).2, hended, isTerminated_of_running running]
    rfl

variable [Emulation ε]

/-- What edits tell is not the end. -/
theorem edits (h : Edits s trace t) : Reports s trace t where
  id := h.alike.id
  own := fun n hn ↦ h.own n (mem_notices.1 hn)
  finishes := by
    have hquiet := finishes_eq_zero fun e he ↦ Effect.isFinish_of_isMinor (h.isMinor e he)
    rw [hquiet, h.alike.isTerminated]
    exact Nat.zero_add _

/-- What is done before and after a block is handed on tells of no end. -/
theorem output {u v : Session ε} {first last : List Effect} {block : Bytes} {e : ε}
    (before : Edits s first u) (after : Edits { u with emulation := e } last v) :
    Reports s (first ++ .fed block :: last) v where
  id := (before.alike.through after.alike).id
  own := by
    intro n hn
    rcases List.mem_append.1 (mem_notices.1 hn) with hfirst | hlast
    · exact before.own n hfirst
    · rcases List.mem_cons.1 hlast with hfed | hlast
      · cases hfed
      · exact (after.own n hlast).trans before.alike.id
  finishes := by
    have hquiet : Session.finishes (notices (first ++ .fed block :: last)) = 0 := by
      refine finishes_eq_zero fun e he ↦ ?_
      rcases before.fed_or_isMinor after e he with rfl | hminor
      · rfl
      · exact Effect.isFinish_of_isMinor hminor
    rw [hquiet, (before.alike.through after.alike).isTerminated]
    exact Nat.zero_add _

end Reports

variable [Emulation ε]

/-- What a session tells its owner in a passage. -/
theorem Passage.reports {c : Course ε} {m : Move} {next : Advance ε} (h : Passage c m next) :
    Reports c.session next.trace next.session := by
  have hrunning {r q : Running} (running : c.session.phase = .running r) :
      Reports c.session [] { c.session with phase := .running q } :=
    .quiet rfl (by simp [isTerminated, running]) rfl
  cases h with
  | edits _ _ edits _ => exact .edits edits
  | output _ before after trace _ _ => exact trace ▸ .output before after
  | lost _ before => exact .edits before
  | closed running | reaped _ running => exact hrunning running
  | refused =>
    refine .quiet rfl rfl ?_
    show notices (_ ++ _) = []
    rw [notices_append, notices_startup, notices_release]
    rfl
  | aborted =>
    refine .quiet rfl rfl ?_
    show notices (_ ++ _) = []
    rw [notices_append, notices_startup]
    rfl
  | started silenceAt idle =>
    refine .quiet rfl ?_ ?_
    · simp [reaching, Traced.andThen, Session.started, isTerminated, idle]
    · show notices (_ ++ _) = []
      rw [notices_append, notices_startup, notices_started]
      rfl
  | ended a running | drained a running => exact .complete running _ a

/-- What a session tells its owner in a move. -/
theorem reports_act {s : Session ε} (hs : s.phase.WellFormed) (m : Move) (waiting : Option Wait) :
    Reports s (m.act s waiting).trace (m.act s waiting).session :=
  ((⟨⟨s, []⟩, waiting, []⟩ : Course ε).passage hs m).reports

end Session

end PtyHost
