import PtyHost.Proofs.Registry.History
import PtyHost.Proofs.Session.Conclusion

/-!
# Terminating all sessions at once

The sessions of a registry are terminated concurrently: each termination takes its turns, in which
it begins or goes on with what has happened to its session, and the turns of different sessions come
in any order. No turn concerns more than one session. So each session ends as if its termination
were the only one, whatever becomes of the others, and a sweep takes out those that have ended.

Main statements: `view_of_interleaves`, `sweep_takes_terminated` and `terminated_together`.
-/

namespace PtyHost.Registry

open Session (Advance Occurrence Wait notices finishes)

variable {ε : Type}

/-- A turn of the termination of one session. -/
inductive Turn
  | begins (id : SessionId) (a : Answers)
  | happens (id : SessionId) (o : Occurrence)

/-- The session whose turn it is. -/
def Turn.id : Turn → SessionId
  | .begins id _ | .happens id _ => id

namespace Shutdown

/-- Before any session is asked to end. -/
def start (r : Registry ε) : Shutdown ε := ⟨r, [], []⟩

/-- What a session has done. -/
def effectsOf (d : Shutdown ε) (id : SessionId) : List Effect :=
  (d.trace.filter fun e ↦ e.1 = id).map (·.2)

/-- What the sessions have told. -/
def events (d : Shutdown ε) : List Notification := notices (d.trace.map (·.2))

/-- One session, what its termination waits for, and what it has done. -/
def view (d : Shutdown ε) (id : SessionId) : Option (Session ε) × Option Wait × List Effect :=
  (d.registry.get? id, d.waits.lookup id, d.effectsOf id)

/-- Takes a turn. -/
def turn [Emulation ε] (d : Shutdown ε) : Turn → Shutdown ε
  | .begins id a =>
    match d.registry.get? id with
    | some s => d.take id (s.terminate a)
    | none => d
  | .happens id o => d.resume id o.1 o.2

/-- Takes turns. -/
def run [Emulation ε] (d : Shutdown ε) (ts : List Turn) : Shutdown ε := ts.foldl turn d

end Shutdown

/-- An operation on a session as the view of that session. -/
def view (n : Advance ε) : Option (Session ε) × Option Wait × List Effect :=
  (some n.session, n.progress.wait?, n.trace)

/-- What is under another number stays under it. -/
theorem lookup_filter_ne {α : Type} {l : List (SessionId × α)} {id other : SessionId}
    (h : other ≠ id) : (l.filter fun e ↦ e.1 ≠ id).lookup other = l.lookup other := by
  induction l with
  | nil => rfl
  | cons e l ih =>
    by_cases he : e.1 = id
    · have hother : (other == e.1) = false := by simpa [he] using h
      rw [List.filter_cons_of_neg (by simpa using he), ih, List.lookup_cons, hother]
    · rw [List.filter_cons_of_pos (by simpa using he), List.lookup_cons, List.lookup_cons, ih]

/-- Nothing is left under a number. -/
theorem lookup_filter_self {α : Type} (l : List (SessionId × α)) (id : SessionId) :
    (l.filter fun e ↦ e.1 ≠ id).lookup id = none := by
  rw [List.lookup_eq_none_iff]
  intro e he
  have hne : e.1 ≠ id := by simpa using (List.mem_filter.1 he).2
  simpa using Ne.symm hne

namespace Shutdown

variable {d : Shutdown ε} {id other : SessionId}

/-- What has been taken is the view of its session. -/
theorem view_take_self {s : Session ε} (h : d.registry.get? id = some s) (step : Advance ε) :
    (d.take id step).view id =
      (some step.session, step.progress.wait?, d.effectsOf id ++ step.trace) := by
  have hnone := lookup_filter_self d.waits id
  have hmine : (step.trace.map fun e ↦ (id, e)).filter (fun e ↦ e.1 = id) =
      step.trace.map fun e ↦ (id, e) := List.filter_eq_self.2 (by simp)
  refine Prod.ext (get?_set_self h) (Prod.ext ?_ ?_)
  · show (Shutdown.take d id step).waits.lookup id = _
    unfold take
    dsimp only
    cases step.progress with
    | waiting w =>
      rw [List.lookup_append, hnone, List.lookup_cons_self]
      rfl
    | ended v => exact hnone
  · show ((d.trace ++ _).filter _).map _ = _
    rw [List.filter_append, hmine, List.map_append, List.map_map]
    simp [effectsOf, Function.comp_def]

/-- The other sessions do not see what has been taken. -/
theorem view_take_of_ne (h : other ≠ id) (step : Advance ε) :
    (d.take id step).view other = d.view other := by
  have hmore : (step.trace.map fun e ↦ (id, e)).filter (fun e ↦ e.1 = other) = [] :=
    List.filter_eq_nil_iff.2 (by simpa using fun e _ ↦ Ne.symm h)
  refine Prod.ext (get?_set_of_ne h) (Prod.ext ?_ ?_)
  · show (Shutdown.take d id step).waits.lookup other = _
    have hkept := lookup_filter_ne (l := d.waits) h
    unfold take
    dsimp only
    cases step.progress with
    | waiting w =>
      have hother : (other == id) = false := by simpa using h
      rw [List.lookup_append, hkept, List.lookup_cons, hother]
      exact Option.or_none
    | ended v => exact hkept
  · show ((d.trace ++ _).filter _).map _ = _
    rw [List.filter_append, hmore, List.append_nil]
    rfl

variable [Emulation ε]

/-- Turns are taken in two parts. -/
theorem run_append (d : Shutdown ε) (first rest : List Turn) :
    d.run (first ++ rest) = (d.run first).run rest := List.foldl_append

/-- A session does not see the turn of another. -/
theorem view_turn_of_ne {t : Turn} (h : t.id ≠ id) : (d.turn t).view id = d.view id := by
  cases t with
  | begins other a =>
    unfold turn
    dsimp only
    split
    · exact view_take_of_ne (Ne.symm h) _
    · rfl
  | happens other o =>
    unfold turn Shutdown.resume
    dsimp only
    split
    · exact view_take_of_ne (Ne.symm h) _
    · rfl

/-- A session does not see the turns of others. -/
theorem view_run_of_ne {ts : List Turn} (h : ∀ t ∈ ts, t.id ≠ id) :
    (d.run ts).view id = d.view id := by
  induction ts generalizing d with
  | nil => rfl
  | cons t ts ih =>
    rw [List.forall_mem_cons] at h
    exact (ih h.2).trans (view_turn_of_ne h.1)

/-- What happens in a turn of a session happens to its operation. -/
theorem view_turn_happens {n : Advance ε} (h : d.view id = Registry.view n) (o : Occurrence) :
    (d.turn (.happens id o)).view id = Registry.view (n.resume o) := by
  obtain ⟨hsession, hrest⟩ := Prod.ext_iff.1 h
  obtain ⟨hwait, heffects⟩ := Prod.ext_iff.1 hrest
  replace hsession : d.registry.get? id = some n.session := hsession
  replace hwait : d.waits.lookup id = n.progress.wait? := hwait
  replace heffects : d.effectsOf id = n.trace := heffects
  unfold turn Shutdown.resume Advance.resume
  dsimp only
  rw [hsession, hwait]
  cases hprogress : n.progress with
  | waiting w =>
    show (Shutdown.take d id _).view id = _
    rw [view_take_self hsession, heffects]
    rfl
  | ended v =>
    show d.view id = _
    exact h

/-- What happens in the turns of a session happens to its operation, whatever the turns in between
are. -/
theorem view_run {n : Advance ε} (h : d.view id = Registry.view n) {ts : List Turn}
    {os : List Occurrence} (hts : ts.filter (fun t ↦ t.id = id) = os.map (.happens id)) :
    (d.run ts).view id = Registry.view (n.through os) := by
  -- By induction on the turns: each is one of the session, and the next that happens to it, or it
  -- is one of another.
  induction ts generalizing d n os with
  | nil =>
    obtain rfl := List.map_eq_nil_iff.1 hts.symm
    exact h
  | cons t ts ih =>
    by_cases hid : t.id = id
    · rw [List.filter_cons_of_pos (by simpa using hid)] at hts
      cases os with
      | nil => cases hts
      | cons o os =>
        obtain ⟨rfl, hrest⟩ := List.cons_eq_cons.1 hts
        exact ih (view_turn_happens h o) hrest
    · rw [List.filter_cons_of_neg (by simpa using hid)] at hts
      exact ih ((view_turn_of_ne hid).trans h) hts

/-- The termination of a session begins in one of its turns. -/
theorem view_turn_begins {s : Session ε} (h : d.registry.get? id = some s)
    (heffects : d.effectsOf id = []) (a : Answers) :
    (d.turn (.begins id a)).view id = Registry.view (s.terminate a) := by
  unfold turn
  dsimp only
  rw [h]
  show (Shutdown.take d id _).view id = _
  rw [view_take_self h, heffects]
  rfl

/-- Turns leave the numbers of the sessions as they are. -/
theorem ids_run (d : Shutdown ε) (ts : List Turn) :
    (d.run ts).registry.sessions.map (·.1) = d.registry.sessions.map (·.1) := by
  induction ts generalizing d with
  | nil => rfl
  | cons t ts ih =>
    refine (ih (d.turn t)).trans ?_
    cases t with
    | begins id a =>
      unfold turn
      dsimp only
      split
      · exact ids_set _ _ _
      · rfl
    | happens id o =>
      unfold turn Shutdown.resume
      dsimp only
      split
      · exact ids_set _ _ _
      · rfl

end Shutdown

variable [Emulation ε]

/-- The termination of one session alone, through what happens to it. -/
def termination (s : Session ε) (a : Answers) (os : List Occurrence) : Advance ε :=
  (s.terminate a).through os

/-- Whether the turns are those of the terminations of all running sessions, in any order: of each
session, its termination begins and then all that happens to it happens. -/
structure Interleaves (r : Registry ε) (answers : SessionId → Answers)
    (happened : SessionId → List Occurrence) (ts : List Turn) : Prop where
  running : ∀ t ∈ ts, ∃ s, r.get? t.id = some s ∧ s.isRunning = true
  each : ∀ id s, r.get? id = some s → s.isRunning = true →
    ts.filter (fun t ↦ t.id = id) = .begins id (answers id) :: (happened id).map (.happens id)

omit [Emulation ε] in
/-- Under each number there is a running session, or no session that is running. -/
theorem running_or_not (r : Registry ε) (id : SessionId) :
    (∃ s, r.get? id = some s ∧ s.isRunning = true) ∨
      ∀ s, r.get? id = some s → s.isRunning = false := by
  by_cases hrunning : ∃ s, r.get? id = some s ∧ s.isRunning = true
  · exact .inl hrunning
  · exact .inr fun s hs ↦ Bool.eq_false_iff.2 fun htrue ↦ hrunning ⟨s, hs, htrue⟩

section Interleaves

variable {r : Registry ε} {answers : SessionId → Answers} {happened : SessionId → List Occurrence}
  {ts : List Turn}

/-- Each session that was running ends as if its termination were the only one, and the others stay
as they are. -/
theorem view_of_interleaves (h : Interleaves r answers happened ts) (id : SessionId) :
    (∀ s, r.get? id = some s → s.isRunning = true →
      ((Shutdown.start r).run ts).view id = view (termination s (answers id) (happened id))) ∧
    ((∀ s, r.get? id = some s → s.isRunning = false) →
      ((Shutdown.start r).run ts).view id = (r.get? id, none, [])) := by
  constructor
  · intro s hs hrunning
    obtain ⟨first, rest, rfl, hfirst, -, hrest⟩ :=
      List.filter_eq_cons_iff.1 (h.each id s hs hrunning)
    have hothers : ∀ t ∈ first, t.id ≠ id := by simpa using hfirst
    have hview : ((Shutdown.start r).run first).view id = (some s, none, []) := by
      rw [Shutdown.view_run_of_ne hothers, ← hs]
      rfl
    obtain ⟨hfound, hmore⟩ := Prod.ext_iff.1 hview
    have hbegun := Shutdown.view_turn_begins hfound (Prod.ext_iff.1 hmore).2 (answers id)
    rw [Shutdown.run_append]
    exact Shutdown.view_run hbegun hrest
  · intro hidle
    refine Shutdown.view_run_of_ne fun t ht hid ↦ ?_
    obtain ⟨s, hs, hrunning⟩ := h.running t ht
    rw [hid] at hs
    rw [hidle s hs] at hrunning
    cases hrunning

end Interleaves

/-- What is told by one session, if each has told what it has done under its own number. -/
theorem filter_notices {trace : List (SessionId × Effect)}
    (h : ∀ e ∈ trace, ∀ n, e.2 = .notified n → n.id = e.1) (id : SessionId) :
    (notices (trace.map (·.2))).filter (fun n ↦ n.id = id) =
      notices ((trace.filter fun e ↦ e.1 = id).map (·.2)) := by
  induction trace with
  | nil => rfl
  | cons e trace ih =>
    rw [List.forall_mem_cons] at h
    have hrest := ih h.2
    have hfirst : (notices [e.2]).filter (fun n ↦ n.id = id) =
        notices (([e].filter fun e ↦ e.1 = id).map (·.2)) := by
      obtain ⟨other, effect⟩ := e
      cases effect with
      | notified n =>
        have hn : n.id = other := h.1 n rfl
        by_cases hid : other = id
        · simp [notices, Effect.notice?, hn, hid]
        · simp [notices, Effect.notice?, hn, hid]
      | _ => by_cases hid : other = id <;> simp [notices, Effect.notice?, hid]
    rw [List.map_cons, ← List.singleton_append, Session.notices_append, List.filter_append, hfirst,
      hrest, ← Session.notices_append, ← List.map_append, ← List.filter_append,
      List.singleton_append]

/-- All running sessions are asked to end in one turn each, in the order of their numbers. -/
theorem terminateAll_eq_run {r : Registry ε} (hnodup : (r.sessions.map (·.1)).Nodup) (a : Answers) :
    r.terminateAll a = (Shutdown.start r).run
      ((r.sessions.filter (·.2.isRunning)).map fun e ↦ .begins e.1 a) := by
  suffices hfold : ∀ (rest : List (SessionId × Session ε)) (d : Shutdown ε),
      (rest.map (·.1)).Nodup → (∀ e ∈ rest, d.registry.get? e.1 = some e.2) →
      rest.foldl (fun d e ↦ if e.2.isRunning then d.take e.1 (e.2.terminate a) else d) d =
        d.run ((rest.filter (·.2.isRunning)).map fun e ↦ .begins e.1 a) from
    hfold r.sessions _ hnodup fun e he ↦ get?_of_mem hnodup he
  intro rest
  induction rest with
  | nil => exact fun d _ _ ↦ rfl
  | cons e rest ih =>
    intro d hnodup hfound
    obtain ⟨hnotMem, hrest⟩ := List.nodup_cons.1 hnodup
    rw [List.forall_mem_cons] at hfound
    rw [List.foldl_cons]
    by_cases hrunning : e.2.isRunning = true
    · have hturn : d.turn (.begins e.1 a) = d.take e.1 (e.2.terminate a) := by
        unfold Shutdown.turn
        dsimp only
        rw [hfound.1]
      rw [if_pos hrunning, List.filter_cons, if_pos hrunning, List.map_cons, ← hturn]
      refine ih _ hrest fun f hf ↦ ?_
      have hne : e.1 ≠ f.1 := fun heq ↦ hnotMem (List.mem_map.2 ⟨f, hf, heq.symm⟩)
      have hview := Shutdown.view_turn_of_ne (d := d) (t := .begins e.1 a) hne
      rw [← hfound.2 f hf]
      exact congrArg (·.1) hview
    · rw [if_neg hrunning, List.filter_cons, if_neg hrunning]
      exact ih d hrest hfound.2

omit [Emulation ε] in
/-- The sessions that some are chosen from are found under their numbers. -/
theorem get?_filter {r : Registry ε} (hnodup : (r.sessions.map (·.1)).Nodup)
    (p : Session ε → Bool) (id : SessionId) :
    Registry.get? { r with sessions := r.sessions.filter fun e ↦ p e.2 } id =
      (r.get? id).filter p := by
  have hkept : ((r.sessions.filter fun e ↦ p e.2).map (·.1)).Nodup :=
    (List.filter_sublist.map _).nodup hnodup
  cases hfound : r.get? id with
  | none =>
    refine List.lookup_eq_none_iff.2 fun e he ↦ ?_
    exact List.lookup_eq_none_iff.1 hfound e (List.mem_filter.1 he).1
  | some s =>
    cases hs : p s with
    | true =>
      rw [Option.filter_some, if_pos hs]
      exact get?_of_mem (r := { r with sessions := _ }) hkept
        (List.mem_filter.2 ⟨mem_of_get? hfound, hs⟩)
    | false =>
      rw [Option.filter_some, hs]
      refine List.lookup_eq_none_iff.2 fun e he ↦ ?_
      obtain ⟨hmem, he⟩ := List.mem_filter.1 he
      rw [bne_iff_ne]
      rintro rfl
      rw [get?_of_mem hnodup hmem] at hfound
      rw [Option.some.inj hfound, hs] at he
      cases he

omit [Emulation ε] in
/-- A sweep takes out just the sessions that have ended, in the order of their numbers, and another
one finds nothing more. -/
theorem sweep_takes_terminated {r : Registry ε} (hids : (r.sessions.map (·.1)).Pairwise (· < ·)) :
    (r.sweep.1.map (·.1)).Pairwise (· < ·) ∧
    (∀ id, id ∈ r.sweep.1.map (·.1) ↔ ∃ s, r.get? id = some s ∧ s.isTerminated = true) ∧
    (∀ id, r.sweep.2.get? id = (r.get? id).filter fun s ↦ !s.isTerminated) ∧
    r.sweep.2.sweep = ([], r.sweep.2) := by
  have hnodup : (r.sessions.map (·.1)).Nodup := hids.imp Nat.ne_of_lt
  refine ⟨hids.sublist (List.filter_sublist.map _), ?_, ?_, ?_⟩
  · intro id
    constructor
    · intro hmem
      obtain ⟨e, he, rfl⟩ := List.mem_map.1 hmem
      obtain ⟨hmem, hended⟩ := List.mem_filter.1 he
      exact ⟨e.2, get?_of_mem hnodup hmem, hended⟩
    · rintro ⟨s, hfound, hended⟩
      have hmem : (id, s) ∈ r.sweep.1 := List.mem_filter.2 ⟨mem_of_get? hfound, hended⟩
      exact List.mem_map_of_mem hmem
  · exact get?_filter hnodup fun s ↦ !s.isTerminated
  · simp [sweep, List.filter_filter]

/-- What a session tells while it is terminated. -/
theorem reports_termination {s : Session ε} (hs : s.phase.WellFormed) (a : Answers)
    (os : List Occurrence) :
    Session.Reports s (termination s a os).trace (termination s a os).session :=
  Session.reports_through (Session.wellFormed_act hs (.terminate a) none)
    (Session.reports_act hs (.terminate a) none) os

/-- What the termination of a running session comes to if it ends: the session has ended and told of
it once, or the program is still running and nothing was told of its end. -/
theorem termination_ended {s : Session ε} (hs : s.phase.WellFormed) (hrunning : s.isRunning = true)
    {a : Answers} {os : List Occurrence} {v : Verdict Nat}
    (hv : (termination s a os).progress = .ended v) (hsurvives : v ≠ .overflow) :
    ((∃ k, v = .done k) ∧ (termination s a os).session.isTerminated = true ∧
      finishes (notices (termination s a os).trace) = 1) ∨
    ((∃ e, v = .failed e) ∧ (termination s a os).session.isRunning = true ∧
      finishes (notices (termination s a os).trace) = 0) := by
  have hconcludes := Session.concludes_through (Session.wellFormed_act hs (.terminate a) none)
    (Session.concludes_terminate hs hrunning a) os
  have htold := (reports_termination hs a os).finishes
  have hbefore : s.isTerminated = false := Session.isTerminated_of_isRunning hrunning
  change (termination s a os).session.Concludes (termination s a os).progress at hconcludes
  rw [hv] at hconcludes
  rw [hbefore] at htold
  cases v with
  | done k =>
    refine .inl ⟨⟨k, rfl⟩, hconcludes, ?_⟩
    rw [show (termination s a os).session.isTerminated = true from hconcludes] at htold
    exact htold
  | failed e =>
    refine .inr ⟨⟨e, rfl⟩, hconcludes, ?_⟩
    rw [Session.isTerminated_of_isRunning hconcludes] at htold
    exact htold
  | overflow => exact absurd rfl hsurvives

section Interleaves

variable {r : Registry ε} {answers : SessionId → Answers} {happened : SessionId → List Occurrence}
  {ts : List Turn}

/-- How often the end of a session is told of while all are terminated is seen from what that
session has done. -/
theorem finishesOf_events (h : Interleaves r answers happened ts)
    (hwellFormed : ∀ e ∈ r.sessions, e.2.phase.WellFormed)
    (hown : ∀ e ∈ r.sessions, e.2.id = e.1) (id : SessionId) :
    let d := (Shutdown.start r).run ts
    finishesOf id d.events = finishes (notices (d.effectsOf id)) ∧
      ∀ n ∈ d.events, n.id = id → n ∈ notices (d.effectsOf id) := by
  intro d
  have htold : ∀ e ∈ d.trace, ∀ n, e.2 = .notified n → n.id = e.1 := by
    intro e he n hn
    have hmem : e.2 ∈ d.effectsOf e.1 :=
      List.mem_map_of_mem (List.mem_filter.2 ⟨he, decide_eq_true rfl⟩)
    obtain ⟨hruns, hstays⟩ := view_of_interleaves h e.1
    obtain ⟨s, hs, hrunning⟩ | hidle := running_or_not r e.1
    · have heffects : d.effectsOf e.1 = (termination s (answers e.1) (happened e.1)).trace :=
        congrArg (·.2.2) (hruns s hs hrunning)
      rw [heffects, hn, ← Session.mem_notices] at hmem
      have hheld := mem_of_get? hs
      exact ((reports_termination (hwellFormed _ hheld) _ _).own n hmem).trans (hown _ hheld)
    · have heffects : d.effectsOf e.1 = [] := congrArg (·.2.2) (hstays hidle)
      rw [heffects] at hmem
      cases hmem
  have hfilter := filter_notices htold id
  refine ⟨congrArg finishes hfilter, fun n hn hid ↦ ?_⟩
  have hmem : n ∈ d.events.filter (fun n ↦ n.id = id) :=
    List.mem_filter.2 ⟨hn, decide_eq_true hid⟩
  exact hfilter ▸ hmem

end Interleaves

/-- What becomes of a registry with any sessions, idle, running or terminated, when all of them are
terminated together and that has come to its end, without an overflow. In whatever order the
terminations have gone on, none is still waited for, and each session that was running is what its
own termination alone makes of it: if that succeeded, the session has terminated and told of its end
once, and if it failed, the program is still running and nothing was told of its end. The other
sessions are as they were and have told nothing. So no session is running if all terminations
succeeded. A sweep that follows takes out just the sessions that have terminated, in the order of
their numbers, and another one finds nothing. -/
theorem terminated_together (maxSessions : Nat) (options : SessionOptions) (deeds : List (Deed ε))
    (answers : SessionId → Answers) (happened : SessionId → List Occurrence) (ts : List Turn) :
    let r := ((History.start maxSessions options : History ε).run deeds).registry
    let final (id : SessionId) (s : Session ε) := termination s (answers id) (happened id)
    let d := (Shutdown.start r).run ts
    Interleaves r answers happened ts →
    (∀ id s, r.get? id = some s → s.isRunning = true →
      ∃ v, (final id s).progress = .ended v ∧ v ≠ .overflow) →
    (∀ a, r.terminateAll a = (Shutdown.start r).run
      ((r.sessions.filter (·.2.isRunning)).map fun e ↦ .begins e.1 a)) ∧
    (∀ id, d.waits.lookup id = none) ∧
    (∀ id s, r.get? id = some s → s.isRunning = true →
      d.registry.get? id = some (final id s).session ∧ d.effectsOf id = (final id s).trace ∧
      ((∃ k, (final id s).progress = .ended (.done k)) ∧
          (final id s).session.isTerminated = true ∧ finishesOf id d.events = 1 ∨
        (∃ e, (final id s).progress = .ended (.failed e)) ∧
          (final id s).session.isRunning = true ∧ finishesOf id d.events = 0)) ∧
    (∀ id, (∀ s, r.get? id = some s → s.isRunning = false) →
      d.registry.get? id = r.get? id ∧ d.effectsOf id = [] ∧ ∀ n ∈ d.events, n.id ≠ id) ∧
    ((∀ id s, r.get? id = some s → s.isRunning = true →
        ∃ k, (final id s).progress = .ended (.done k)) →
      ∀ e ∈ d.registry.sessions, e.2.isRunning = false) ∧
    (d.registry.sweep.1.map (·.1)).Pairwise (· < ·) ∧
    (∀ id, id ∈ d.registry.sweep.1.map (·.1) ↔
      ∃ s, d.registry.get? id = some s ∧ s.isTerminated = true) ∧
    (∀ id, d.registry.sweep.2.get? id = (d.registry.get? id).filter fun s ↦ !s.isTerminated) ∧
    d.registry.sweep.2.sweep = ([], d.registry.sweep.2) := by
  intro r final d hts hended
  have hb : Books maxSessions ((History.start maxSessions options : History ε).run deeds) :=
    (Books.start maxSessions options).run deeds
  have hids : (d.registry.sessions.map (·.1)).Pairwise (· < ·) := by
    rw [Shutdown.ids_run]
    exact hb.pairwise_held
  have hruns {id : SessionId} {s : Session ε} (hs : r.get? id = some s)
      (hrunning : s.isRunning = true) : d.view id = view (final id s) :=
    (view_of_interleaves hts id).1 s hs hrunning
  have hstays {id : SessionId} (hidle : ∀ s, r.get? id = some s → s.isRunning = false) :
      d.view id = (r.get? id, none, []) := (view_of_interleaves hts id).2 hidle
  have hevents := finishesOf_events hts hb.wellFormed hb.own
  refine ⟨terminateAll_eq_run hb.nodup_held, ?_, ?_, ?_, ?_, sweep_takes_terminated hids⟩
  · intro id
    obtain ⟨s, hs, hrunning⟩ | hidle := running_or_not r id
    · obtain ⟨v, hv, -⟩ := hended id s hs hrunning
      have hwait : d.waits.lookup id = (final id s).progress.wait? :=
        congrArg (·.2.1) (hruns hs hrunning)
      rw [hwait, hv]
      rfl
    · exact congrArg (·.2.1) (hstays hidle)
  · intro id s hs hrunning
    have hview := hruns hs hrunning
    have heffects : d.effectsOf id = (final id s).trace := congrArg (·.2.2) hview
    obtain ⟨v, hv, hsurvives⟩ := hended id s hs hrunning
    have houtcome :=
      termination_ended (hb.wellFormed _ (mem_of_get? hs)) hrunning hv hsurvives
    rw [← heffects, ← (hevents id).1] at houtcome
    refine ⟨congrArg (·.1) hview, heffects, ?_⟩
    obtain ⟨⟨k, rfl⟩, hdone⟩ | ⟨⟨e, rfl⟩, hfailed⟩ := houtcome
    · exact .inl ⟨⟨k, hv⟩, hdone⟩
    · exact .inr ⟨⟨e, hv⟩, hfailed⟩
  · intro id hidle
    have hview := hstays hidle
    have heffects : d.effectsOf id = [] := congrArg (·.2.2) hview
    refine ⟨congrArg (·.1) hview, heffects, fun n hn hid ↦ ?_⟩
    have hmem := (hevents id).2 n hn hid
    rw [heffects] at hmem
    cases hmem
  · intro hdone e he
    have hfound : d.registry.get? e.1 = some e.2 := get?_of_mem (hids.imp Nat.ne_of_lt) he
    obtain ⟨s, hs, hrunning⟩ | hidle := running_or_not r e.1
    · have hsession : d.registry.get? e.1 = some (final e.1 s).session :=
        congrArg (·.1) (hruns hs hrunning)
      obtain ⟨k, hk⟩ := hdone e.1 s hs hrunning
      rw [hfound] at hsession
      rw [Option.some.inj hsession]
      obtain ⟨-, hterminated, -⟩ | ⟨⟨e, he⟩, -⟩ :=
        termination_ended (hb.wellFormed _ (mem_of_get? hs)) hrunning hk (by simp)
      · refine Bool.eq_false_iff.2 fun hstill ↦ ?_
        rw [Session.isTerminated_of_isRunning hstill] at hterminated
        cases hterminated
      · cases he
    · have hkept : d.registry.get? e.1 = r.get? e.1 := congrArg (·.1) (hstays hidle)
      exact hidle e.2 (hkept ▸ hfound)

/-- Of four sessions one is idle and one has ended. The end of one of the others is never learned
of, between two things that happen to the first. -/
theorem terminated_together_failing :
    let deeds : List (Deed Emulation.Discard) :=
      [.create .mk, .create .mk, .create .mk, .create .mk, .on 1 (.run "sh" {}),
        .on 3 (.run "sh" {}), .on 4 (.run "sh" {}), .on 4 (.kill {}),
        .on 4 (.happen (.exited (.signaled 9 false)) {}), .on 4 (.happen .endOfOutput {})]
    let r := ((History.start 4 {}).run deeds).registry
    let ts : List Turn :=
      [.begins 3 {}, .begins 1 {}, .happens 1 (.exited (.signaled 15 false), {}),
        .happens 3 (.waitFailed (.errno 10), {}), .happens 1 (.endOfOutput, {})]
    let d := (Shutdown.start r).run ts
    r.sessions.map (fun e ↦ (e.1, e.2.isRunning, e.2.isTerminated)) =
      [(1, true, false), (2, false, false), (3, true, false), (4, false, true)] ∧
    d.registry.sessions.map (fun e ↦ (e.1, e.2.isRunning, e.2.isTerminated)) =
      [(1, false, true), (2, false, false), (3, true, false), (4, false, true)] ∧
    d.events = [.finished 1 (.signaled 15 false)] ∧
    d.registry.sweep.1.map (·.1) = [1, 4] ∧
    (∀ id, d.waits.lookup id = none) ∧
    d.registry.sweep.2.sweep = ([], d.registry.sweep.2) := by
  intro deeds r ts d
  let happened (id : SessionId) : List Occurrence :=
    if id = 1 then [(.exited (.signaled 15 false), {}), (.endOfOutput, {})]
    else [(.waitFailed (.errno 10), {})]
  have hone : ∃ s, r.get? 1 = some s ∧ s.isRunning = true ∧
      (termination s {} (happened 1)).progress = .ended (.done 0) := ⟨_, rfl, rfl, rfl⟩
  have hthree : ∃ s, r.get? 3 = some s ∧ s.isRunning = true ∧
      (termination s {} (happened 3)).progress = .ended (.failed (.device (.errno 10))) :=
    ⟨_, rfl, rfl, rfl⟩
  have hrunning : ∀ id s, r.get? id = some s → s.isRunning = true → id = 1 ∨ id = 3 := by
    intro id s hs hrunning
    have hall : ∀ e ∈ r.sessions, e.2.isRunning = true → e.1 = 1 ∨ e.1 = 3 := by decide
    exact hall _ (mem_of_get? hs) hrunning
  have hts : Interleaves r (fun _ ↦ {}) happened ts := by
    refine ⟨?_, ?_⟩
    · obtain ⟨s, hs, hs', -⟩ := hone
      obtain ⟨t, ht, ht', -⟩ := hthree
      have hid : ∀ t ∈ ts, t.id = 1 ∨ t.id = 3 := by simp [ts, Turn.id]
      intro turn hturn
      rcases hid turn hturn with h | h <;> rw [h]
      · exact ⟨s, hs, hs'⟩
      · exact ⟨t, ht, ht'⟩
    · intro id s hs hs'
      rcases hrunning id s hs hs' with rfl | rfl <;> rfl
  obtain ⟨-, hwaits, -, -, -, -, -, -, hagain⟩ :=
    terminated_together 4 {} deeds (fun _ ↦ {}) happened ts hts (by
      intro id s hs hs'
      rcases hrunning id s hs hs' with rfl | rfl
      · obtain ⟨t, ht, -, hended⟩ := hone
        obtain rfl : t = s := Option.some.inj (ht.symm.trans hs)
        exact ⟨_, hended, by simp⟩
      · obtain ⟨t, ht, -, hended⟩ := hthree
        obtain rfl : t = s := Option.some.inj (ht.symm.trans hs)
        exact ⟨_, hended, by simp⟩)
  exact ⟨by decide, by decide, by decide, by decide, hwaits, hagain⟩

end PtyHost.Registry
