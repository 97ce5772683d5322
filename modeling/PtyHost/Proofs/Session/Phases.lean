import PtyHost.Session.Basic

/-!
# The phases of a session

What a session says of itself, what there is of its program and the status of its program are three
entries, and operations are total whatever the three are. Where they go together each of them tells
the others, and a session is idle, runs a program, or has ended with a status.

Main statements: `Phase.Alike.wellFormed`, and for a session whose entries go together
`running?_eq_some_iff` and `exitStatus?_eq_some_iff`.
-/

namespace PtyHost

/-- What of a running program no edit changes: its process, and whether there may be more output. -/
def Running.core (r : Running) : Child × Bool := (r.child, r.readOpen)

namespace Phase

/-- There is but one status to have ended with. -/
theorem terminated.inj {status other : ExitStatus} (h : terminated status = terminated other) :
    status = other :=
  Option.some.inj (congrArg Phase.exitStatus? h)

/-- Nothing has run yet: the entries go together. -/
theorem wellFormed_idle : WellFormed .idle := .inl rfl

/-- A program is running: the entries go together. -/
theorem wellFormed_running (r : Running) : WellFormed (.running r) := .inr (.inl ⟨r, rfl⟩)

/-- The program has ended: the entries go together. -/
theorem wellFormed_terminated (status : ExitStatus) : WellFormed (.terminated status) :=
  .inr (.inr ⟨status, rfl⟩)

/-- Phases that differ at most in what is queued, in the lock and in the countdown. -/
structure Alike (p q : Phase) : Prop where
  state : q.state = p.state
  core : q.running?.map Running.core = p.running?.map Running.core
  exitStatus? : q.exitStatus? = p.exitStatus?

namespace Alike

variable {p q : Phase}

/-- Every phase is like itself. -/
theorem refl (p : Phase) : p.Alike p := ⟨rfl, rfl, rfl⟩

/-- What is like something alike is alike. -/
theorem trans {r : Phase} (h : p.Alike q) (k : q.Alike r) : p.Alike r :=
  ⟨k.state.trans h.state, k.core.trans h.core, k.exitStatus?.trans h.exitStatus?⟩

/-- What depends on no more of the program than no edit changes is the same for phases that are
alike. -/
theorem any_core (h : p.Alike q) (f : Child × Bool → Bool) :
    q.running?.any (fun r ↦ f r.core) = p.running?.any fun r ↦ f r.core := by
  have hany := congrArg (Option.any f) h.core
  rwa [Option.any_map, Option.any_map] at hany

/-- What there may be of the program that no edit changes is the same for phases that are alike. -/
theorem bind_core {α : Type} (h : p.Alike q) (f : Child × Bool → Option α) :
    (q.running?.bind fun r ↦ f r.core) = p.running?.bind fun r ↦ f r.core := by
  have hbind := congrArg (Option.bind · f) h.core
  rwa [Option.bind_map, Option.bind_map] at hbind

/-- Only the idle phase is like the idle one. -/
theorem eq_idle (h : p.Alike q) (hp : p = .idle) : q = .idle := by
  subst hp
  obtain ⟨state, running?, exitStatus?⟩ := q
  obtain ⟨rfl, hcore, rfl⟩ := h
  obtain rfl := Option.map_eq_none_iff.1 hcore
  rfl

/-- Only a phase with the same program is like one with a program. -/
theorem of_running {r : Running} (h : p.Alike q) (hp : p = .running r) :
    ∃ s : Running, q = .running s ∧ s.child = r.child ∧ s.readOpen = r.readOpen := by
  subst hp
  obtain ⟨state, running?, exitStatus?⟩ := q
  obtain ⟨rfl, hcore, rfl⟩ := h
  obtain ⟨s, rfl, hs⟩ := Option.map_eq_some_iff.1 hcore
  exact ⟨s, rfl, Prod.mk.inj hs⟩

/-- Only the phase with the same status is like one with a status. -/
theorem eq_terminated {status : ExitStatus} (h : p.Alike q) (hp : p = .terminated status) :
    q = .terminated status := by
  subst hp
  obtain ⟨state, running?, exitStatus?⟩ := q
  obtain ⟨rfl, hcore, rfl⟩ := h
  obtain rfl := Option.map_eq_none_iff.1 hcore
  rfl

/-- What is like a phase whose entries go together is one. -/
theorem wellFormed (h : p.Alike q) (hp : p.WellFormed) : q.WellFormed := by
  obtain hidle | ⟨r, hrunning⟩ | ⟨status, hterminated⟩ := hp
  · rw [h.eq_idle hidle]
    exact wellFormed_idle
  · obtain ⟨s, rfl, -⟩ := h.of_running hrunning
    exact wellFormed_running s
  · rw [h.eq_terminated hterminated]
    exact wellFormed_terminated status

end Alike

end Phase

namespace Session

variable {ε : Type} {s : Session ε}

/-- A session is running in the phase of that name. -/
theorem isRunning_of_running {r : Running} (h : s.phase = .running r) : s.isRunning = true := by
  simp [isRunning, h]

/-- A session that is running has not ended. -/
theorem isTerminated_of_running {r : Running} (h : s.phase = .running r) :
    s.isTerminated = false := by
  simp [isTerminated, h]

/-- A session whose program is running has not ended. -/
theorem isTerminated_of_isRunning (h : s.isRunning = true) : s.isTerminated = false := by
  simp only [isRunning, decide_eq_true_eq] at h
  simp [isTerminated, h]

/-- A session that has ended is not running. -/
theorem isRunning_of_isTerminated (h : s.isTerminated = true) : s.isRunning = false := by
  simp only [isTerminated, decide_eq_true_eq] at h
  simp [isRunning, h]

/-- A session that is idle is not running. -/
theorem isRunning_of_idle (h : s.phase = .idle) : s.isRunning = false := by
  simp [isRunning, h]

/-- A session that is idle has not ended. -/
theorem isTerminated_of_idle (h : s.phase = .idle) : s.isTerminated = false := by
  simp [isTerminated, h]

/-- A session is not running in the last phase. -/
theorem isRunning_of_terminated {status : ExitStatus} (h : s.phase = .terminated status) :
    s.isRunning = false := by
  simp [isRunning, h]

/-- A session that runs a program is in a phase whose entries go together. -/
theorem wellFormed_of_running {r : Running} (h : s.phase = .running r) : s.phase.WellFormed :=
  h ▸ Phase.wellFormed_running r

/-- There is something of the program of a session in the phase of that name. -/
theorem running?_of_running {r : Running} (h : s.phase = .running r) : s.running? = some r := by
  simp [running?, h]

/-- The program of a session that is running is the one there is. -/
theorem current?_of_running {r : Running} (h : s.phase = .running r) : s.current? = some r := by
  rw [current?, isRunning_of_running h, if_pos rfl, running?_of_running h]

/-- A session that is not running has no program. -/
theorem current?_of_not_running (h : s.isRunning = false) : s.current? = none := by
  simp [current?, h]

/-- The program of a session that is running is one that there is. -/
theorem running?_of_current? {r : Running} (h : s.current? = some r) : s.running? = some r := by
  unfold current? at h
  split at h
  · exact h
  · cases h

/-- A session that has a program is running. -/
theorem isRunning_of_current? {r : Running} (h : s.current? = some r) : s.isRunning = true := by
  unfold current? at h
  split at h
  · next hrunning => exact hrunning
  · cases h

/-- What was put in the place of what there was is what there is. -/
@[simp] theorem running?_setRunning (s : Session ε) (r : Running) :
    (s.setRunning r).running? = some r := rfl

/-- In a session that runs a program, another thing in the place of what there was is what the
session runs then. -/
theorem phase_setRunning {r : Running} (h : s.phase = .running r) (q : Running) :
    (s.setRunning q).phase = .running q := by
  simp [setRunning, h]

/-- In a session that runs a program, another thing in the place of what there was is what is
running. -/
theorem setRunning_of_running {r : Running} (h : s.phase = .running r) (q : Running) :
    s.setRunning q = { s with phase := .running q } := by
  simp [setRunning, h]

/-- A change to what there is puts something else in its place. -/
theorem modifyRunning_of_running? {r : Running} (h : s.running? = some r)
    (f : Running → Running) : s.modifyRunning f = s.setRunning (f r) := by
  simp [modifyRunning, h]

/-- There is nothing to be changed of a program that there is not. -/
theorem modifyRunning_of_none (h : s.running? = none) (f : Running → Running) :
    s.modifyRunning f = s := by
  simp [modifyRunning, h]

/-- To put back what there is changes nothing. -/
theorem setRunning_self {r : Running} (h : s.running? = some r) : s.setRunning r = s := by
  rw [setRunning, ← h]
  rfl

/-- There is something of a program exactly in the phase of that name. -/
theorem running?_eq_some_iff (hs : s.phase.WellFormed) {r : Running} :
    s.running? = some r ↔ s.phase = .running r := by
  obtain h | ⟨q, h⟩ | ⟨status, h⟩ := hs <;> simp [running?, h]

/-- There is a status exactly in the last phase. -/
theorem exitStatus?_eq_some_iff (hs : s.phase.WellFormed) {status : ExitStatus} :
    s.exitStatus? = some status ↔ s.phase = .terminated status := by
  obtain h | ⟨q, h⟩ | ⟨status, h⟩ := hs <;> simp [exitStatus?, h]

/-- There is something of a program exactly while the session is running. -/
theorem isSome_running? (hs : s.phase.WellFormed) : s.running?.isSome = s.isRunning := by
  obtain h | ⟨q, h⟩ | ⟨status, h⟩ := hs <;> simp [running?, isRunning, h]

/-- There is a status exactly if the session has ended. -/
theorem isSome_exitStatus? (hs : s.phase.WellFormed) : s.exitStatus?.isSome = s.isTerminated := by
  obtain h | ⟨q, h⟩ | ⟨status, h⟩ := hs <;> simp [exitStatus?, isTerminated, h]

/-- There is something of a program only in a session that is running. -/
theorem current?_eq_running? (hs : s.phase.WellFormed) : s.current? = s.running? := by
  rw [current?, ← isSome_running? hs]
  cases s.running? <;> rfl

/-- There is a program exactly if the session is running. -/
theorem isSome_current? (hs : s.phase.WellFormed) : s.current?.isSome = s.isRunning := by
  rw [current?_eq_running? hs, isSome_running? hs]

/-- The program of a session that is running is there exactly in the phase of that name. -/
theorem current?_eq_some_iff (hs : s.phase.WellFormed) {r : Running} :
    s.current? = some r ↔ s.phase = .running r := by
  rw [current?_eq_running? hs, running?_eq_some_iff hs]

/-- A session is running exactly if it runs something. -/
theorem isRunning_iff (hs : s.phase.WellFormed) :
    s.isRunning = true ↔ ∃ r, s.phase = .running r := by
  obtain h | ⟨r, h⟩ | ⟨status, h⟩ := hs <;> simp [isRunning, h]

/-- A session has ended exactly if it has a status. -/
theorem isTerminated_iff (hs : s.phase.WellFormed) :
    s.isTerminated = true ↔ ∃ status, s.phase = .terminated status := by
  obtain h | ⟨r, h⟩ | ⟨status, h⟩ := hs <;> simp [isTerminated, h]

/-- A session that says that it is idle is. -/
theorem eq_idle_of_state (hs : s.phase.WellFormed) (h : s.phase.state = .idle) :
    s.phase = .idle := by
  obtain hidle | ⟨r, hrunning⟩ | ⟨status, hterminated⟩ := hs
  · exact hidle
  · rw [hrunning] at h
    cases h
  · rw [hterminated] at h
    cases h

end Session

end PtyHost
