import PtyHost.Session.Dispatch
import PtyHost.Session.Start

/-!
# The registry of sessions

The registry makes sessions, numbers them and limits how many there are at a time. Numbers only
grow. A session that has terminated counts until it is removed.

Main statements: a session is found where it was put (`get?_set_self`), and the others stay
(`get?_set_of_ne`).
-/

namespace PtyHost

/-- The sessions there are, each under its number, in the order of the numbers. -/
structure Registry (ε : Type) where
  maxSessions : Nat
  options : SessionOptions
  sessions : List (SessionId × Session ε) := []
  nextId : SessionId := 1
deriving DecidableEq, Repr

namespace Registry

variable {ε : Type}

/-- The registry of a configuration. -/
def ofConfig (home : Option Path) (c : Config) : Except ConfigError (Registry ε) := do
  let options ← SessionOptions.ofConfig home c.session
  return { maxSessions := c.registry.maxSessions, options }

/-- Makes an idle session, unless there are as many as there may be. -/
def create (r : Registry ε) (emulation : ε) : Except SessionError (SessionId × Registry ε) :=
  if r.maxSessions ≤ r.sessions.length then .error (.sessionLimit r.maxSessions)
  else
    let id := r.nextId
    .ok (id, { r with
      sessions := r.sessions ++ [(id, .new id r.options emulation)]
      nextId := id + 1 })

/-- The session with a number. -/
def get? (r : Registry ε) (id : SessionId) : Option (Session ε) := r.sessions.lookup id

/-- Puts a session in the place of the one with a number. -/
def set (r : Registry ε) (id : SessionId) (s : Session ε) : Registry ε :=
  { r with sessions := r.sessions.map fun e ↦ if e.1 = id then (id, s) else e }

/-- Takes the session with a number out. -/
def remove (r : Registry ε) (id : SessionId) : Option (Session ε × Registry ε) :=
  (r.get? id).map fun s ↦ (s, { r with sessions := r.sessions.filter fun e ↦ e.1 ≠ id })

/-- Takes out all sessions that have terminated. -/
def sweep (r : Registry ε) : List (SessionId × Session ε) × Registry ε :=
  (r.sessions.filter fun e ↦ e.2.isTerminated,
    { r with sessions := r.sessions.filter fun e ↦ !e.2.isTerminated })

/-- What a list of sessions shows of one. -/
structure Summary where
  id : SessionId
  state : SessionState
  program : String
  title : String
  pid : Option Pid
  exitCode : Option Int
deriving DecidableEq, Repr

/-- All sessions, in the order of their numbers. -/
def summaries (r : Registry ε) : List Summary :=
  r.sessions.map fun (_, s) ↦
    { id := s.id, state := s.phase.state, program := s.program, title := s.titles.display
      pid := s.pid?
      exitCode := s.exitStatus?.map (·.code) }

/-- The termination of all sessions at once: what each session that is still to end waits for, and
what was done so far, by each session. -/
structure Shutdown (ε : Type) where
  registry : Registry ε
  waits : List (SessionId × Session.Wait) := []
  trace : List (SessionId × Effect) := []

/-- Takes the next state of one session. -/
def Shutdown.take (d : Shutdown ε) (id : SessionId) (step : Session.Advance ε) : Shutdown ε where
  registry := d.registry.set id step.session
  waits :=
    let others := d.waits.filter fun w ↦ w.1 ≠ id
    match step.progress with
    | .waiting w => others ++ [(id, w)]
    | .ended _ => others
  trace := d.trace ++ step.trace.map fun e ↦ (id, e)

/-- Begins to terminate all running sessions, each with a grace period of its own. -/
def terminateAll (r : Registry ε) (a : Answers) : Shutdown ε :=
  r.sessions.foldl
    (fun d (id, s) ↦ if s.isRunning then d.take id (s.terminate a) else d) ⟨r, [], []⟩

/-- Goes on with the termination of one session. -/
def Shutdown.resume [Emulation ε] (d : Shutdown ε) (id : SessionId) (wake : Session.Wake)
    (a : Answers) : Shutdown ε :=
  match d.waits.lookup id, d.registry.get? id with
  | some w, some s => d.take id (s.resume w wake a)
  | _, _ => d

/-- A session that is put in the place of another keeps its number. -/
@[simp] theorem ids_set (r : Registry ε) (id : SessionId) (s : Session ε) :
    (r.set id s).sessions.map (·.1) = r.sessions.map (·.1) := by
  rw [set, List.map_map]
  apply List.map_congr_left
  intro e _
  by_cases h : e.1 = id <;> simp [h]

/-- The session in the place of another is the one that was put there. -/
theorem get?_set_self {r : Registry ε} {id : SessionId} {s t : Session ε} (h : r.get? id = some t) :
    (r.set id s).get? id = some s := by
  obtain ⟨_, _, sessions, _⟩ := r
  simp only [get?, set] at h ⊢
  induction sessions with
  | nil => simp at h
  | cons e rest ih =>
    by_cases he : e.1 = id
    · simp [he]
    · have hne : (id == e.1) = false := by simpa using Ne.symm he
      rw [List.lookup_cons, hne] at h
      rw [List.map_cons, if_neg he, List.lookup_cons, hne]
      exact ih h

/-- The other sessions stay when one is put in the place of another. -/
theorem get?_set_of_ne {r : Registry ε} {id other : SessionId} {s : Session ε} (h : other ≠ id) :
    (r.set id s).get? other = r.get? other := by
  obtain ⟨_, _, sessions, _⟩ := r
  simp only [get?, set]
  induction sessions with
  | nil => rfl
  | cons e rest ih =>
    have hid : (other == id) = false := by simpa using h
    rw [List.map_cons, List.lookup_cons, List.lookup_cons, ih]
    by_cases he : e.1 = id
    · simp [he, hid]
    · simp [he]

end Registry

end PtyHost
