import PtyHost.Machine.Stage
import PtyHost.Registry

/-!
# Running a registry on a machine

All sessions of a registry with their seats, on one machine with one clock. The seat of a session
stays when the session is removed, so that what it did last can still be seen.
-/

namespace PtyHost.Machine

/-- A registry on a machine. The seats are in the order of the numbers of their sessions. -/
structure Floor (ε : Type) where
  setting : Setting
  now : Nat
  registry : Registry ε
  seats : List (SessionId × Seat) := []

namespace Floor

variable {ε : Type}

/-- The seat of a session. -/
def seat (f : Floor ε) (id : SessionId) : Seat := (f.seats.lookup id).getD {}

/-- Changes the seat of a session. -/
def setSeat (f : Floor ε) (id : SessionId) (seat : Seat) : Floor ε :=
  { f with seats := f.seats.map fun e ↦ if e.1 = id then (id, seat) else e }

/-- Makes a session. -/
def create (f : Floor ε) (emulation : ε) : Except SessionError (SessionId × Floor ε) :=
  (f.registry.create emulation).map fun (id, registry) ↦
    (id, { f with registry, seats := f.seats ++ [(id, {})] })

/-- A session on its own. -/
def stage? (f : Floor ε) (id : SessionId) : Option (Stage ε) :=
  (f.registry.get? id).map fun session ↦
    { setting := f.setting, now := f.now, session, seat := f.seat id }

/-- Puts a session back. -/
def put (f : Floor ε) (id : SessionId) (st : Stage ε) : Floor ε :=
  { f.setSeat id st.seat with now := st.now, registry := f.registry.set id st.session }

/-- Lets go of a session that is not in the registry any more. -/
def letGo (f : Floor ε) (id : SessionId) (session : Session ε) : Floor ε :=
  f.setSeat id (Stage.drop ⟨f.setting, f.now, session, f.seat id⟩)

/-- Takes a session out and lets go of it. -/
def remove (f : Floor ε) (id : SessionId) : Option (Session ε × Floor ε) :=
  (f.registry.remove id).map fun (session, registry) ↦
    (session, { f with registry }.letGo id session)

/-- Takes out all sessions that have terminated. -/
def sweep (f : Floor ε) : List SessionId × Floor ε :=
  let (swept, registry) := f.registry.sweep
  (swept.map (·.1), swept.foldl (fun f (id, session) ↦ f.letGo id session) { f with registry })

/-- Lets go of all sessions. -/
def drop (f : Floor ε) : Floor ε :=
  f.registry.sessions.foldl (fun f (id, session) ↦ f.letGo id session) f

/-- Hands out the requests and notifications of all sessions since the last time. -/
def takeNews (f : Floor ε) : List Broker.Mode × List Notification × Floor ε :=
  (f.seats.flatMap (·.2.requests), f.seats.flatMap (·.2.notifications),
    { f with seats := f.seats.map fun (id, seat) ↦ (id, seat.takeNews.2.2) })

/-- Lets what sessions have done become of their seats. -/
def perform (f : Floor ε) (trace : List (SessionId × Effect)) : Floor ε :=
  { f with seats := f.seats.map fun (id, seat) ↦
    (id, seat.performAll (trace.filterMap fun (i, e) ↦ if i = id then some e else none)) }

/-- The floor as it is after a part of the shutdown. -/
def reach (f : Floor ε) (d : Registry.Shutdown ε) : Floor ε :=
  { f.perform d.trace with registry := d.registry }

/-- What a session that is to end waits for next, if there is anything. -/
def next? (f : Floor ε) (d : Registry.Shutdown ε) : Option (SessionId × Session.Wake) :=
  d.waits.findSome? fun (id, w) ↦ do
    let r ← (← d.registry.get? id).running?
    return (id, ← (f.seat id).next? r w f.now)

/-- The next point in time that a session that is to end waits for. -/
def deadline? (d : Registry.Shutdown ε) : Option Nat :=
  (d.waits.flatMap fun (id, w) ↦
    match (d.registry.get? id).bind (·.running?) with
    | some r => Seat.deadlines r w
    | none => []).min?

/-- Whether the session that something happens to does not come through it, because the clock
cannot show a point in time that is asked for. -/
def overflows [Emulation ε] (f : Floor ε) (d : Registry.Shutdown ε) (id : SessionId)
    (wake : Session.Wake) : Bool :=
  match d.waits.lookup id, d.registry.get? id with
  | some w, some s => (s.resume w wake (f.setting.answers f.now)).progress = .ended .overflow
  | _, _ => false

/-- Leads the shutdown on, for at most `fuel` moments; `none` if one of the sessions does not come
through, since the others are given up with it. -/
def shutDown? [Emulation ε] : Nat → Registry.Shutdown ε → Floor ε → Option (Floor ε)
  | 0, _, f => some f
  | fuel + 1, d, f =>
    match f.next? d with
    | some (id, wake) =>
      if f.overflows d id wake then none
      else
        let f := f.setSeat id ((f.seat id).taken wake)
        let d := Registry.Shutdown.resume { d with trace := [] } id wake (f.setting.answers f.now)
        shutDown? fuel d (f.reach d)
    | none =>
      match deadline? d with
      | some t => shutDown? fuel d { f with now := max f.now t }
      | none => some f

/-- Terminates all sessions at once. -/
def terminateAll? [Emulation ε] (f : Floor ε) : Option (Floor ε) :=
  let d := f.registry.terminateAll (f.setting.answers f.now)
  shutDown? Stage.patience d (f.reach d)

end Floor

end PtyHost.Machine
