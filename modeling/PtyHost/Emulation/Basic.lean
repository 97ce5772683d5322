import PtyHost.Text.Bytes
import PtyHost.WindowSize

/-!
# Terminal emulations

A session hands every block of output to an emulation and then acts on the events that it has
reported. What is drawn on a screen is not a session's business.
-/

namespace PtyHost

namespace Emulation

/-- What an emulation wants of its session: bytes sent to the program, a title with the number of
its kind, another window size, a bell, or the output held back or let go. -/
inductive Event
  | write (data : Bytes)
  | userTitle (what : UInt16) (caption : String)
  | sizeRequest (size : WindowSize)
  | bell
  | lock (locked : Bool)
deriving DecidableEq, Repr

end Emulation

/-- A consumer of terminal output. `takeEvents` hands out the events reported since it was last
asked, the oldest first; `resized` and `scrollLock` tell of what the user did. -/
class Emulation (ε : Type) where
  receive : ε → Bytes → ε
  takeEvents : ε → List Emulation.Event × ε
  resized : ε → WindowSize → ε
  scrollLock : ε → Bool → ε

namespace Emulation

/-- An emulation that drops all output and ignores the user. -/
structure Discard where
deriving DecidableEq, Repr

instance : Emulation Discard where
  receive d _ := d
  takeEvents d := ([], d)
  resized d _ := d
  scrollLock d _ := d

/-- One of two kinds of emulation. -/
instance {ε δ : Type} [Emulation ε] [Emulation δ] : Emulation (ε ⊕ δ) where
  receive e block := e.map (Emulation.receive · block) (Emulation.receive · block)
  takeEvents
    | .inl e => (takeEvents e).map id .inl
    | .inr e => (takeEvents e).map id .inr
  resized e size := e.map (Emulation.resized · size) (Emulation.resized · size)
  scrollLock e locked := e.map (Emulation.scrollLock · locked) (Emulation.scrollLock · locked)

end Emulation

end PtyHost
