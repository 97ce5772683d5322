import PtyHost.Emulation.Basic

/-!
# Probes

An emulation that is wrapped to be watched: it records what the session tells it, and reports
events that are put into it after its own.
-/

namespace PtyHost.Machine

/-- What a session tells an emulation: that the window has another size, or that scroll lock was
toggled. -/
inductive Told
  | resized (size : WindowSize)
  | scrollLock (locked : Bool)
deriving DecidableEq, Repr

/-- An emulation with the events put into it and with what it was told, the oldest first. -/
structure Probe (ε : Type) where
  inner : ε
  injected : List Emulation.Event := []
  told : List Told := []
deriving DecidableEq, Repr

namespace Probe

variable {ε : Type}

/-- Puts events into the emulation, which reports them when it is asked next. -/
def inject (p : Probe ε) (events : List Emulation.Event) : Probe ε :=
  { p with injected := p.injected ++ events }

/-- Hands out what the emulation was told. -/
def takeTold (p : Probe ε) : List Told × Probe ε := (p.told, { p with told := [] })

instance [Emulation ε] : Emulation (Probe ε) where
  receive p block := { p with inner := Emulation.receive p.inner block }
  takeEvents p :=
    let (events, inner) := Emulation.takeEvents p.inner
    (events ++ p.injected, { p with inner, injected := [] })
  resized p size :=
    { p with inner := Emulation.resized p.inner size, told := p.told ++ [.resized size] }
  scrollLock p locked :=
    { p with inner := Emulation.scrollLock p.inner locked, told := p.told ++ [.scrollLock locked] }

end Probe

end PtyHost.Machine
