/-!
# Modes of the permission helper

The helper does one of two things, and its command line says which. It takes no other argument,
so that no caller can name a device to it.
-/

namespace PtyHost.Broker

/-- Whether a slave is attributed to the caller or released. -/
inductive Mode
  | grant
  | revoke
deriving DecidableEq, Repr

namespace Mode

/-- The flag that selects a mode. -/
def flag : Mode → String
  | .grant => "--grant"
  | .revoke => "--revoke"

end Mode

end PtyHost.Broker
