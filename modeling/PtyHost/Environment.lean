import PtyHost.Text.Utf8

/-!
# Environments

The environment of a process: a list of variables, each with one value.
-/

namespace PtyHost

/-- The variables of a process. Of several entries with one name the first counts. -/
structure Environment where
  entries : List (Bytes × Bytes) := []
deriving DecidableEq, Repr

namespace Environment

/-- The value of a variable, if it is set. -/
def get? (e : Environment) (name : Bytes) : Option Bytes := e.entries.lookup name

/-- The value of a variable, if it is set to valid text. -/
def text? (e : Environment) (name : String) : Option String :=
  (e.get? (Utf8.encode name)).bind Utf8.decode?

/-- The environment without a variable. -/
def unset (e : Environment) (name : Bytes) : Environment :=
  ⟨e.entries.filter fun v ↦ v.1 ≠ name⟩

/-- The environment with another value for a variable. -/
def set (e : Environment) (name value : Bytes) : Environment :=
  ⟨(name, value) :: (e.unset name).entries⟩

end Environment

end PtyHost
