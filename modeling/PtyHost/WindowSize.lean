/-!
# Window sizes

The geometry of a terminal in character cells.
-/

namespace PtyHost

/-- Rows and columns of a terminal. -/
structure WindowSize where
  rows : UInt16
  cols : UInt16
deriving DecidableEq, Repr

namespace WindowSize

/-- Whether the terminal shows nothing at all. -/
def isEmpty (s : WindowSize) : Bool := s.rows = 0 || s.cols = 0

/-- A size in words, as in `24x80`. -/
def display (s : WindowSize) : String := s!"{s.rows}x{s.cols}"

end WindowSize

end PtyHost
