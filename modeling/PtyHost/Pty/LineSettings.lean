/-!
# Line settings

What the line discipline of a terminal does with what is typed: what is asked for, and what the
terminal keeps.
-/

namespace PtyHost.Pty

/-- Whether the flow control characters are honoured, whether input is UTF-8, so that a whole
character is erased at a time, and the erase character if it is not the usual one. -/
structure LineSettings where
  xonXoff : Bool := false
  utf8 : Bool := true
  erase : Option UInt8 := none
deriving DecidableEq, Repr

/-- What a terminal keeps: whether it stops its output when asked to, whether it asks for a stop
when its input is full, whether input is UTF-8, and the erase character. A fresh terminal honours
requests to stop and erases with the delete character. -/
structure LineState where
  ixon : Bool := true
  ixoff : Bool := false
  iutf8 : Bool := false
  erase : UInt8 := 127
deriving DecidableEq, Repr

/-- The state of a terminal that was set up. Flow control works in both directions or in none. -/
def LineState.configured (l : LineState) (s : LineSettings) : LineState where
  ixon := s.xonXoff
  ixoff := s.xonXoff
  iutf8 := s.utf8
  erase := s.erase.getD l.erase

end PtyHost.Pty
