import PtyHost.Text.Bytes

/-!
# Where output is copied to

A sink keeps what is written to it. A sink may also be broken, so that writing to it or flushing
it fails.
-/

namespace PtyHost

/-- What a sink refuses. -/
inductive Sink.Refusal
  | nothing
  | writes
  | flushes
deriving DecidableEq, Repr

/-- A sink with the blocks written to it, the newest first. -/
structure Sink where
  refusal : Sink.Refusal := .nothing
  blocks : List Bytes := []
deriving DecidableEq, Repr

namespace Sink

/-- All that was written, in order. -/
def contents (s : Sink) : Bytes := s.blocks.reverse.flatten

/-- Whether a block can be written; there is nothing to refuse about an empty one. -/
def accepts (s : Sink) (block : Bytes) : Bool := block = [] || s.refusal ≠ .writes

/-- Writes a block, unless the sink refuses it. -/
def write (s : Sink) (block : Bytes) : Sink :=
  if s.accepts block then { s with blocks := block :: s.blocks } else s

/-- A block that is accepted is added at the end. -/
theorem contents_write {s : Sink} {block : Bytes} (h : s.accepts block) :
    (s.write block).contents = s.contents ++ block := by
  simp [write, h, contents]

end Sink

end PtyHost
