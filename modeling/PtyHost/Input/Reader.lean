import PtyHost.Text.Bytes

/-!
# Forwarding input

Input is read into a buffer and forwarded in blocks, one for each read. A reader that is
interrupted is asked again; at the end of input, or at an error, forwarding stops.
-/

namespace PtyHost.Input

/-- What a reader has to offer next: data, of which a read takes what fits into the buffer, or an
interruption, an error or the end of input. -/
inductive Offer
  | data (chunk : Bytes)
  | interrupted
  | failed
  | endOfInput
deriving DecidableEq, Repr

/-- The blocks in which a chunk of data is read into a buffer of `size` bytes. -/
def blocksOf (size : Nat) (chunk : Bytes) : List Bytes :=
  if _h : size = 0 ∨ chunk.length ≤ size then [chunk]
  else chunk.take size :: blocksOf size (chunk.drop size)
termination_by chunk.length
decreasing_by
  rw [List.length_drop]
  omega

/-- The blocks that are forwarded from a reader. A read of no bytes is the end of input. -/
def forwarded (size : Nat) : List Offer → List Bytes
  | [] => []
  | .data chunk :: rest =>
    if size = 0 ∨ chunk = [] then [] else blocksOf size chunk ++ forwarded size rest
  | .interrupted :: rest => forwarded size rest
  | .failed :: _ => []
  | .endOfInput :: _ => []

/-- Cutting into blocks loses nothing. -/
theorem flatten_blocksOf (size : Nat) (chunk : Bytes) : (blocksOf size chunk).flatten = chunk := by
  fun_induction blocksOf size chunk with
  | case1 => simp
  | case2 chunk _ ih => simp [ih]

/-- A block fits into the buffer. -/
theorem length_le_of_mem_blocksOf {size : Nat} {chunk block : Bytes} (hsize : size ≠ 0)
    (h : block ∈ blocksOf size chunk) : block.length ≤ size := by
  fun_induction blocksOf size chunk with
  | case1 chunk hc =>
    rw [List.mem_singleton] at h
    subst h
    exact hc.resolve_left hsize
  | case2 chunk hc ih =>
    rcases List.mem_cons.1 h with rfl | h
    · exact List.length_take_le size chunk
    · exact ih h

end PtyHost.Input
