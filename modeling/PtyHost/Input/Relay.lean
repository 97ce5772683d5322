import PtyHost.Input.Reader

/-!
# The thread that reads input

Input is read by a thread of its own, into a buffer that is used again for each read. What was read
is sent into a channel, and a receiver takes it out at the other end. The channel holds a few blocks
only, and the thread waits while it is full. The thread ends at the end of input, at an error, and
once the receiver has hung up. Thread and receiver take their turns in any order.

Main statements: `takes_of_step?`, what a turn can do, and `Takes.work_lt`, by which every turn
brings a relay closer to its end.
-/

namespace PtyHost.Input

/-- What a read comes to: a number of bytes at the front of the buffer, an interruption or an error.
A read of no bytes is the end of input. -/
inductive Reading
  | data (count : Nat)
  | interrupted
  | failed
deriving DecidableEq, Repr

/-- A read: what it has come to, what the buffer holds after it, and what there is still to read. -/
structure Read where
  reading : Reading
  buffer : Bytes
  offers : List Offer
deriving DecidableEq, Repr

/-- Reads into a buffer. Data takes the place of what was at the front of the buffer, and what does
not fit is left for the next read. -/
def read (buffer : Bytes) : List Offer → Read
  | [] => ⟨.data 0, buffer, []⟩
  | .data chunk :: rest =>
    let block := chunk.take buffer.length
    let left := chunk.drop buffer.length
    { reading := .data block.length
      buffer := block ++ buffer.drop block.length
      offers := if left = [] then rest else .data left :: rest }
  | .interrupted :: rest => ⟨.interrupted, buffer, rest⟩
  | .failed :: rest => ⟨.failed, buffer, rest⟩
  | .endOfInput :: rest => ⟨.data 0, buffer, rest⟩

/-- What the thread is about to do: read, send the bytes at the front of the buffer, or nothing any
more. -/
inductive Stage
  | reading
  | sending (count : Nat)
  | ended
deriving DecidableEq, Repr

/-- What the thread does after a read. -/
def Stage.after : Reading → Stage
  | .data 0 => .ended
  | .data count => .sending count
  | .interrupted => .reading
  | .failed => .ended

/-- The most blocks that wait in the channel. -/
def channelCapacity : Nat := 16

/-- A relay of input: what there is still to read, the buffer, what the thread is about to do, the
blocks in the channel, the oldest first, those that have been received, and whether there still is a
receiver. -/
structure Relay where
  offers : List Offer
  buffer : Bytes
  stage : Stage := .reading
  channel : List Bytes := []
  received : List Bytes := []
  listening : Bool := true
deriving DecidableEq, Repr

namespace Relay

/-- A relay with a buffer of `size` bytes. -/
def start (size : Nat) (offers : List Offer) : Relay where
  offers
  buffer := List.replicate size 0

/-- A turn: of the thread, which reads or sends, or of the receiver, which takes a block or hangs
up. -/
inductive Turn
  | read
  | send
  | receive
  | hangUp
deriving DecidableEq, Repr

/-- Takes a turn; `none` if it is not the time for it. Sending waits for room in the channel, and
fails when the receiver has hung up; receiving waits for a block. -/
def step? (r : Relay) : Turn → Option Relay
  | .read =>
    match r.stage with
    | .reading =>
      let next := Input.read r.buffer r.offers
      some { r with
        offers := next.offers, buffer := next.buffer, stage := Stage.after next.reading }
    | _ => none
  | .send =>
    match r.stage with
    | .sending count =>
      if !r.listening then some { r with stage := .ended }
      else if r.channel.length < channelCapacity then
        some { r with stage := .reading, channel := r.channel ++ [r.buffer.take count] }
      else none
    | _ => none
  | .receive =>
    match r.listening, r.channel with
    | true, block :: rest =>
      some { r with channel := rest, received := r.received ++ [block] }
    | _, _ => none
  | .hangUp => if r.listening then some { r with listening := false, channel := [] } else none

/-- Takes turns, one after the other. What is not the time for it is left out. -/
def run (r : Relay) (turns : List Turn) : Relay :=
  turns.foldl (fun r turn ↦ (r.step? turn).getD r) r

/-- Whether the receiver learns that nothing more will come. -/
def isClosed (r : Relay) : Bool := r.stage = .ended && r.channel = []

/-- The relay after the next turn, if nobody hangs up: blocks are received as soon as they are
there. -/
def next? (r : Relay) : Option Relay :=
  (r.step? .receive).or ((r.step? .send).or (r.step? .read))

/-- An upper bound for the reads that an offer is good for. -/
def readsOf : Offer → Nat
  | .data chunk => chunk.length + 1
  | _ => 1

/-- An upper bound for the reads that offers are good for. -/
def reads : List Offer → Nat
  | [] => 0
  | offer :: rest => readsOf offer + reads rest

/-- The work that is left for the thread at hand. -/
def Stage.work : Stage → Nat
  | .reading => 1
  | .sending _ => 3
  | .ended => 0

/-- An upper bound for the turns that are left. -/
def work (r : Relay) : Nat :=
  3 * reads r.offers + Stage.work r.stage + r.channel.length + r.listening.toNat

/-- A read leaves less to be read, unless it is the last. -/
theorem reads_read (buffer : Bytes) (offers : List Offer) :
    reads (read buffer offers).offers ≤ reads offers ∧
      (Stage.after (read buffer offers).reading ≠ .ended →
        reads (read buffer offers).offers < reads offers) := by
  cases offers with
  | nil => exact ⟨Nat.le_refl _, fun h ↦ absurd rfl h⟩
  | cons offer rest =>
    cases offer with
    | data chunk =>
      have hlength : (chunk.drop buffer.length).length = chunk.length - buffer.length :=
        List.length_drop
      simp only [read, reads, readsOf]
      split
      · exact ⟨Nat.le_add_left _ _, fun _ ↦ by omega⟩
      · next hleft =>
        have hpositive := List.length_pos_iff.2 hleft
        rw [reads, readsOf, hlength]
        refine ⟨by omega, fun h ↦ ?_⟩
        have htaken : (chunk.take buffer.length).length ≠ 0 := by
          intro hzero
          rw [hzero] at h
          exact h rfl
        rw [List.length_take] at htaken
        omega
    | interrupted | failed | endOfInput =>
      simp only [read, reads, readsOf]
      exact ⟨by omega, fun _ ↦ by omega⟩

/-- What a turn does to a relay. -/
inductive Takes (r : Relay) : Turn → Relay → Prop
  | read (stage : r.stage = .reading) :
      Takes r .read
        { r with
          offers := (Input.read r.buffer r.offers).offers
          buffer := (Input.read r.buffer r.offers).buffer
          stage := Stage.after (Input.read r.buffer r.offers).reading }
  | refused {count : Nat} (stage : r.stage = .sending count) (deaf : r.listening = false) :
      Takes r .send { r with stage := .ended }
  | sent {count : Nat} (stage : r.stage = .sending count) (listening : r.listening = true)
      (room : r.channel.length < channelCapacity) :
      Takes r .send
        { r with stage := .reading, channel := r.channel ++ [r.buffer.take count] }
  | received {block : Bytes} {rest : List Bytes} (listening : r.listening = true)
      (channel : r.channel = block :: rest) :
      Takes r .receive { r with channel := rest, received := r.received ++ [block] }
  | hungUp (listening : r.listening = true) :
      Takes r .hangUp { r with listening := false, channel := [] }

/-- A turn that is taken does what such a turn does. -/
theorem takes_of_step? {r next : Relay} {turn : Turn} (h : r.step? turn = some next) :
    r.Takes turn next := by
  cases turn with
  | read =>
    rw [step?] at h
    split at h
    · next stage => exact Option.some.inj h ▸ .read stage
    · cases h
  | send =>
    rw [step?] at h
    split at h
    · next count stage =>
      split at h
      · next deaf => exact Option.some.inj h ▸ .refused stage (by simpa using deaf)
      next listening =>
      split at h
      · next room => exact Option.some.inj h ▸ .sent stage (by simpa using listening) room
      · cases h
    · cases h
  | receive =>
    rw [step?] at h
    split at h
    · next listening channel => exact Option.some.inj h ▸ .received listening channel
    · cases h
  | hangUp =>
    rw [step?] at h
    split at h
    · next listening => exact Option.some.inj h ▸ .hungUp listening
    · cases h

/-- Every turn brings a relay closer to its end. -/
theorem Takes.work_lt {r next : Relay} {turn : Turn} (h : r.Takes turn next) :
    next.work < r.work := by
  cases h with
  | read stage =>
    obtain ⟨hle, hlt⟩ := reads_read r.buffer r.offers
    simp only [work, stage]
    cases hafter : Stage.after (Input.read r.buffer r.offers).reading with
    | ended =>
      simp only [Stage.work]
      omega
    | reading | sending =>
      have hless := hlt (by simp [hafter])
      simp only [Stage.work]
      omega
  | refused stage =>
    simp only [work, stage, Stage.work]
    omega
  | sent stage =>
    simp only [work, stage, Stage.work, List.length_append, List.length_singleton]
    omega
  | received _ channel =>
    simp only [work, channel, List.length_cons]
    omega
  | hungUp listening =>
    simp only [work, listening, List.length_nil, Bool.toNat_true, Bool.toNat_false]
    omega

/-- What comes next is one of the turns. -/
theorem exists_of_next? {r next : Relay} (h : r.next? = some next) :
    ∃ turn, turn ≠ .hangUp ∧ r.step? turn = some next := by
  unfold next? at h
  rcases Option.or_eq_some_iff.1 h with hreceive | ⟨-, h⟩
  · exact ⟨.receive, by simp, hreceive⟩
  rcases Option.or_eq_some_iff.1 h with hsend | ⟨-, hread⟩
  · exact ⟨.send, by simp, hsend⟩
  · exact ⟨.read, by simp, hread⟩

/-- Receives until the channel is closed, or until a number of blocks have been received. -/
def collect (limit : Option Nat) (r : Relay) : Relay :=
  if limit = some r.received.length then r
  else
    match _h : r.next? with
    | some next => collect limit next
    | none => r
termination_by r.work
decreasing_by
  obtain ⟨_, _, hstep⟩ := exists_of_next? _h
  exact (takes_of_step? hstep).work_lt

end Relay

end PtyHost.Input
