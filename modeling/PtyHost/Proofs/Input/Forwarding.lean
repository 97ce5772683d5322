import PtyHost.Input.Relay

/-!
# Input arrives whole and in order

Whatever turns a reading thread and its receiver take, what has been received, what is in the
channel, what the thread is about to send and what it would still forward are together always the
same blocks. So the receiver sees the first of them, and all of them when the channel is closed; and
there is always a turn to be taken until then.

Main statements: `forwarded_read`, `Carries.step`, `received_collect` and `input_relayed`.
-/

namespace PtyHost.Input

/-- The data of an offer. -/
def Offer.chunk : Offer → Bytes
  | .data chunk => chunk
  | _ => []

/-- Whether reading stops at an offer. A read of no bytes is the end of input. -/
def Offer.stops : Offer → Bool
  | .data chunk => chunk = []
  | .interrupted => false
  | .failed | .endOfInput => true

/-- The data in front of the first error or end of input. -/
def available (offers : List Offer) : Bytes :=
  (offers.takeWhile fun offer ↦ !offer.stops).flatMap Offer.chunk

/-- The blocks of some data are not empty. -/
theorem ne_nil_of_mem_blocksOf {size : Nat} {chunk block : Bytes} (hsize : size ≠ 0)
    (hchunk : chunk ≠ []) (h : block ∈ blocksOf size chunk) : block ≠ [] := by
  fun_induction blocksOf size chunk with
  | case1 chunk _ =>
    rw [List.mem_singleton] at h
    exact h ▸ hchunk
  | case2 chunk hc ih =>
    rcases List.mem_cons.1 h with rfl | h
    · exact mt List.take_eq_nil_iff.1 (not_or.2 ⟨hsize, hchunk⟩)
    · refine ih (fun hnil ↦ hc (.inr ?_)) h
      exact List.drop_eq_nil_iff.1 hnil

/-- Blocks that are forwarded are not empty and fit into the buffer. -/
theorem of_mem_forwarded {size : Nat} {offers : List Offer} {block : Bytes} (hsize : size ≠ 0)
    (h : block ∈ forwarded size offers) : block ≠ [] ∧ block.length ≤ size := by
  fun_induction forwarded size offers with
  | case1 | case2 | case5 | case6 => cases h
  | case3 chunk rest hchunk ih =>
    rcases List.mem_append.1 h with hfirst | hrest
    · exact ⟨ne_nil_of_mem_blocksOf hsize (not_or.1 hchunk).2 hfirst,
        length_le_of_mem_blocksOf hsize hfirst⟩
    · exact ih hrest
  | case4 rest ih => exact ih h

/-- All the data that is available is forwarded, and nothing else. -/
theorem flatten_forwarded {size : Nat} (hsize : size ≠ 0) (offers : List Offer) :
    (forwarded size offers).flatten = available offers := by
  fun_induction forwarded size offers with
  | case1 => rfl
  | case2 chunk rest h =>
    rw [h.resolve_left hsize]
    rfl
  | case3 chunk rest h ih =>
    have hgoes : Offer.stops (.data chunk) = false := by simpa [Offer.stops] using (not_or.1 h).2
    rw [List.flatten_append, flatten_blocksOf, ih]
    simp [available, hgoes, Offer.chunk]
  | case4 rest ih => exact ih
  | case5 | case6 => rfl

/-- A read leaves the buffer as long as it is. -/
theorem length_buffer_read (buffer : Bytes) (offers : List Offer) :
    (read buffer offers).buffer.length = buffer.length := by
  cases offers with
  | nil => rfl
  | cons offer rest =>
    cases offer with
    | data chunk =>
      simp only [read, List.length_append, List.length_take, List.length_drop]
      omega
    | interrupted | failed | endOfInput => rfl

/-- The blocks that a thread with a buffer would still send at a stage. -/
def Stage.ahead (buffer : Bytes) (offers : List Offer) : Stage → List Bytes
  | .reading => forwarded buffer.length offers
  | .sending count => buffer.take count :: forwarded buffer.length offers
  | .ended => []

/-- Data whose first bytes fill a block is forwarded as that block and as what is left. -/
theorem forwarded_data {size : Nat} {chunk : Bytes} (hsize : size ≠ 0) (hchunk : chunk ≠ [])
    (rest : List Offer) :
    forwarded size (.data chunk :: rest) =
      chunk.take size ::
        forwarded size
          (if chunk.drop size = [] then rest else .data (chunk.drop size) :: rest) := by
  rw [forwarded, if_neg (not_or.2 ⟨hsize, hchunk⟩), blocksOf]
  by_cases hfits : chunk.length ≤ size
  · rw [dif_pos (.inr hfits), if_pos (List.drop_eq_nil_iff.2 hfits), List.take_of_length_le hfits]
    rfl
  · have hleft : chunk.drop size ≠ [] := mt List.drop_eq_nil_iff.1 hfits
    rw [dif_neg (not_or.2 ⟨hsize, hfits⟩), if_neg hleft, forwarded,
      if_neg (not_or.2 ⟨hsize, hleft⟩), List.cons_append]

/-- What is to be forwarded before a read is what the thread is about to send after it. -/
theorem forwarded_read (buffer : Bytes) (offers : List Offer) :
    forwarded buffer.length offers =
      (Stage.after (read buffer offers).reading).ahead (read buffer offers).buffer
        (read buffer offers).offers := by
  cases offers with
  | nil => rfl
  | cons offer rest =>
    cases offer with
    | interrupted | failed | endOfInput => rfl
    | data chunk =>
      by_cases hnone : chunk.take buffer.length = []
      · have hended : buffer.length = 0 ∨ chunk = [] := List.take_eq_nil_iff.1 hnone
        simp only [read, hnone, List.length_nil, Stage.after, Stage.ahead]
        rw [forwarded, if_pos hended]
      · obtain ⟨hsize, hchunk⟩ := not_or.1 (mt List.take_eq_nil_iff.2 hnone)
        have hlength := length_buffer_read buffer (.data chunk :: rest)
        obtain ⟨count, hcount⟩ : ∃ count, (chunk.take buffer.length).length = count + 1 :=
          Nat.exists_eq_succ_of_ne_zero (mt List.length_eq_zero_iff.1 hnone)
        have hsending : Stage.after (read buffer (.data chunk :: rest)).reading =
            .sending (chunk.take buffer.length).length := by
          simp only [read, hcount, Stage.after]
        rw [hsending, Stage.ahead, hlength, forwarded_data hsize hchunk]
        simp only [read, List.take_left]

namespace Relay

variable {size : Nat} {blocks : List Bytes} {r next : Relay} {turn : Turn}

/-- The blocks that the thread would still send. -/
def ahead (r : Relay) : List Bytes := r.stage.ahead r.buffer r.offers

/-- A relay that carries blocks: as long as there is a receiver, what it has, what is in the channel
and what is ahead are these; what it has are the first of them; and the channel is not overfull. -/
structure Carries (blocks : List Bytes) (r : Relay) : Prop where
  whole : r.listening = true → r.received ++ (r.channel ++ r.ahead) = blocks
  received : r.received <+: blocks
  deaf : r.listening = false → r.channel = []
  room : r.channel.length ≤ channelCapacity

/-- A relay carries what is forwarded from its beginning on. -/
theorem Carries.start (size : Nat) (offers : List Offer) :
    Carries (forwarded size offers) (start size offers) where
  whole := by
    intro _
    show forwarded (List.replicate size 0).length offers = forwarded size offers
    rw [List.length_replicate]
  received := List.nil_prefix
  deaf := fun _ ↦ rfl
  room := Nat.zero_le _

/-- Every turn leaves it the same blocks that are carried. -/
theorem Carries.step (h : Carries blocks r) (htaken : r.Takes turn next) :
    Carries blocks next := by
  cases htaken with
  | read stage =>
    refine ⟨fun listening ↦ ?_, h.received, h.deaf, h.room⟩
    rw [← h.whole listening, ahead, ahead, stage]
    show _ = r.received ++ (r.channel ++ forwarded r.buffer.length r.offers)
    rw [forwarded_read]
  | refused stage deaf =>
    refine ⟨fun listening ↦ ?_, h.received, h.deaf, h.room⟩
    cases deaf.symm.trans listening
  | sent stage listening room =>
    refine ⟨fun _ ↦ ?_, h.received, fun deaf ↦ ?_, ?_⟩
    · rw [← h.whole listening, ahead, ahead, stage, List.append_assoc]
      rfl
    · cases listening.symm.trans deaf
    · rw [List.length_append]
      exact room
  | received listening channel =>
    have hwhole := h.whole listening
    have hroom := h.room
    rw [channel, List.cons_append, List.append_cons] at hwhole
    rw [channel] at hroom
    refine ⟨fun _ ↦ hwhole, ⟨_, hwhole⟩, fun deaf ↦ ?_, Nat.le_of_succ_le hroom⟩
    cases listening.symm.trans deaf
  | hungUp =>
    refine ⟨fun listening ↦ ?_, h.received, fun _ ↦ rfl, Nat.zero_le _⟩
    cases listening

/-- All turns leave it the same blocks that are carried. -/
theorem Carries.run (h : Carries blocks r) (turns : List Turn) : Carries blocks (r.run turns) := by
  induction turns generalizing r with
  | nil => exact h
  | cons turn turns ih =>
    show Carries blocks (((r.step? turn).getD r).run turns)
    cases hstep : r.step? turn with
    | none => exact ih h
    | some next => exact ih (h.step (takes_of_step? hstep))

/-- A receiver that learns that nothing more will come has everything. -/
theorem Carries.received_of_isClosed (h : Carries blocks r) (hlistening : r.listening = true)
    (hclosed : r.isClosed = true) : r.received = blocks := by
  obtain ⟨hended, hempty⟩ : r.stage = .ended ∧ r.channel = [] := by
    simpa [isClosed] using hclosed
  rw [← h.whole hlistening, hempty, ahead, hended]
  exact (List.append_nil _).symm

/-- Somebody can take a turn, other than by hanging up, until the channel is closed. -/
theorem Carries.next?_eq_none_iff (h : Carries blocks r) :
    r.next? = none ↔ r.isClosed = true := by
  simp only [next?, Option.or_eq_none_iff, isClosed, Bool.and_eq_true, decide_eq_true_eq]
  constructor
  · rintro ⟨hreceive, hsend, hread⟩
    have hempty : r.channel = [] := by
      cases hlistening : r.listening with
      | false => exact h.deaf hlistening
      | true =>
        cases hchannel : r.channel with
        | nil => rfl
        | cons block rest => simp [step?, hlistening, hchannel] at hreceive
    refine ⟨?_, hempty⟩
    cases hstage : r.stage with
    | ended => rfl
    | reading => simp [step?, hstage] at hread
    | sending count =>
      cases hlistening : r.listening <;>
        simp [step?, hstage, hlistening, hempty, channelCapacity] at hsend
  · rintro ⟨hended, hempty⟩
    simp [step?, hended, hempty]

/-- Only hanging up takes the receiver away. -/
theorem Takes.listening_eq (h : r.Takes turn next) (hturn : turn ≠ .hangUp) :
    next.listening = r.listening := by
  cases h with
  | hungUp => exact absurd rfl hturn
  | read | refused | sent | received => rfl

/-- One block at most is received in a turn. -/
theorem Takes.length_received_le (h : r.Takes turn next) :
    next.received.length ≤ r.received.length + 1 := by
  cases h with
  | received => exact Nat.le_of_eq List.length_append
  | read | refused | sent | hungUp => exact Nat.le_succ _

/-- A receiver that takes a number of blocks has the first of those that are forwarded, or all of
them if there are no more. -/
theorem Carries.received_collect {limit : Option Nat} (h : Carries blocks r)
    (hlistening : r.listening = true) (hlimit : ∀ k, limit = some k → r.received.length ≤ k) :
    (collect limit r).received = limit.elim blocks blocks.take := by
  fun_induction collect limit r with
  | case1 r hreached =>
    obtain rfl := hreached
    exact (List.prefix_iff_eq_take.1 h.received)
  | case2 r hgoing next hnext ih =>
    obtain ⟨turn, hturn, hstep⟩ := exists_of_next? hnext
    have htaken := takes_of_step? hstep
    refine ih (h.step htaken) ((htaken.listening_eq hturn).trans hlistening) ?_
    rintro k rfl
    have hless : r.received.length < k :=
      Nat.lt_of_le_of_ne (hlimit k rfl) fun hk ↦ hgoing (congrArg some hk.symm)
    exact Nat.le_trans htaken.length_received_le hless
  | case3 r hgoing hnext =>
    have hwhole := h.received_of_isClosed hlistening (h.next?_eq_none_iff.1 hnext)
    cases limit with
    | none => exact hwhole
    | some k =>
      show r.received = blocks.take k
      rw [← hwhole, List.take_of_length_le (hlimit k rfl)]

/-- How many of some turns it was the time for. -/
def effective (r : Relay) : List Turn → Nat
  | [] => 0
  | turn :: turns =>
    match r.step? turn with
    | some next => effective next turns + 1
    | none => effective r turns

/-- It is not the time for more turns than there is work. -/
theorem effective_le_work (r : Relay) (turns : List Turn) : effective r turns ≤ r.work := by
  induction turns generalizing r with
  | nil => exact Nat.zero_le _
  | cons turn turns ih =>
    rw [effective]
    split
    · next next hstep => exact Nat.lt_of_le_of_lt (ih next) (takes_of_step? hstep).work_lt
    · exact ih r

/-- Input arrives whole and in order. The blocks that are forwarded of what a reader offers are not
empty, fit into the buffer, and are together the data in front of the first error or end of input.
Whatever turns the thread and the receiver take, the receiver has seen just the first of these
blocks, as many as it has received, and all of them once it learns that nothing more will come.
There is a turn to be taken until then, and no more than a bounded number of turns in all. So a
receiver that goes on gets all the blocks, and one that stops after a number of blocks has seen
these. -/
theorem input_relayed {size : Nat} (hsize : 0 < size) (offers : List Offer) :
    (∀ block ∈ forwarded size offers, block ≠ [] ∧ block.length ≤ size) ∧
      (forwarded size offers).flatten = available offers ∧
      (∀ turns : List Turn,
        let r := (start size offers).run turns
        r.received = (forwarded size offers).take r.received.length ∧
        (r.listening = true → r.isClosed = true → r.received = forwarded size offers) ∧
        ((∀ turn, turn ≠ .hangUp → r.step? turn = none) ↔ r.isClosed = true) ∧
        effective (start size offers) turns ≤ (start size offers).work) ∧
      (collect none (start size offers)).received = forwarded size offers ∧
      ∀ k, (collect (some k) (start size offers)).received = (forwarded size offers).take k := by
  have hpositive : size ≠ 0 := Nat.ne_of_gt hsize
  have hstart := Carries.start size offers
  refine ⟨fun _ ↦ of_mem_forwarded hpositive, flatten_forwarded hpositive offers, ?_,
    hstart.received_collect rfl (by simp), fun k ↦ hstart.received_collect rfl ?_⟩
  · intro turns r
    have hr : Carries (forwarded size offers) r := hstart.run turns
    refine ⟨List.prefix_iff_eq_take.1 hr.received, hr.received_of_isClosed, ?_,
      effective_le_work _ turns⟩
    rw [← hr.next?_eq_none_iff]
    constructor
    · intro hnone
      simp [next?, hnone]
    · intro hnone turn hturn
      simp only [next?, Option.or_eq_none_iff] at hnone
      cases turn with
      | receive => exact hnone.1
      | send => exact hnone.2.1
      | read => exact hnone.2.2
      | hangUp => exact absurd rfl hturn
  · intro _ _
    exact Nat.zero_le _

/-- A receiver hangs up while the thread is about to send, and another stops after two blocks. What
is behind the error is not forwarded to anybody. -/
theorem input_relayed_hung_up :
    let offers : List Offer := [.data [1, 2, 3], .interrupted, .data [4], .failed, .data [5]]
    0 < 2 ∧ forwarded 2 offers = [[1, 2], [3], [4]] ∧ available offers = [1, 2, 3, 4] ∧
      ((start 2 offers).run [.read, .send, .read, .receive, .hangUp, .send, .read]).received =
        [[1, 2]] ∧
      (collect (some 2) (start 2 offers)).received = [[1, 2], [3]] := by
  intro offers
  have hforwarded : forwarded 2 offers = [[1, 2], [3], [4]] := by simp [offers, forwarded, blocksOf]
  obtain ⟨-, hflatten, hturns, -, hsome⟩ := @input_relayed 2 (by decide) offers
  rw [hforwarded] at hflatten hturns hsome
  refine ⟨by decide, hforwarded, hflatten.symm, ?_, hsome 2⟩
  exact (hturns [.read, .send, .read, .receive, .hangUp, .send, .read]).1.trans (by decide)

end Relay

end PtyHost.Input
