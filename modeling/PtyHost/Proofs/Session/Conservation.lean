import PtyHost.Proofs.Session.Passage

/-!
# Where the output of a program is

The output of a program waits in its terminal until it is read, in blocks of any size, and each
block that is read goes to the emulation, unless the session does not come through the step. A scene
is a course of a session together with the terminal that its program writes to. The program may
close its side and open it again, but a session that has seen the end of all output does not read
any more.

Main statements: `Accounted` says where each byte is, and `accounted_run` that every byte is
accounted for throughout a scene. `Course.overflows_output_iff` says when a block is lost, and
`sealed_run` that a program which does not open its side again has nothing unread after the end of
its output was seen.
-/

namespace PtyHost

namespace Emulation

/-- An emulation that keeps a record of the output that it was handed. -/
structure Recorded (ε : Type) where
  inner : ε
  received : Bytes := []
deriving DecidableEq, Repr

instance {ε : Type} [Emulation ε] : Emulation (Recorded ε) where
  receive e block := ⟨Emulation.receive e.inner block, e.received ++ block⟩
  takeEvents e := ((takeEvents e.inner).1, ⟨(takeEvents e.inner).2, e.received⟩)
  resized e size := ⟨Emulation.resized e.inner size, e.received⟩
  scrollLock e locked := ⟨Emulation.scrollLock e.inner locked, e.received⟩

end Emulation

namespace Session

/-- A block that was read, and whether it was lost because the session did not come through. -/
structure Reading where
  block : Bytes
  lost : Bool
deriving DecidableEq, Repr

/-- What has been handed to the emulation of a block that was read. -/
def Reading.handed (r : Reading) : Bytes := if r.lost then [] else r.block

/-- The output of a program and a session that reads it: all that was written, what of it has not
been read, whether the program's side is closed, the blocks that were read, the oldest first,
whether the collecting of the rest was ended by something other than the end of all output, and what
had been written when the end of all output was first seen, if it was. -/
structure Scene (ε : Type) where
  course : Course (Emulation.Recorded ε)
  written : Bytes := []
  unread : Bytes := []
  closed : Bool := false
  readings : List Reading := []
  curtailed : Bool := false
  finale : Option Bytes := none

/-- What happens in a scene: the program writes, closes its side or opens it again, or a move of the
session. -/
inductive Turn
  | write (data : Bytes)
  | close
  | reopen
  | move (m : Move)

namespace Course

variable {ε : Type}

/-- The block of output that is read in a move. -/
def block? (c : Course ε) (m : Move) : Option Bytes :=
  match c.heard? m with
  | some (.output block) => some block
  | _ => none

/-- Whether the rest of the output is being collected. -/
def isDraining (c : Course ε) : Bool :=
  match c.waiting with
  | some (.draining ..) => true
  | _ => false

/-- Whether a move ends the collecting of the rest of the output because it has taken too long, or
because of a failure to read. -/
def curtails (c : Course ε) (m : Move) : Bool :=
  match c.heard? m with
  | some .drainOver | some (.readFailed _) => c.isDraining
  | _ => false

/-- What is read is heard. -/
theorem block?_eq_some_iff {c : Course ε} {m : Move} {block : Bytes} :
    c.block? m = some block ↔ c.heard? m = some (.output block) := by
  unfold block?
  split
  · next other h => simp [h]
  · next hnot =>
    constructor
    · intro h
      cases h
    · intro h
      exact absurd h (hnot block)

/-- Nothing is read if something else is heard. -/
theorem block?_eq_none {c : Course ε} {m : Move} (h : ∀ block, c.heard? m ≠ some (.output block)) :
    c.block? m = none := by
  rw [Option.eq_none_iff_forall_ne_some]
  intro block hblock
  exact h block (block?_eq_some_iff.1 hblock)

/-- A block is read of a running program whose output may be read, and which is not locked unless
the rest of it is being collected. -/
theorem reads_of_block? {c : Course ε} {m : Move} {block : Bytes} (h : c.block? m = some block) :
    ∃ r, c.session.current? = some r ∧ r.readOpen = true ∧ block ≠ [] ∧
      (c.isDraining = false → r.locked = false) := by
  obtain ⟨a, r, w, -, hr, hw, henabled⟩ := heard?_eq_some_iff.1 (block?_eq_some_iff.1 h)
  refine ⟨r, hr, ?_⟩
  unfold isDraining
  rw [hw]
  cases w with
  | dispatching g =>
    simp only [enables, Bool.and_eq_true, Bool.not_eq_true', decide_eq_true_eq] at henabled
    obtain ⟨⟨⟨hopen, hlocked⟩, hblock⟩, -⟩ := henabled
    exact ⟨hopen, hblock, fun _ ↦ hlocked⟩
  | draining status deadline =>
    simp only [enables, Bool.and_eq_true, decide_eq_true_eq] at henabled
    obtain ⟨⟨hopen, hblock⟩, -⟩ := henabled
    refine ⟨hopen, hblock, ?_⟩
    intro h
    cases h

end Course

namespace Scene

variable {ε : Type}

/-- A scene in which nothing has happened. -/
def start (id : SessionId) (options : SessionOptions) (e : ε) : Scene ε where
  course := .start (.new id options ⟨e, []⟩)

/-- Whether something may happen: a program writes on its side and closes it while it is open, and
may open it again when it is closed, as long as the session is running; what is read is the oldest
of what was not read; and output ends when all of it was read and the program's side is closed. -/
def allows (s : Scene ε) : Turn → Bool
  | .write _ | .close => s.course.session.isRunning && !s.closed
  | .reopen => s.course.session.isRunning && s.closed
  | .move m =>
    match s.course.heard? m with
    | some (.output block) => block.isPrefixOf s.unread
    | some .endOfOutput => s.unread = [] && s.closed
    | _ => true

/-- A block that may be read is the oldest of what was not read. -/
theorem prefix_of_block? {s : Scene ε} {m : Move} {block : Bytes} (h : s.allows (.move m) = true)
    (hblock : s.course.block? m = some block) : block <+: s.unread := by
  simp only [allows, Course.block?_eq_some_iff.1 hblock] at h
  exact List.isPrefixOf_iff_prefix.1 h

/-- All that was read. -/
def total (s : Scene ε) : Bytes := s.readings.flatMap (·.block)

/-- All that the emulation was handed. -/
def received (s : Scene ε) : Bytes := s.course.session.emulation.received

variable [Emulation ε]

/-- The block that is read in a move. -/
def read? (s : Scene ε) (m : Move) : Option Reading :=
  (s.course.block? m).map fun block ↦ ⟨block, s.course.overflows m⟩

/-- Lets something happen. -/
def turn (s : Scene ε) : Turn → Scene ε
  | .write data => { s with written := s.written ++ data, unread := s.unread ++ data }
  | .close => { s with closed := true }
  | .reopen => { s with closed := false }
  | .move m =>
    { s with
      course := s.course.step m
      unread := s.unread.drop ((s.course.block? m).getD []).length
      readings := s.readings ++ (s.read? m).toList
      curtailed := s.curtailed || s.course.curtails m
      finale :=
        s.finale.or (if s.course.heard? m = some .endOfOutput then some s.written else none) }

/-- Lets things happen, one after the other. -/
def run (s : Scene ε) (turns : List Turn) : Scene ε := turns.foldl turn s

/-- Whether all of it may happen. -/
def plays (s : Scene ε) : List Turn → Bool
  | [] => true
  | t :: turns => s.allows t && (s.turn t).plays turns

/-- What everything keeps that may happen is so throughout a scene. -/
theorem invariant_run {P : Scene ε → Prop} {turns : List Turn}
    (hturn : ∀ s, ∀ t ∈ turns, P s → s.allows t = true → P (s.turn t)) {s : Scene ε} (hs : P s)
    (h : s.plays turns = true) : P (s.run turns) := by
  induction turns generalizing s with
  | nil => exact hs
  | cons t turns ih =>
    simp only [plays, Bool.and_eq_true] at h
    exact ih (fun u v hv ↦ hturn u v (List.mem_cons_of_mem _ hv))
      (hturn s t List.mem_cons_self hs h.1) h.2

end Scene

variable {ε : Type}

/-- Whether no more output is expected. -/
def isSpent (s : Session ε) : Bool := s.isTerminated || s.running?.any (!·.readOpen)

/-- Sessions that have come equally far expect more output both or neither. -/
theorem Alike.isSpent {s t : Session ε} (h : s.Alike t) : t.isSpent = s.isSpent := by
  rw [Session.isSpent, Session.isSpent, h.isTerminated]
  exact congrArg _ (h.phase.any_core fun core ↦ !core.2)

/-- A session that runs a program expects no more output if there can be none. -/
theorem isSpent_of_running {s : Session ε} {r : Running} (h : s.phase = .running r) :
    s.isSpent = !r.readOpen := by
  rw [isSpent, isTerminated_of_running h, running?_of_running h]
  rfl

/-- A session that has ended expects no more output. -/
theorem isSpent_of_terminated {s : Session ε} {status : ExitStatus}
    (h : s.phase = .terminated status) : s.isSpent = true := by
  simp [isSpent, isTerminated, h]

/-- Where each byte that a program writes is: read, in order, or not yet; and handed on, if it was
read and not lost. Once the end of all output was seen, what was read is what had been written then,
and no more is expected. No more is expected only for that reason, unless the collecting of the rest
was curtailed. -/
structure Accounted (s : Scene ε) : Prop where
  received : s.received = s.readings.flatMap Reading.handed
  written : s.total ++ s.unread = s.written
  whole : ∀ r ∈ s.readings, r.block ≠ []
  agreed : s.course.session.Agreed
  wellFormed : s.course.session.phase.WellFormed
  finale : ∀ seen, s.finale = some seen → s.total = seen ∧ s.course.session.isSpent = true
  spent : s.course.session.isSpent = true → s.curtailed = false → s.finale.isSome = true

/-- No more is handed on of blocks than was read. -/
theorem length_handed_le (readings : List Reading) :
    (readings.flatMap Reading.handed).length ≤ (readings.flatMap (·.block)).length := by
  induction readings with
  | nil => exact Nat.le_refl 0
  | cons r readings ih =>
    have hr : r.handed.length ≤ r.block.length := by
      unfold Reading.handed
      split
      · exact Nat.zero_le _
      · exact Nat.le_refl _
    rw [List.flatMap_cons, List.flatMap_cons, List.length_append, List.length_append]
    omega

/-- All that was read is handed on exactly if nothing of it was lost. -/
theorem handed_eq_blocks_iff {readings : List Reading} (hwhole : ∀ r ∈ readings, r.block ≠ []) :
    readings.flatMap Reading.handed = readings.flatMap (·.block) ↔
      ∀ r ∈ readings, r.lost = false := by
  induction readings with
  | nil => simp
  | cons r readings ih =>
    have hne : r.block ≠ [] := hwhole r List.mem_cons_self
    have hrest := ih fun q hq ↦ hwhole q (List.mem_cons_of_mem _ hq)
    rw [List.flatMap_cons, List.flatMap_cons, List.forall_mem_cons]
    cases hlost : r.lost with
    | false =>
      simp only [Reading.handed, hlost, Bool.false_eq_true, if_false, List.append_cancel_left_eq,
        true_and]
      exact hrest
    | true =>
      -- what is handed on of the rest is too short to make up for the block that was lost
      constructor
      · intro h
        have hlength := congrArg List.length h
        have hpositive : 0 < r.block.length := List.length_pos_iff.2 hne
        have hle := length_handed_le readings
        simp only [Reading.handed, hlost, if_true, List.nil_append, List.length_append] at hlength
        omega
      · rintro ⟨⟨⟩, -⟩

namespace Accounted

variable {s : Scene ε}

/-- Nothing has been written in the beginning. -/
theorem start (id : SessionId) (options : SessionOptions) (e : ε) :
    Accounted (Scene.start id options e) where
  received := rfl
  written := rfl
  whole := by
    intro r hr
    cases hr
  agreed := by
    intro r hr
    cases hr
  wellFormed := Phase.wellFormed_idle
  finale := by
    intro seen hseen
    cases hseen
  spent := by
    intro hspent
    cases hspent

/-- What the program does on its side. -/
theorem aside (hs : Accounted s) (data : Bytes) (closed : Bool) :
    Accounted { s with written := s.written ++ data, unread := s.unread ++ data, closed } where
  received := hs.received
  written := by
    show s.total ++ (s.unread ++ data) = s.written ++ data
    rw [← List.append_assoc, hs.written]
  whole := hs.whole
  agreed := hs.agreed
  wellFormed := hs.wellFormed
  finale := hs.finale
  spent := hs.spent

/-- Nothing is read of a locked program unless the rest of its output is being collected. -/
theorem block?_eq_none_of_locked (hs : Accounted s) (hlocked : s.course.session.outputLocked = true)
    (hdraining : s.course.isDraining = false) (m : Move) : s.course.block? m = none := by
  rw [Option.eq_none_iff_forall_ne_some]
  intro block hblock
  obtain ⟨r, hr, -, -, hunlocked⟩ := Course.reads_of_block? hblock
  have hsame := hs.agreed r (running?_of_current? hr)
  rw [hunlocked hdraining, hlocked] at hsame
  cases hsame

/-- Nothing is read any more once the end of all output was seen. -/
theorem block?_eq_none_of_finale (hs : Accounted s) {seen : Bytes} (hseen : s.finale = some seen)
    (m : Move) : s.course.block? m = none := by
  rw [Option.eq_none_iff_forall_ne_some]
  intro block hblock
  obtain ⟨r, hr, hopen, -, -⟩ := Course.reads_of_block? hblock
  have hspent := (hs.finale seen hseen).2
  rw [isSpent_of_running ((current?_eq_some_iff hs.wellFormed).1 hr), hopen] at hspent
  cases hspent

/-- The emulation has received all that was read exactly if nothing of it was lost. -/
theorem received_eq_total_iff (hs : Accounted s) :
    s.received = s.total ↔ ∀ r ∈ s.readings, r.lost = false := by
  rw [hs.received]
  exact handed_eq_blocks_iff hs.whole

end Accounted

/-- Announcing output leaves the time that counts as silence as it is. -/
theorem options_announce (s : Session ε) : s.announce.session.options = s.options := by
  unfold announce
  split
  · rfl
  · split <;> rfl

variable [Emulation ε]

/-- Edits hand nothing to the emulation. -/
theorem Edits.received {s t : Session (Emulation.Recorded ε)} {trace : List Effect}
    (h : Edits s trace t) : t.emulation.received = s.emulation.received := by
  induction h with
  | nil => rfl
  | @cons s t u _ _ edit _ ih =>
    refine ih.trans ?_
    cases edit with
    | tell | call | note | enqueue | write | clear => rfl
    | lock locked =>
      unfold lockOutput modifyRunning
      split <;> rfl
    | countdown silenceAt =>
      unfold modifyRunning
      split <;> rfl
    | resized size => rfl
    | toggle locked => rfl

section Passage

variable {c : Course (Emulation.Recorded ε)} {m : Move} {next : Advance (Emulation.Recorded ε)}

/-- What the emulation is handed in a move is the block that is read, unless it is lost. -/
theorem Passage.received (h : Passage c m next) :
    next.session.emulation.received = c.session.emulation.received ++
      if next.progress = .ended .overflow then [] else (c.block? m).getD [] := by
  have hnothing (hblock : c.block? m = none)
      (hsame : next.session.emulation.received = c.session.emulation.received) :
      next.session.emulation.received = c.session.emulation.received ++
        if next.progress = .ended .overflow then [] else (c.block? m).getD [] := by
    rw [hblock, Option.getD_none, ite_self, List.append_nil]
    exact hsame
  cases h with
  | edits deaf _ edits _ => exact hnothing (Course.block?_eq_none deaf) edits.received
  | output heard before after _ whole _ =>
    rw [if_neg whole, Course.block?_eq_some_iff.2 heard, Option.getD_some, after.received]
    show _ ++ _ = _ ++ _
    rw [before.received]
  | lost heard before =>
    show _ = _ ++ if (.ended .overflow : Progress) = .ended .overflow then _ else _
    rw [if_pos rfl, List.append_nil]
    exact before.received
  | closed running heard =>
    refine hnothing (Course.block?_eq_none ?_) rfl
    simp [heard]
  | refused idle silent | aborted idle silent | started silenceAt idle silent =>
    refine hnothing (Course.block?_eq_none ?_) rfl
    simp [silent]
  | reaped deadline running heard =>
    refine hnothing (Course.block?_eq_none ?_) rfl
    simp [heard]
  | ended a running shut heard =>
    refine hnothing (Course.block?_eq_none ?_) (congrArg _ (emulation_complete _ _ a))
    simp [heard]
  | drained a running waiting heard last =>
    refine hnothing (Course.block?_eq_none ?_) (congrArg _ (emulation_complete _ _ a))
    rintro block hblock
    cases heard.symm.trans hblock
    cases last

/-- Every passage keeps the lock of the running program that of the session. -/
theorem Passage.agreed {c : Course ε} {next : Advance ε} (h : Passage c m next)
    (hc : c.session.Agreed) : next.session.Agreed := by
  have hcompleted (s : Session ε) (status : ExitStatus) (a : Answers) :
      (s.complete status a).session.Agreed := by
    intro r hr
    rw [running?, phase_complete] at hr
    cases hr
  cases h with
  | edits _ _ edits _ => exact edits.agreed hc
  | output _ before after _ _ _ => exact after.agreed (before.agreed hc)
  | lost _ before => exact before.agreed hc
  | @closed r p running =>
    intro q hq
    obtain rfl := Option.some.inj hq
    exact hc r (running?_of_running running)
  | refused =>
    intro r hr
    cases hr
  | aborted idle =>
    intro r hr
    cases (congrArg Phase.running? idle).symm.trans hr
  | started silenceAt idle =>
    intro r hr
    obtain rfl := Option.some.inj hr
    rfl
  | @reaped r status deadline running heard =>
    intro q hq
    obtain rfl := Option.some.inj hq
    exact hc r (running?_of_running running)
  | ended a running shut heard => exact hcompleted _ _ a
  | drained a running waiting heard last => exact hcompleted _ _ a

/-- No more output is expected after a move if none was before, if output has ended, or if the
collecting of the rest was curtailed. -/
theorem Passage.isSpent (h : Passage c m next) (hnext : next.session.isSpent = true) :
    c.session.isSpent = true ∨ c.heard? m = some .endOfOutput ∨ c.curtails m = true := by
  cases h with
  | edits _ _ edits _ =>
    rw [edits.alike.isSpent] at hnext
    exact .inl hnext
  | output _ before after _ _ _ =>
    rw [(before.alike.through after.alike).isSpent] at hnext
    exact .inl hnext
  | lost _ before => exact .inl (before.alike.isSpent.symm.trans hnext)
  | closed running heard => exact .inr (.inl heard)
  | refused idle | aborted idle | started _ idle =>
    simp [Session.isSpent, isTerminated, running?, reaching, Traced.andThen, release, opened,
      Session.started, idle] at hnext
  | @reaped r status deadline running heard =>
    refine .inl ?_
    rw [isSpent_of_running running]
    simpa [Session.isSpent, isTerminated, running?, reaching] using hnext
  | @ended r s status a running shut heard =>
    refine .inl ?_
    rw [isSpent_of_running running, shut]
    rfl
  | @drained r s status deadline wake a running waiting heard last =>
    have hdraining : c.isDraining = true := by simp [Course.isDraining, waiting]
    cases wake with
    | endOfOutput => exact .inr (.inl heard)
    | readFailed | drainOver => exact .inr (.inr (by simp [Course.curtails, heard, hdraining]))
    | _ => cases last

/-- A session that expects no more output does not come to expect any. -/
theorem Passage.isSpent_mono {c : Course ε} {m : Move} {next : Advance ε} (h : Passage c m next)
    (hc : c.session.isSpent = true) : next.session.isSpent = true := by
  have hidle (idle : c.session.phase = .idle) : False := by
    simp [Session.isSpent, isTerminated, running?, idle] at hc
  cases h with
  | edits _ _ edits _ => rw [edits.alike.isSpent, hc]
  | output _ before after _ _ _ => rw [(before.alike.through after.alike).isSpent, hc]
  | lost _ before => exact before.alike.isSpent.trans hc
  | closed => simp [Session.isSpent, running?, reaching]
  | refused idle | aborted idle | started silenceAt idle => exact (hidle idle).elim
  | @reaped r status deadline running heard =>
    rw [isSpent_of_running running] at hc
    simpa [Session.isSpent, isTerminated, running?, reaching] using hc
  | ended a | drained a => exact isSpent_of_terminated (phase_complete _ _ a)

end Passage

/-- A session that has heard the end of all output expects no more of it. -/
theorem Course.isSpent_of_endOfOutput {c : Course ε} {m : Move}
    (h : c.heard? m = some .endOfOutput) : (c.advance m).session.isSpent = true := by
  obtain ⟨a, r, w, rfl, hr, hw, henabled⟩ := heard?_eq_some_iff.1 h
  have hadvance : c.advance (.happen .endOfOutput a) = c.session.resume w .endOfOutput a := by
    simp only [advance, Move.act, hw]
  rw [hadvance]
  simp only [Session.resume, hr, henabled, if_true]
  cases w with
  | dispatching g =>
    show (c.session.setRunning { r with readOpen := false }).isSpent = true
    simp [isSpent, setRunning, running?]
  | draining status deadline => exact isSpent_of_terminated (phase_complete _ status a)

namespace Accounted

variable {s : Scene ε}

/-- A move accounts for the block that is read in it. -/
theorem move (hs : Accounted s) {m : Move} (h : s.allows (.move m) = true) :
    Accounted (s.turn (.move m)) where
  received := by
    have hpassage := (s.course.passage hs.wellFormed m).received
    show (s.course.advance m).session.emulation.received = (s.readings ++ _).flatMap _
    rw [List.flatMap_append, ← hs.received, hpassage]
    unfold Scene.read?
    cases hblock : s.course.block? m with
    | none => simp [Scene.received]
    | some block =>
      by_cases hover : (s.course.advance m).progress = .ended .overflow
      · simp [Scene.received, Reading.handed, Course.overflows, hover]
      · simp [Scene.received, Reading.handed, Course.overflows, hover]
  written := by
    show (s.readings ++ _).flatMap _ ++ s.unread.drop _ = s.written
    rw [List.flatMap_append, List.append_assoc, ← hs.written]
    refine congrArg (s.total ++ ·) ?_
    unfold Scene.read?
    cases hblock : s.course.block? m with
    | none => rfl
    | some block =>
      obtain ⟨rest, hrest⟩ := Scene.prefix_of_block? h hblock
      simp [← hrest]
  whole := by
    intro r hr
    rcases List.mem_append.1 hr with hold | hnew
    · exact hs.whole r hold
    · obtain ⟨block, hblock, rfl⟩ := Option.map_eq_some_iff.1 (Option.mem_toList.1 hnew)
      obtain ⟨-, -, -, hne, -⟩ := Course.reads_of_block? hblock
      exact hne
  agreed := (s.course.passage hs.wellFormed m).agreed hs.agreed
  wellFormed := Course.wellFormed_step hs.wellFormed m
  finale := by
    intro seen hseen
    have htotal (hnone : s.course.block? m = none) : (s.turn (.move m)).total = s.total := by
      show (s.readings ++ (s.read? m).toList).flatMap _ = _
      rw [Scene.read?, hnone]
      exact congrArg _ (List.append_nil s.readings)
    rcases Option.or_eq_some_iff.1 hseen with hold | ⟨-, hnew⟩
    · obtain ⟨hsame, hspent⟩ := hs.finale seen hold
      rw [htotal (hs.block?_eq_none_of_finale hold m)]
      exact ⟨hsame, (s.course.passage hs.wellFormed m).isSpent_mono hspent⟩
    · obtain ⟨hend, hwritten⟩ := Option.ite_none_right_eq_some.1 hnew
      cases hwritten
      simp only [Scene.allows, hend, Bool.and_eq_true, decide_eq_true_eq] at h
      rw [htotal (Course.block?_eq_none (by simp [hend])), ← hs.written, h.1, List.append_nil]
      exact ⟨rfl, Course.isSpent_of_endOfOutput hend⟩
  spent := by
    intro hspent hcurtailed
    obtain ⟨hbefore, hnow⟩ := Bool.or_eq_false_iff.1 hcurtailed
    show (s.finale.or _).isSome = true
    rw [Option.isSome_or, Bool.or_eq_true]
    rcases (s.course.passage hs.wellFormed m).isSpent hspent with hold | hend | hcut
    · exact .inl (hs.spent hold hbefore)
    · exact .inr (by rw [if_pos hend]; rfl)
    · exact absurd hcut (by rw [hnow]; exact Bool.false_ne_true)

end Accounted

/-- Every byte is accounted for throughout a scene. -/
theorem accounted_run (id : SessionId) (options : SessionOptions) (e : ε) {turns : List Turn}
    (h : (Scene.start id options e).plays turns = true) :
    Accounted ((Scene.start id options e).run turns) := by
  refine Scene.invariant_run ?_ (.start id options e) h
  intro s t _ hs ht
  cases t with
  | write data => exact hs.aside data s.closed
  | close => simpa [Scene.turn] using hs.aside [] true
  | reopen => simpa [Scene.turn] using hs.aside [] false
  | move m => exact hs.move ht

/-- Whether nothing was written after the end of all output was seen. -/
def Scene.IsSealed (s : Scene ε) : Prop :=
  s.finale.isSome = true → s.closed = true ∧ s.unread = []

/-- A program that does not open its side again writes nothing after the end of its output was
seen. -/
theorem sealed_run (id : SessionId) (options : SessionOptions) (e : ε) {turns : List Turn}
    (h : (Scene.start id options e).plays turns = true) (hclosed : .reopen ∉ turns) :
    ((Scene.start id options e).run turns).IsSealed := by
  refine Scene.invariant_run ?_ (fun hsome ↦ by cases hsome) h
  intro s t ht hs hallowed hsome
  cases t with
  | write data =>
    obtain ⟨hside, -⟩ := hs hsome
    simp [Scene.allows, hside] at hallowed
  | close => exact ⟨rfl, (hs hsome).2⟩
  | reopen => exact absurd ht hclosed
  | move m =>
    have hdrop (hside : s.closed = true ∧ s.unread = []) :
        s.closed = true ∧ s.unread.drop ((s.course.block? m).getD []).length = [] := by
      rw [hside.2]
      exact ⟨hside.1, List.drop_nil⟩
    change (s.finale.or _).isSome = true at hsome
    rw [Option.isSome_or, Bool.or_eq_true] at hsome
    rcases hsome with hold | hnew
    · exact hdrop (hs hold)
    · have hend : s.course.heard? m = some .endOfOutput := by simpa using hnew
      simp only [Scene.allows, hend, Bool.and_eq_true, decide_eq_true_eq] at hallowed
      exact hdrop hallowed.symm

/-- A block that is read is lost exactly if the rest of the output is not being collected yet,
output is watched for, and the clock cannot show the end of the countdown that is to start. -/
theorem Course.overflows_output_iff {c : Course ε} {block : Bytes} {a : Answers}
    (h : c.heard? (.happen (.output block) a) = some (.output block)) :
    c.overflows (.happen (.output block) a) = true ↔
      c.isDraining = false ∧ c.session.monitorsOutput = true ∧
        Clock.after? a.now c.session.options.silenceTimeout = none := by
  obtain ⟨b, r, w, hm, hr, hw, henabled⟩ := heard?_eq_some_iff.1 h
  cases hm
  unfold overflows isDraining
  rw [decide_eq_true_iff]
  cases w with
  | draining status deadline =>
    have hadvance : c.advance (.happen (.output block) a) =
        c.session.drain r status deadline (.output block) a := by
      simp only [advance, Move.act, hw, Session.resume, hr, henabled, if_true]
    rw [hadvance, hw]
    simp [Session.drain, reaching]
  | dispatching g =>
    have hadvance : c.advance (.happen (.output block) a) =
        c.session.dispatch r g (.output block) a := by
      simp only [advance, Move.act, hw, Session.resume, hr, henabled, if_true]
    have hafter (v : Verdict Nat) : g.after v = .ended .overflow ↔ v = .overflow := by
      cases g <;> cases v <;> simp [Goal.after]
    rw [hadvance, hw]
    show g.after (c.session.noteOutput block a.now).verdict = .ended .overflow ↔ _
    rw [hafter]
    unfold noteOutput
    by_cases hmonitors : c.session.monitorsOutput = true
    · simp only [hmonitors, if_true, armSilence, options_announce]
      cases Clock.after? a.now c.session.options.silenceTimeout with
      | none => simp [Traced.ending]
      | some t => simp [Traced.ending]
    · simp [hmonitors, Traced.ending]

/-- What has become of the output at any point of a scene that may happen. The emulation was handed
the blocks that were read, in order and each once, except for those that were lost; it has received
all that was read exactly if none was lost, and a block is lost exactly if output is watched for,
the rest of it is not being collected yet, and the clock cannot show the end of the countdown that
is to start. What was read and what is left to be read make up what was written. Nothing is read or
handed on while the output is locked, unless the rest of it is being collected. Once the end of all
output was seen, what was read is all that had been written then, and nothing is read any more. When
the session has ended with the end of all output, and not because collecting the rest took too long
or failed, that end was seen, and a program that did not open its side again has had all its output
read. -/
theorem output_conserved (id : SessionId) (options : SessionOptions) (e : ε) (turns : List Turn)
    (h : (Scene.start id options e).plays turns = true) :
    let s := (Scene.start id options e).run turns
    s.received = s.readings.flatMap Reading.handed ∧
    (s.received = s.total ↔ ∀ r ∈ s.readings, r.lost = false) ∧
    (∀ block a, s.course.heard? (.happen (.output block) a) = some (.output block) →
      (s.course.overflows (.happen (.output block) a) = true ↔
        s.course.isDraining = false ∧ s.course.session.monitorsOutput = true ∧
          Clock.after? a.now s.course.session.options.silenceTimeout = none)) ∧
    s.total ++ s.unread = s.written ∧
    (s.course.session.outputLocked = true → s.course.isDraining = false →
      ∀ m, (s.turn (.move m)).readings = s.readings ∧
        (s.turn (.move m)).received = s.received) ∧
    (∀ seen, s.finale = some seen →
      s.total = seen ∧ ∀ m, (s.turn (.move m)).readings = s.readings) ∧
    (s.course.session.isTerminated = true → s.curtailed = false →
      s.finale = some s.total ∧ (.reopen ∉ turns → s.total = s.written)) := by
  intro s
  have hs : Accounted s := accounted_run id options e h
  have hstill {m : Move} (hnone : s.course.block? m = none) :
      (s.turn (.move m)).readings = s.readings := by
    show s.readings ++ (s.read? m).toList = s.readings
    rw [Scene.read?, hnone]
    exact List.append_nil s.readings
  refine ⟨hs.received, hs.received_eq_total_iff, ?_, hs.written, ?_, ?_, ?_⟩
  · intro block a hheard
    exact Course.overflows_output_iff hheard
  · intro hlocked hdraining m
    have hnone := hs.block?_eq_none_of_locked hlocked hdraining m
    refine ⟨hstill hnone, (s.course.passage hs.wellFormed m).received.trans ?_⟩
    rw [hnone, Option.getD_none, ite_self]
    exact List.append_nil s.received
  · intro seen hseen
    exact ⟨(hs.finale seen hseen).1, fun m ↦ hstill (hs.block?_eq_none_of_finale hseen m)⟩
  · intro hterminated hcurtailed
    have hspent : s.course.session.isSpent = true := by
      rw [isSpent, hterminated, Bool.true_or]
    have hsome := hs.spent hspent hcurtailed
    obtain ⟨seen, hseen⟩ := Option.isSome_iff_exists.1 hsome
    refine ⟨by rw [(hs.finale seen hseen).1, hseen], ?_⟩
    intro hclosed
    rw [← hs.written, (sealed_run id options e h hclosed hsome).2, List.append_nil]

/-- A block is lost when activity is monitored and the silence timeout reaches beyond the clock. -/
theorem output_conserved_lost :
    let options : SessionOptions := { monitorActivity := true, silenceTimeout := Clock.latest + 1 }
    let turns : List Turn :=
      [.move (.run "sh" {}), .write [104, 105], .move .process,
        .move (.happen (.output [104, 105]) {})]
    let s := (Scene.start 1 options Emulation.Discard.mk).run turns
    (Scene.start 1 options Emulation.Discard.mk).plays turns = true ∧
      s.total = [104, 105] ∧ s.received ≠ s.total := by
  intro options turns s
  have hplays : (Scene.start 1 options Emulation.Discard.mk).plays turns = true := by decide
  refine ⟨hplays, by decide, ?_⟩
  intro hsame
  have hwhole := (output_conserved 1 options Emulation.Discard.mk turns hplays).2.1.1 hsame
  have hlost : (⟨[104, 105], true⟩ : Reading) ∈ s.readings := by decide
  cases hwhole _ hlost

/-- A program closes its side, which is seen as the end of its output, and then opens it again and
writes. What it writes then is still unread when the session has finished, although collecting the
rest of the output was not cut short and no block was lost. -/
theorem output_missed_after_end :
    let turns : List Turn :=
      [.move (.run "sh" {}), .close, .move .runUntilFinished, .move (.happen .endOfOutput {}),
        .reopen, .write [104, 105], .close, .move (.happen (.exited (.exited 3)) {})]
    let s := (Scene.start 1 {} Emulation.Discard.mk).run turns
    (Scene.start 1 {} Emulation.Discard.mk).plays turns = true ∧
      .notified (.finished 1 (.exited 3)) ∈ s.course.trace ∧
      s.finale = some [] ∧ s.curtailed = false ∧ (∀ r ∈ s.readings, r.lost = false) ∧
      s.written = [104, 105] ∧ s.received = [] := by
  decide

end Session

end PtyHost
