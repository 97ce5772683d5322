import PtyHost.Emulation.TitleTracker
import PtyHost.Proofs.Emulation.Documented

/-!
# The blocks in which output arrives

How output is cut into blocks is for a terminal to decide, and a reader of it should not notice.
The escape parser notices in one case. A block that completes a two-byte character may lose the
ASCII byte behind the character, so that a bell or the ESC of a sequence goes unseen.

Main statement: `TitleTracker.cuts_immaterial`, what a title tracker reports does not depend on its
sink, on when its events are taken, and on where its output is cut, but for the bytes that are lost.
-/

namespace PtyHost

namespace Escape

variable {s : State} {block : Bytes} {lost : UInt8}

/-- A byte is lost behind the end of a two-byte character that has begun in an earlier block. -/
theorem lost?_eq_some_iff :
    lost? s block = some lost ↔
      s = .ground true ∧ ∃ b next rest, block = b :: lost :: next :: rest ∧
        Utf8.isContinuation b ∧ lost < 0x80 ∧ 0x80 ≤ next := by
  constructor
  · intro h
    unfold lost? at h
    split at h
    · next b x next rest =>
      split at h
      · next hlost =>
        cases h
        exact ⟨hlost.1, b, next, rest, rfl, hlost.2⟩
      · cases h
    · cases h
  · rintro ⟨rfl, b, next, rest, rfl, hlost⟩
    simp only [lost?, hlost, and_self, if_true]

/-- Every byte is heeded unless a two-byte character has begun. -/
theorem heeded_of_ne (h : s ≠ .ground true) (block : Bytes) : heeded s block = block := by
  refine documented.heeds (Option.eq_none_iff_forall_ne_some.2 fun lost hlost ↦ ?_)
  exact h (lost?_eq_some_iff.1 hlost).1

/-- An empty block is heeded as a whole. -/
theorem heeded_nil (s : State) : heeded s [] = [] := documented.heeds rfl

/-- All bytes of a block but the one that is lost are heeded. -/
theorem heeded_sublist (s : State) (block : Bytes) :
    (heeded s block).Sublist block ∧
      block.length = (heeded s block).length + (lost? s block).toList.length := by
  cases hlost : lost? s block with
  | none =>
    rw [documented.heeds hlost]
    exact ⟨List.Sublist.refl _, rfl⟩
  | some lost =>
    obtain ⟨rfl, b, next, rest, rfl, -⟩ := lost?_eq_some_iff.1 hlost
    rw [documented.loses rest hlost]
    exact ⟨(List.sublist_cons_self _ _).cons_cons _, rfl⟩

/-- An ASCII byte in text other than ESC leaves the parser in text. -/
theorem step_of_ascii (begun : Bool) {b : UInt8} (hascii : b < 0x80) (hesc : b ≠ esc) :
    step (.ground begun) b = (.text, if b < 0x20 then [.control b] else []) := by
  apply documented.text begun hesc
  unfold beginsPair
  rw [Bool.and_eq_false_iff, decide_eq_false_iff_not, UInt8.not_le]
  exact Or.inl (UInt8.lt_trans hascii (by decide))

/-- The end of a two-byte character is text. -/
theorem step_of_isContinuation (begun : Bool) {b : UInt8} (h : Utf8.isContinuation b) :
    step (.ground begun) b = (.text, []) := by
  rw [Utf8.isContinuation_iff] at h
  have hesc : b ≠ esc := by
    rintro rfl
    exact absurd h.1 (by decide)
  have hcontrol : ¬ b < 0x20 := by
    simp only [UInt8.lt_iff_toNat_lt, UInt8.reduceToNat]
    omega
  have hbegins : beginsPair b = false := by
    simp only [beginsPair, Bool.and_eq_false_iff, decide_eq_false_iff_not, UInt8.le_iff_toNat_le,
      UInt8.reduceToNat]
    omega
  rw [documented.text begun hesc hbegins, if_neg hcontrol]

/-- When the byte that is lost is not an ESC, the parser ends where it would have ended, and all
that it does not find is the byte itself. -/
theorem run_of_lost (h : lost? s block = some lost) (hesc : lost ≠ esc) :
    run s block =
      ((feed s block).1, (if lost < 0x20 then [.control lost] else []) ++ (feed s block).2) := by
  obtain ⟨rfl, b, next, rest, rfl, hcontinues, hascii, -⟩ := lost?_eq_some_iff.1 h
  rw [feed, documented.loses rest h]
  simp only [run, step_of_isContinuation _ hcontinues, step_of_ascii _ hascii hesc,
    List.nil_append]

/-- The parser ends where it would have ended unless an ESC is lost. -/
theorem state_feed (h : lost? s block ≠ some esc) : (feed s block).1 = (run s block).1 := by
  cases hlost : lost? s block with
  | none => rw [feed, documented.heeds hlost]
  | some lost =>
    have hesc : lost ≠ esc := by
      rintro rfl
      exact h hlost
    rw [run_of_lost hlost hesc]

/-- Behind a block that does not end with the first byte of a two-byte character, none has begun. -/
theorem run_ne_begun (hs : s ≠ .ground true) (h : ∀ b ∈ block.getLast?, beginsPair b = false) :
    (run s block).1 ≠ .ground true := by
  obtain rfl | ⟨rest, b, rfl⟩ := block.eq_nil_or_concat
  · exact hs
  · intro hbegun
    rw [List.concat_eq_append] at hbegun h
    rw [run_append] at hbegun
    have hpair : beginsPair b = true := documented.begun hbegun
    rw [h b (by simp)] at hpair
    cases hpair

end Escape

namespace Emulation

/-- What is done to a title tracker: it receives a block of output, its events are taken, or it is
told of another window size or of scroll lock. -/
inductive Use
  | receive (block : Bytes)
  | take
  | resize (size : WindowSize)
  | scrollLock (locked : Bool)
deriving DecidableEq, Repr

/-- The output received. -/
def Use.block : Use → Bytes
  | .receive block => block
  | _ => []

/-- Whether this is output received or events taken, and nothing that the user does. -/
def Use.isOutput : Use → Bool
  | .receive _ | .take => true
  | _ => false

/-- All output received. -/
def output (uses : List Use) : Bytes := uses.flatMap Use.block

/-- What the tokens of some output report to a parser in this state. -/
def reports (s : Escape.State) (bytes : Bytes) : List Event :=
  (Escape.run s bytes).2.filterMap ofToken

/-- What output reports does not depend on where it is divided. -/
theorem reports_append (s : Escape.State) (a b : Bytes) :
    reports s (a ++ b) = reports s a ++ reports (Escape.run s a).1 b := by
  rw [reports, Escape.run_append, List.filterMap_append]
  rfl

/-- The part of a block that is heeded reports what the block reports, but for a bell that is lost.
-/
theorem reports_heeded {s : Escape.State} {block : Bytes}
    (hesc : Escape.lost? s block ≠ some Escape.esc) :
    (reports s (Escape.heeded s block)).Sublist (reports s block) ∧
      (reports s block).length = (reports s (Escape.heeded s block)).length +
        (Escape.lost? s block).toList.count Escape.bel := by
  cases hlost : Escape.lost? s block with
  | none =>
    rw [Escape.documented.heeds hlost]
    exact ⟨List.Sublist.refl _, rfl⟩
  | some lost =>
    have hne : lost ≠ Escape.esc := by
      rintro rfl
      exact hesc hlost
    have hsplit : reports s block =
        (if lost < 0x20 then [Escape.Token.control lost] else []).filterMap ofToken ++
          reports s (Escape.heeded s block) := by
      rw [reports, Escape.run_of_lost hlost hne, List.filterMap_append]
      rfl
    have hcontrol : ((if lost < 0x20 then [Escape.Token.control lost] else []).filterMap
        ofToken).length = (some lost).toList.count Escape.bel := by
      by_cases hbel : lost = Escape.bel
      · subst hbel
        rfl
      · rw [Option.toList_some, List.count_singleton, beq_eq_false_iff_ne.2 hbel]
        split <;> simp [ofToken, hbel]
    rw [hsplit, List.length_append, hcontrol, Nat.add_comm]
    exact ⟨List.sublist_append_right _ _, rfl⟩

namespace TitleTracker

/-- Does one thing to a tracker: the events handed out, and the tracker behind it. -/
def use (t : TitleTracker) : Use → List Event × TitleTracker
  | .receive block => ([], Emulation.receive t block)
  | .take => takeEvents t
  | .resize size => ([], Emulation.resized t size)
  | .scrollLock locked => ([], Emulation.scrollLock t locked)

/-- Does one thing after the other to a tracker. -/
def run (t : TitleTracker) : List Use → List Event × TitleTracker
  | [] => ([], t)
  | u :: uses => ((t.use u).1 ++ ((t.use u).2.run uses).1, ((t.use u).2.run uses).2)

/-- The bytes of a use that the parser does not heed. -/
def unheeded (t : TitleTracker) (u : Use) : Bytes := (Escape.lost? t.parser u.block).toList

/-- The bytes that the parser does not heed. -/
def lost (t : TitleTracker) : List Use → Bytes
  | [] => []
  | u :: uses => t.unheeded u ++ (t.use u).2.lost uses

/-- The bytes that the parser heeds. -/
def heard (t : TitleTracker) : List Use → Bytes
  | [] => []
  | u :: uses => Escape.heeded t.parser u.block ++ (t.use u).2.heard uses

/-- Two trackers that differ in their sinks only. -/
structure Agrees (t u : TitleTracker) : Prop where
  parser : t.parser = u.parser
  reported : t.reported = u.reported
  size : t.size = u.size
  held : t.held = u.held

variable {t u : TitleTracker}

/-- A sink makes no difference to what happens and to what is handed out. -/
theorem Agrees.use (h : Agrees t u) (x : Use) :
    (t.use x).1 = (u.use x).1 ∧ Agrees (t.use x).2 (u.use x).2 := by
  cases x with
  | receive block =>
    show [] = [] ∧ Agrees (t.receive block) (u.receive block)
    rw [receive_eq, receive_eq, h.parser, h.reported]
    exact ⟨rfl, rfl, rfl, h.size, h.held⟩
  | take =>
    show t.reported.reverse = u.reported.reverse ∧ _
    rw [h.reported]
    exact ⟨rfl, h.parser, rfl, h.size, h.held⟩
  | resize size => exact ⟨rfl, h.parser, h.reported, rfl, h.held⟩
  | scrollLock locked =>
    show [] = [] ∧ Agrees (t.scrollLock locked) (u.scrollLock locked)
    unfold TitleTracker.scrollLock
    rw [h.held, h.reported]
    split
    · exact ⟨rfl, h⟩
    · exact ⟨rfl, h.parser, rfl, h.size, rfl⟩

/-- A sink makes no difference to a whole history. -/
theorem Agrees.run (h : Agrees t u) (uses : List Use) :
    (t.run uses).1 = (u.run uses).1 ∧ Agrees (t.run uses).2 (u.run uses).2 := by
  induction uses generalizing t u with
  | nil => exact ⟨rfl, h⟩
  | cons x uses ih =>
    obtain ⟨hevents, hleft⟩ := h.use x
    obtain ⟨hlater, hend⟩ := ih hleft
    refine ⟨?_, hend⟩
    show (t.use x).1 ++ _ = (u.use x).1 ++ _
    rw [hevents, hlater]

/-- What is done in two parts. -/
theorem run_append (t : TitleTracker) (a b : List Use) :
    t.run (a ++ b) = ((t.run a).1 ++ ((t.run a).2.run b).1, ((t.run a).2.run b).2) := by
  induction a generalizing t with
  | nil => rfl
  | cons x a ih => simp [run, ih]

/-- Bytes were read, and of what they report, all but some bells was handed out or is about to be.
-/
structure Reads (t : TitleTracker) (bytes : Bytes) (missed : Nat)
    (done : List Event × TitleTracker) : Prop where
  parser : done.2.parser = (Escape.run t.parser bytes).1
  size : done.2.size = t.size
  held : done.2.held = t.held
  sublist : (done.1 ++ done.2.reported.reverse).Sublist
    (t.reported.reverse ++ reports t.parser bytes)
  length : (t.reported.reverse ++ reports t.parser bytes).length =
    (done.1 ++ done.2.reported.reverse).length + missed

/-- Bytes are read one part after the other. -/
theorem Reads.trans {a b : Bytes} {n m : Nat} {done next : List Event × TitleTracker}
    (h : Reads t a n done) (hnext : Reads done.2 b m next) :
    Reads t (a ++ b) (n + m) (done.1 ++ next.1, next.2) where
  parser := by
    rw [hnext.parser, h.parser, Escape.run_append]
  size := hnext.size.trans h.size
  held := hnext.held.trans h.held
  sublist := by
    have hfirst := h.sublist.append (List.Sublist.refl (reports (Escape.run t.parser a).1 b))
    have hsecond := (List.Sublist.refl done.1).append hnext.sublist
    rw [h.parser, ← List.append_assoc, ← List.append_assoc] at hsecond
    rw [reports_append, ← List.append_assoc]
    exact hsecond.trans hfirst
  length := by
    have hfirst := h.length
    have hsecond := hnext.length
    rw [h.parser] at hsecond
    rw [reports_append]
    simp only [List.length_append] at hfirst hsecond ⊢
    omega

/-- A block is read, and a bell that is lost is missed. -/
theorem reads_use {x : Use} (hx : x.isOutput = true) (hesc : Escape.esc ∉ t.unheeded x) :
    Reads t x.block ((t.unheeded x).count Escape.bel) (t.use x) := by
  cases x with
  | receive block =>
    have hlost : Escape.lost? t.parser block ≠ some Escape.esc := by
      intro hlost
      apply hesc
      rw [unheeded, Use.block, hlost]
      exact List.mem_singleton_self _
    obtain ⟨hsublist, hlength⟩ := reports_heeded hlost
    have hreported : (t.receive block).reported.reverse =
        t.reported.reverse ++ reports t.parser (Escape.heeded t.parser block) := by
      rw [receive_eq, List.reverse_append, List.reverse_reverse]
      rfl
    refine ⟨?_, ?_, ?_, ?_, ?_⟩
    · show (t.receive block).parser = _
      rw [receive_eq]
      exact Escape.state_feed hlost
    · show (t.receive block).size = _
      rw [receive_eq]
    · show (t.receive block).held = _
      rw [receive_eq]
    · show ((t.receive block).reported.reverse).Sublist _
      rw [hreported]
      exact (List.Sublist.refl _).append hsublist
    · show _ = ([] ++ (t.receive block).reported.reverse).length + _
      rw [hreported, List.nil_append, List.length_append, List.length_append, Nat.add_assoc]
      exact congrArg _ hlength
  | take =>
    have hsame : t.reported.reverse ++ reports t.parser [] = t.reported.reverse ++ [] := rfl
    exact ⟨rfl, rfl, rfl, List.Sublist.refl _, rfl⟩
  | resize => cases hx
  | scrollLock => cases hx

/-- Output is read, and the bells that are lost are missed. -/
theorem reads_run {uses : List Use} (hout : ∀ x ∈ uses, x.isOutput = true)
    (hesc : Escape.esc ∉ t.lost uses) :
    Reads t (output uses) ((t.lost uses).count Escape.bel) (t.run uses) := by
  -- By induction on the uses. As no ESC is lost, the parser is where it is without any blocks, so
  -- that what is read later is compared from one and the same state.
  induction uses generalizing t with
  | nil =>
    refine ⟨rfl, rfl, rfl, ?_, ?_⟩
    · show t.reported.reverse.Sublist (t.reported.reverse ++ [])
      exact List.sublist_append_left _ _
    · show (t.reported.reverse ++ []).length = t.reported.reverse.length
      rw [List.append_nil]
  | cons x uses ih =>
    rw [List.forall_mem_cons] at hout
    rw [lost, List.mem_append, not_or] at hesc
    have hfirst := reads_use hout.1 hesc.1
    have hrest := ih hout.2 hesc.2
    rw [lost, List.count_append]
    exact hfirst.trans hrest

/-- Taking the events last hands out all that was reported. -/
theorem run_take (t : TitleTracker) (uses : List Use) :
    t.run (uses ++ [.take]) =
      ((t.run uses).1 ++ (t.run uses).2.reported.reverse,
        { (t.run uses).2 with reported := [] }) := by
  rw [run_append]
  simp [run, use, takeEvents]

/-- However output is cut, what is reported is what the bytes report that are heeded. -/
theorem told_run {uses : List Use} (hout : ∀ x ∈ uses, x.isOutput = true) :
    (t.run uses).1 ++ (t.run uses).2.reported.reverse =
      t.reported.reverse ++ reports t.parser (t.heard uses) := by
  induction uses generalizing t with
  | nil => exact (List.append_nil _).symm
  | cons x uses ih =>
    rw [List.forall_mem_cons] at hout
    have hstep : (t.use x).1 ++ (t.use x).2.reported.reverse =
          t.reported.reverse ++ reports t.parser (Escape.heeded t.parser x.block) ∧
        (t.use x).2.parser = (Escape.run t.parser (Escape.heeded t.parser x.block)).1 := by
      cases x with
      | receive block =>
        refine ⟨?_, ?_⟩
        · show (t.receive block).reported.reverse = _
          rw [receive_eq, List.reverse_append, List.reverse_reverse]
          rfl
        · show (t.receive block).parser = _
          rw [receive_eq]
          rfl
      | take =>
        rw [show Use.take.block = [] from rfl, Escape.heeded_nil]
        exact ⟨rfl, rfl⟩
      | resize => cases hout.1
      | scrollLock => cases hout.1
    show ((t.use x).1 ++ ((t.use x).2.run uses).1) ++ ((t.use x).2.run uses).2.reported.reverse = _
    rw [List.append_assoc, ih hout.2, ← List.append_assoc, hstep.1, hstep.2, List.append_assoc,
      ← reports_append]
    rfl

/-- Each byte of the output is heeded or lost. -/
theorem heard_sublist (t : TitleTracker) (uses : List Use) :
    (t.heard uses).Sublist (output uses) ∧
      (output uses).length = (t.heard uses).length + (t.lost uses).length := by
  induction uses generalizing t with
  | nil => exact ⟨List.Sublist.refl _, rfl⟩
  | cons x uses ih =>
    obtain ⟨hblock, hlength⟩ := Escape.heeded_sublist t.parser x.block
    obtain ⟨hrest, hlengths⟩ := ih (t.use x).2
    refine ⟨hblock.append hrest, ?_⟩
    have houtput : output (x :: uses) = x.block ++ output uses := rfl
    rw [houtput, heard, lost, unheeded, List.length_append, List.length_append, List.length_append]
    omega

/-- What is handed out when the events are taken behind some output. -/
theorem Reads.taken {bytes : Bytes} {missed : Nat} {uses : List Use}
    (h : Reads t bytes missed (t.run uses)) :
    (t.run (uses ++ [.take])).1.Sublist (t.reported.reverse ++ reports t.parser bytes) ∧
      (t.reported.reverse ++ reports t.parser bytes).length =
        (t.run (uses ++ [.take])).1.length + missed := by
  rw [run_take]
  exact ⟨h.sublist, h.length⟩

/-- Trackers that have read the same output and have handed out all events differ in their sinks
only. -/
theorem Agrees.taken {bytes : Bytes} {n m : Nat} {first second : List Use} (h : Agrees t u)
    (hone : Reads t bytes n (t.run first)) (hother : Reads u bytes m (u.run second)) :
    Agrees (t.run (first ++ [.take])).2 (u.run (second ++ [.take])).2 := by
  rw [run_take, run_take]
  refine ⟨?_, rfl, ?_, ?_⟩
  · show (t.run first).2.parser = (u.run second).2.parser
    rw [hone.parser, hother.parser, h.parser]
  · exact hone.size.trans (h.size.trans hother.size.symm)
  · exact hone.held.trans (h.held.trans hother.held.symm)

/-- No byte of a short block is lost. -/
theorem lost_of_length_le {uses : List Use} (h : ∀ x ∈ uses, x.block.length ≤ 2) :
    t.lost uses = [] := by
  induction uses generalizing t with
  | nil => rfl
  | cons x uses ih =>
    rw [List.forall_mem_cons] at h
    have hkept : Escape.lost? t.parser x.block = none := by
      rw [Option.eq_none_iff_forall_ne_some]
      intro lost hlost
      obtain ⟨-, b, next, rest, hblock, -⟩ := Escape.lost?_eq_some_iff.1 hlost
      have hlength := h.1
      rw [hblock] at hlength
      simp at hlength
    rw [lost, unheeded, hkept, ih h.2]
    rfl

/-- No byte is lost of output that is never cut behind the first byte of a two-byte character. -/
theorem lost_of_ne_begun {uses : List Use} (hs : t.parser ≠ .ground true)
    (h : ∀ x ∈ uses, ∀ b ∈ x.block.getLast?, Escape.beginsPair b = false) :
    t.lost uses = [] := by
  induction uses generalizing t with
  | nil => rfl
  | cons x uses ih =>
    rw [List.forall_mem_cons] at h
    have hkept : Escape.lost? t.parser x.block = none := by
      rw [Option.eq_none_iff_forall_ne_some]
      intro lost hlost
      exact hs (Escape.lost?_eq_some_iff.1 hlost).1
    have hnext : (t.use x).2.parser ≠ .ground true := by
      cases x with
      | receive block =>
        show (t.receive block).parser ≠ _
        rw [receive_eq]
        show (Escape.feed t.parser block).1 ≠ _
        rw [Escape.feed, Escape.heeded_of_ne hs]
        exact Escape.run_ne_begun hs h.1
      | take => exact hs
      | resize => exact hs
      | scrollLock locked =>
        show (t.scrollLock locked).parser ≠ _
        unfold TitleTracker.scrollLock
        split
        · exact hs
        · exact hs
    rw [lost, unheeded, hkept, ih hnext h.2]
    rfl

/-- A sink that takes what is written to it has all output. -/
theorem contents_run {uses : List Use} (h : t.sink.refusal ≠ .writes) :
    (t.run uses).2.sink.contents = t.sink.contents ++ output uses := by
  induction uses generalizing t with
  | nil => exact (List.append_nil _).symm
  | cons x uses ih =>
    have hstep : (t.use x).2.sink.refusal ≠ .writes ∧
        (t.use x).2.sink.contents = t.sink.contents ++ x.block := by
      cases x with
      | receive block =>
        have haccepts : t.sink.accepts block = true := by simp [Sink.accepts, h]
        show (t.receive block).sink.refusal ≠ .writes ∧ (t.receive block).sink.contents = _
        rw [receive_eq]
        refine ⟨?_, Sink.contents_write haccepts⟩
        show (t.sink.write block).refusal ≠ .writes
        rw [Sink.write, if_pos haccepts]
        exact h
      | take => exact ⟨h, (List.append_nil _).symm⟩
      | resize => exact ⟨h, (List.append_nil _).symm⟩
      | scrollLock locked =>
        show (t.scrollLock locked).sink.refusal ≠ .writes ∧
          (t.scrollLock locked).sink.contents = t.sink.contents ++ []
        unfold TitleTracker.scrollLock
        rw [List.append_nil]
        split
        · exact ⟨h, rfl⟩
        · exact ⟨h, rfl⟩
    show ((t.use x).2.run uses).2.sink.contents = _
    rw [ih hstep.1, hstep.2, List.append_assoc]
    rfl

/-- What a title tracker makes of output does not depend on its sink. It depends on the bytes that
are heeded, which are all but those that are lost, and not on when the events are taken and on how
the output is cut, as long as no bell and no ESC is lost: the same events are handed out, and the
trackers left behind hand out the same ever after. Compared with output of which nothing is lost,
each bell that is lost is one event less, and nothing else changes. No byte is lost when bytes come
one or two at a time, and none when no block ends with the first byte of a two-byte character. A
sink that takes what is written to it has all output in any case. -/
theorem cuts_immaterial (h : Agrees t u) :
    (∀ uses, (t.run uses).1 = (u.run uses).1) ∧
    (∀ uses, (∀ x ∈ uses, x.isOutput = true) →
      (t.run (uses ++ [.take])).1 = t.reported.reverse ++ reports t.parser (t.heard uses) ∧
      (t.heard uses).Sublist (output uses) ∧
      (output uses).length = (t.heard uses).length + (t.lost uses).length) ∧
    (∀ first second : List Use, (∀ x ∈ first, x.isOutput = true) →
      (∀ x ∈ second, x.isOutput = true) → output first = output second →
      Escape.esc ∉ t.lost first → Escape.esc ∉ u.lost second → Escape.bel ∉ u.lost second →
      let a := t.run (first ++ [.take])
      let b := u.run (second ++ [.take])
      (a.1 = b.1 ↔ Escape.bel ∉ t.lost first) ∧
      a.1.Sublist b.1 ∧ b.1.length = a.1.length + (t.lost first).count Escape.bel ∧
      ∀ later, (a.2.run later).1 = (b.2.run later).1) ∧
    (∀ uses, (∀ x ∈ uses, x.block.length ≤ 2) ∨ t.parser ≠ .ground true ∧
        (∀ x ∈ uses, ∀ b ∈ x.block.getLast?, Escape.beginsPair b = false) → t.lost uses = []) ∧
    ∀ uses, t.sink.refusal ≠ .writes →
      (t.run uses).2.sink.contents = t.sink.contents ++ output uses := by
  refine ⟨?_, ?_, ?_, ?_, ?_⟩
  · intro uses
    exact (h.run uses).1
  · intro uses hout
    rw [run_take]
    exact ⟨told_run hout, heard_sublist t uses⟩
  · intro first second hfirst hsecond houtput hesc hesc' hbel a b
    have hone := reads_run hfirst hesc
    have hother := reads_run hsecond hesc'
    rw [← houtput, List.count_eq_zero_of_not_mem hbel] at hother
    have hall : t.reported.reverse ++ reports t.parser (output first) = b.1 := by
      rw [h.parser, h.reported]
      exact (hother.taken.1.eq_of_length hother.taken.2.symm).symm
    have hsublist : a.1.Sublist b.1 := by
      rw [← hall]
      exact hone.taken.1
    have hlength : b.1.length = a.1.length + (t.lost first).count Escape.bel := by
      rw [← hall]
      exact hone.taken.2
    refine ⟨⟨?_, ?_⟩, hsublist, hlength, ?_⟩
    · intro heq
      rw [heq] at hlength
      rw [← List.count_eq_zero]
      omega
    · intro hkept
      rw [List.count_eq_zero_of_not_mem hkept] at hlength
      exact hsublist.eq_of_length hlength.symm
    · intro later
      exact ((h.taken hone hother).run later).1
  · rintro uses (hshort | ⟨hs, hcuts⟩)
    · exact lost_of_length_le hshort
    · exact lost_of_ne_begun hs hcuts
  · intro uses hsink
    exact contents_run hsink

/-- A bell between two characters is lost when the first of them is cut, and it is not when the
output is cut elsewhere. -/
theorem cuts_immaterial_bell_lost :
    let t : TitleTracker := {}
    let u : TitleTracker := { sink := { refusal := .writes } }
    let first : List Use := [.receive [0xC3], .receive [0xA9, 0x07, 0xC3, 0xA9]]
    let second : List Use := [.receive [0xC3, 0xA9], .take, .receive [0x07, 0xC3, 0xA9]]
    Agrees t u ∧ output first = output second ∧ t.lost first = [Escape.bel] ∧ u.lost second = [] ∧
      (u.run (second ++ [.take])).1 = [.bell] ∧ (t.run (first ++ [.take])).1 = [] := by
  intro t u first second
  have h : Agrees t u := ⟨rfl, rfl, rfl, rfl⟩
  have houtput : output first = output second := by decide
  have hlost : t.lost first = [Escape.bel] := by decide
  have hkept : u.lost second = [] := by decide
  have hbell : (u.run (second ++ [.take])).1 = [.bell] := by decide
  obtain ⟨-, -, hlength, -⟩ := (cuts_immaterial h).2.2.1 first second (by decide) (by decide)
    houtput (by decide) (by decide) (by decide)
  rw [hlost, hbell] at hlength
  exact ⟨h, houtput, hlost, hkept, hbell, List.eq_nil_of_length_eq_zero (by simpa using hlength)⟩

end TitleTracker

end Emulation

end PtyHost
