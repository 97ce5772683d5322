import PtyHost.Emulation.Escape

/-!
# What a parser of escape sequences is documented to do

What output reports depends on the parser only by the rules that are gathered here: how sequences
begin and end, which of their bytes count, and which bytes of a block are lost. The rules are those
that terminals share, but for the one on lost bytes, which is the parser's own. All that is proved
of titles, bells and requests follows from them, and `documented` says that the parser of this
library keeps them.
-/

namespace PtyHost.Escape

/-- Private markers. -/
def isMarker (b : UInt8) : Bool := 0x3C ≤ b && b < 0x40

/-- Whether a byte neither ends a control sequence nor cancels it. -/
def isInside (b : UInt8) : Bool := b ≠ esc && !isCancel b && !isFinal b

/-- Whether a byte neither ends a command nor counts by itself in it. -/
def isHeld (b : UInt8) : Bool := b ≠ bel && !isCancel b && b ≠ esc

/-- The byte of a block that is not heeded. -/
def lost? (s : State) : Bytes → Option UInt8
  | b :: lost :: next :: _ =>
    if s = .ground true ∧ Utf8.isContinuation b ∧ lost < 0x80 ∧ 0x80 ≤ next then some lost else none
  | _ => none

/-- What is documented of a parser that reads one byte after the other and heeds some bytes of each
block. -/
structure Documented (step : State → UInt8 → State × List Token)
    (heeded : State → Bytes → Bytes) : Prop where
  /-- Nothing is found in text but control characters. -/
  text (begun : Bool) {b : UInt8} (hesc : b ≠ esc) (hbegins : beginsPair b = false) :
    step (.ground begun) b = (.text, if b < 0x20 then [.control b] else [])
  /-- A two-byte character begins with its first byte only. -/
  begun {s : State} {b : UInt8} (h : (step s b).1 = .ground true) : beginsPair b = true
  /-- A sequence begins with an ESC, whatever was being read. -/
  restarts (s : State) : (step s esc).1 = .escape
  /-- A bracket behind an ESC begins a command. -/
  opens_command : step .escape 0x5D = (.command [], [])
  /-- A backslash behind an ESC ends what the ESC has ended. -/
  terminator : step .escape 0x5C = (.text, [])
  /-- No command is read but one that has begun so, and none is found that was not being read. -/
  no_command {s : State} (h : ∀ collected, s ≠ .command collected) (b : UInt8) :
    (∀ collected, (step s b).1 = .command collected → collected = []) ∧
      ∀ fields, .command fields ∉ (step s b).2
  /-- A command collects its bytes, except control characters. -/
  command_held (collected : Bytes) {b : UInt8} (h : isHeld b = true) :
    step (.command collected) b =
      (.command (if b < 0x20 then collected else b :: collected), [])
  /-- A bell ends a command. -/
  command_bel (collected : Bytes) :
    step (.command collected) bel = (.text, [closeCommand collected])
  /-- An ESC ends a command, and a sequence begins. -/
  command_esc (collected : Bytes) :
    step (.command collected) esc = (.escape, [closeCommand collected])
  /-- A cancelling character ends a command and counts besides. -/
  command_cancel (collected : Bytes) {b : UInt8} (h : isCancel b = true) :
    step (.command collected) b = (.text, [closeCommand collected, .control b])
  /-- The other bracket behind an ESC begins a control sequence. -/
  opens_sequence : step .escape 0x5B = (.sequence .entry {}, [])
  /-- A control character in a control sequence counts as if it stood before it. -/
  sequence_control (phase : Phase) (a : Arguments) {b : UInt8} (h : isPlainControl b = true) :
    step (.sequence phase a) b = (.sequence phase a, [.control b])
  /-- A final byte ends a control sequence. -/
  sequence_final (phase : Phase) (a : Arguments) {b : UInt8} (h : isFinal b = true) :
    step (.sequence phase a) b = (.text, [.sequence (a.close b)])
  /-- Intermediate bytes are collected. -/
  sequence_intermediate (phase : Phase) (a : Arguments) {b : UInt8} (h : isIntermediate b = true) :
    step (.sequence phase a) b = (.sequence .intermediates (a.collect b), [])
  /-- A digit goes on with a value. -/
  sequence_digit {phase : Phase} (hphase : phase ≠ .intermediates) (a : Arguments) {b : UInt8}
    (h : isDigit b = true) :
    step (.sequence phase a) b = (.sequence .values (a.digit (b.toNat - 0x30)), [])
  /-- A separator ends a value. -/
  sequence_separator {phase : Phase} (hphase : phase ≠ .intermediates) (a : Arguments) {b : UInt8}
    (h : isSeparator b = true) :
    step (.sequence phase a) b = (.sequence .values a.endValue, [])
  /-- A private marker is collected if it comes first. -/
  sequence_marker (a : Arguments) {b : UInt8} (h : isMarker b = true) :
    step (.sequence .entry a) b = (.sequence .values (a.collect b), [])
  /-- A control sequence is skipped if a private marker stands behind its values. -/
  sequence_late_marker (a : Arguments) {b : UInt8} (h : isMarker b = true) :
    step (.sequence .values a) b = (.skippedSequence, [])
  /-- A control sequence is skipped if values stand behind its intermediate bytes. -/
  sequence_late_value (a : Arguments) {b : UInt8} (h : isParameter b = true) :
    step (.sequence .intermediates a) b = (.skippedSequence, [])
  /-- Other bytes in a control sequence are ignored. -/
  sequence_ignored (phase : Phase) (a : Arguments) {b : UInt8} (h : 0x7F ≤ b) :
    step (.sequence phase a) b = (.sequence phase a, [])
  /-- A control sequence that is skipped has no meaning, but control characters in it do. -/
  skipped_inside {b : UInt8} (h : isInside b = true) :
    step .skippedSequence b = (.skippedSequence, if isPlainControl b then [.control b] else [])
  /-- A final byte ends a control sequence that is skipped. -/
  skipped_final {b : UInt8} (h : isFinal b = true) : step .skippedSequence b = (.text, [])
  /-- A block is heeded unless it loses a byte. -/
  heeds {s : State} {block : Bytes} (h : lost? s block = none) : heeded s block = block
  /-- A byte is lost between the end of a two-byte character and a byte beyond ASCII. -/
  loses {b lost next : UInt8} (rest : Bytes)
    (h : lost? (.ground true) (b :: lost :: next :: rest) = some lost) :
    heeded (.ground true) (b :: lost :: next :: rest) = b :: next :: rest

/-! ### The kinds of bytes -/

section Kinds

variable {b : UInt8}

/-- The range of the private markers. -/
theorem isMarker_iff : isMarker b = true ↔ 0x3C ≤ b.toNat ∧ b.toNat < 0x40 := by
  simp [isMarker, UInt8.le_iff_toNat_le, UInt8.lt_iff_toNat_lt]

/-- A final byte is no control character. -/
theorem of_isFinal (h : isFinal b = true) : isPlainControl b = false := by
  rw [isFinal_iff] at h
  rw [Bool.eq_false_iff, ne_eq, isPlainControl_iff]
  omega

/-- An intermediate byte neither ends a sequence nor counts by itself. -/
theorem of_isIntermediate (h : isIntermediate b = true) :
    isPlainControl b = false ∧ isFinal b = false := by
  rw [isIntermediate_iff] at h
  simp only [Bool.eq_false_iff, ne_eq, isPlainControl_iff, isFinal_iff]
  omega

/-- A byte that values are made of, or a private marker, is of no other kind. -/
theorem of_isParameter (h : isParameter b = true) :
    isPlainControl b = false ∧ isFinal b = false ∧ isIntermediate b = false := by
  rw [isParameter_iff] at h
  simp only [Bool.eq_false_iff, ne_eq, isPlainControl_iff, isFinal_iff, isIntermediate_iff]
  omega

/-- A private marker is one of the bytes that values are made of, but makes none. -/
theorem of_isMarker (h : isMarker b = true) :
    isParameter b = true ∧ isDigit b = false ∧ isSeparator b = false := by
  rw [isMarker_iff] at h
  simp only [Bool.eq_false_iff, ne_eq, isParameter_iff, isDigit_iff, isSeparator_iff]
  omega

/-- Digits and separators are bytes that values are made of. -/
theorem isParameter_of_isValue (h : isDigit b = true ∨ isSeparator b = true) :
    isParameter b = true := by
  rw [isDigit_iff, isSeparator_iff] at h
  rw [isParameter_iff]
  omega

/-- A byte that values are made of is a digit, a separator or a private marker. -/
theorem cases_of_isParameter (h : isParameter b = true) :
    isDigit b = true ∨ isSeparator b = true ∨ isMarker b = true := by
  rw [isParameter_iff] at h
  rw [isDigit_iff, isSeparator_iff, isMarker_iff]
  omega

/-- A byte inside a control sequence counts by itself, is collected, belongs to the values or is
ignored. -/
theorem cases_of_isInside (h : isInside b = true) :
    isPlainControl b = true ∨ isIntermediate b = true ∨ isParameter b = true ∨ 0x7F ≤ b := by
  simp only [isInside, Bool.and_eq_true, decide_eq_true_eq, Bool.not_eq_true', Bool.eq_false_iff,
    ne_eq, isCancel_iff, isFinal_iff] at h
  have hesc : b.toNat ≠ esc.toNat := fun hesc ↦ h.1.1 (UInt8.toNat_inj.1 hesc)
  rw [isPlainControl_iff, isIntermediate_iff, isParameter_iff, UInt8.le_iff_toNat_le]
  simp only [esc, UInt8.reduceToNat] at hesc ⊢
  omega

/-- Bytes that are ignored are of no kind. -/
theorem of_ignored (h : 0x7F ≤ b) :
    isPlainControl b = false ∧ isFinal b = false ∧ isIntermediate b = false ∧
      isParameter b = false ∧ isCancel b = false ∧ b ≠ esc := by
  simp only [UInt8.le_iff_toNat_le, UInt8.reduceToNat] at h
  simp only [Bool.eq_false_iff, ne_eq, isPlainControl_iff, isFinal_iff, isIntermediate_iff,
    isParameter_iff, isCancel_iff, esc, ← UInt8.toNat_inj, UInt8.reduceToNat]
  omega

end Kinds

/-! ### The parser of this library -/

section Step

variable {b : UInt8} (phase : Phase) (a : Arguments)

/-- A step in a control sequence on a byte that values are made of. -/
theorem stepSequence_of_isParameter (h : isParameter b = true) :
    stepSequence phase a b =
      if phase = .intermediates then (.skippedSequence, [])
      else if isDigit b then (.sequence .values (a.digit (b.toNat - 0x30)), [])
      else if isSeparator b then (.sequence .values a.endValue, [])
      else if phase = .entry then (.sequence .values (a.collect b), [])
      else (.skippedSequence, []) := by
  obtain ⟨hplain, hfinal, hintermediate⟩ := of_isParameter h
  simp [stepSequence, hplain, hfinal, hintermediate, h]

/-- A separator is no digit. -/
theorem isDigit_of_isSeparator (h : isSeparator b = true) : isDigit b = false := by
  rw [isSeparator_iff] at h
  rw [Bool.eq_false_iff, ne_eq, isDigit_iff]
  omega

/-- What comes of a byte outside of text and commands: no two-byte character has begun, a command
may begin, and none ends. -/
structure Apart (r : State × List Token) : Prop where
  begun : r.1 ≠ .ground true
  command : ∀ collected, r.1 = .command collected → collected = []
  found : ∀ fields, .command fields ∉ r.2

/-- Whatever is asked of the byte, it is enough to look at both answers. -/
theorem Apart.ite {c : Prop} [Decidable c] {r t : State × List Token} (hr : Apart r)
    (ht : Apart t) : Apart (if c then r else t) :=
  iteInduction (fun _ ↦ hr) fun _ ↦ ht

/-- Text and commands are entered only at their beginnings. -/
theorem apart_step {s : State} (hground : ∀ begun, s ≠ .ground begun)
    (hcommand : ∀ collected, s ≠ .command collected) (b : UInt8) : Apart (step s b) := by
  cases s with
  | ground begun => exact absurd rfl (hground begun)
  | command collected => exact absurd rfl (hcommand collected)
  | _ =>
    simp only [step, stepEscape, stepEscapeIntermediate, stepSequence, stepSkippedSequence,
      stepDeviceEntry, stepDeviceString, otherwise]
    -- No answer depends on what was asked of the byte, so the tests need not be split.
    repeat' apply Apart.ite
    all_goals constructor <;> simp

end Step

/-- The parser of this library is as documented. -/
theorem documented : Documented step heeded where
  text begun b hesc hbegins := by
    show stepGround b = _
    rw [stepGround, if_neg hesc, hbegins]
    split <;> rfl
  begun {s b} h := by
    cases s with
    | ground =>
      simp only [step, stepGround] at h
      split at h
      · cases h
      · split at h
        · cases h
        · injection h
    | command collected =>
      simp only [step, stepCommand] at h
      repeat' split at h
      all_goals cases h
    | _ => exact absurd h (apart_step (by simp) (by simp) b).begun
  restarts s := by cases s <;> rfl
  opens_command := rfl
  terminator := rfl
  no_command {s} h b := by
    cases s with
    | ground begun =>
      simp only [step, stepGround]
      repeat' split
      all_goals simp
    | _ =>
      have hapart := apart_step (by simp) h b
      exact ⟨hapart.command, hapart.found⟩
  command_held collected b h := by
    simp only [isHeld, Bool.and_eq_true, decide_eq_true_eq, Bool.not_eq_true'] at h
    show stepCommand collected b = _
    rw [stepCommand, if_neg h.1.1, h.1.2, if_neg Bool.false_ne_true, if_neg h.2]
    split <;> rfl
  command_bel collected := rfl
  command_esc collected := rfl
  command_cancel collected b h := by
    have hbel : b ≠ bel := by
      rintro rfl
      cases h
    show stepCommand collected b = _
    rw [stepCommand, if_neg hbel, if_pos h]
  opens_sequence := rfl
  sequence_control phase a b h := if_pos h
  sequence_final phase a b h := by
    show stepSequence phase a b = _
    rw [stepSequence, of_isFinal h, if_neg Bool.false_ne_true, if_pos h]
  sequence_intermediate phase a b h := by
    obtain ⟨hplain, hfinal⟩ := of_isIntermediate h
    show stepSequence phase a b = _
    rw [stepSequence, hplain, hfinal, if_neg Bool.false_ne_true, if_neg Bool.false_ne_true,
      if_pos h]
  sequence_digit {phase} hphase a b h := by
    show stepSequence phase a b = _
    rw [stepSequence_of_isParameter phase a (isParameter_of_isValue (.inl h)), if_neg hphase,
      if_pos h]
  sequence_separator {phase} hphase a b h := by
    show stepSequence phase a b = _
    rw [stepSequence_of_isParameter phase a (isParameter_of_isValue (.inr h)), if_neg hphase,
      isDigit_of_isSeparator h, if_neg Bool.false_ne_true, if_pos h]
  sequence_marker a b h := by
    obtain ⟨hparameter, hdigit, hseparator⟩ := of_isMarker h
    show stepSequence .entry a b = _
    simp [stepSequence_of_isParameter .entry a hparameter, hdigit, hseparator]
  sequence_late_marker a b h := by
    obtain ⟨hparameter, hdigit, hseparator⟩ := of_isMarker h
    show stepSequence .values a b = _
    simp [stepSequence_of_isParameter .values a hparameter, hdigit, hseparator]
  sequence_late_value a b h := by
    show stepSequence .intermediates a b = _
    rw [stepSequence_of_isParameter .intermediates a h, if_pos rfl]
  sequence_ignored phase a b h := by
    obtain ⟨hplain, hfinal, hintermediate, hparameter, hcancel, hesc⟩ := of_ignored h
    show stepSequence phase a b = _
    simp [stepSequence, hplain, hfinal, hintermediate, hparameter, otherwise, hcancel, hesc]
  skipped_inside {b} h := by
    simp only [isInside, Bool.and_eq_true, decide_eq_true_eq, Bool.not_eq_true'] at h
    show stepSkippedSequence b = _
    simp only [stepSkippedSequence, otherwise, h.1.1, h.1.2, h.2]
    split <;> simp
  skipped_final {b} h := by
    show stepSkippedSequence b = _
    rw [stepSkippedSequence, of_isFinal h, if_neg Bool.false_ne_true, if_pos h]
  heeds {s block} h := by
    match block with
    | [] | [_] | [_, _] => rfl
    | b :: x :: next :: rest =>
      simp only [lost?] at h
      simp only [heeded]
      split at h
      · cases h
      · next hheeded => rw [if_neg hheeded]
  loses {b lost next} rest h := by
    simp only [lost?] at h
    split at h
    · next hlost => exact if_pos ⟨rfl, hlost.2⟩
    · cases h

end PtyHost.Escape
