import Mathlib.Data.Bool.AllAny
import PtyHost.Proofs.Emulation.Enclosed
import PtyHost.Proofs.Text.Numeral

/-!
# Requests that a program makes of its terminal

A control sequence asks for a status report or for another window size by its values and its final
byte alone. The values are what stands between separators, of which there are two that make no
difference, and each value is as large as its digits say, up to the largest that there is. More
values than the parser keeps are never those of a request. A sequence with a private marker or an
intermediate byte asks for nothing, wherever this stands in it.

Main statement: `TitleTracker.requests_recognised`.
-/

namespace PtyHost

namespace Escape

/-- What stands between the separators of a control sequence. -/
def pieces (body : Bytes) : List Bytes :=
  Bytes.fields 0x3B (body.map fun b ↦ if isSeparator b then 0x3B else b)

/-- The number that digits stand for, or the largest of 16 bits. -/
def saturated (digits : Bytes) : UInt16 := (min 65535 (Numeral.decimal digits)).toUInt16

/-- The values in a control sequence. -/
def values (body : Bytes) : List UInt16 := (pieces body).map saturated

/-! ### Values -/

section Values

variable {b final : UInt8} {a : Arguments} {body digits : Bytes}

/-- A separator begins another piece. -/
theorem pieces_separator (h : isSeparator b = true) (body : Bytes) :
    pieces (b :: body) = [] :: pieces body := by
  rw [pieces, List.map_cons, if_pos h, Bytes.fields, if_pos rfl]
  rfl

/-- A digit belongs to the first piece. -/
theorem pieces_digit (h : isDigit b = true) (body : Bytes) :
    pieces (b :: body) = (pieces body).modifyHead (b :: ·) := by
  rw [isDigit_iff] at h
  have hseparator : isSeparator b = false := by
    rw [Bool.eq_false_iff, ne_eq, isSeparator_iff]
    omega
  have hne : b ≠ 0x3B := by
    rintro rfl
    exact absurd h.2 (by decide)
  rw [pieces, List.map_cons, hseparator, if_neg Bool.false_ne_true, Bytes.fields, if_neg hne]
  rfl

/-- Digits that saturate one after the other saturate as a whole. -/
theorem saturated_append (digits : Bytes) (b : UInt8) :
    saturated (digits ++ [b]) =
      (min 65535 ((saturated digits).toNat * 10 + (b.toNat - 0x30))).toUInt16 := by
  have hdecimal : Numeral.decimal (digits ++ [b]) =
      Numeral.decimal digits * 10 + (b.toNat - 0x30) := by
    simp [Numeral.decimal, Numeral.ofDigits]
  have hnat : (saturated digits).toNat = min 65535 (Numeral.decimal digits) :=
    UInt16.toNat_ofNat_of_lt' (Nat.lt_of_le_of_lt (Nat.min_le_left _ _) (by decide))
  rw [saturated, hdecimal, hnat]
  congr 1
  omega

/-- Reads digits and separators. -/
def Arguments.tally (a : Arguments) (body : Bytes) : Arguments :=
  body.foldl (fun a b ↦ if isDigit b then a.digit (b.toNat - 0x30) else a.endValue) a

/-- What is malformed stays so. -/
theorem Arguments.malformed_tally (h : a.malformed = true) (body : Bytes) :
    (a.tally body).malformed = true := by
  induction body generalizing a with
  | nil => exact h
  | cons b body ih =>
    apply ih
    dsimp only
    split
    · unfold Arguments.digit
      split <;> simp [h]
    · unfold Arguments.endValue
      split <;> simp [h]

/-- What is closed is malformed if it was, or if there is no room for its last value. -/
theorem Arguments.malformed_close :
    (a.close final).malformed = (a.malformed || a.isFull) := by
  unfold Arguments.close Arguments.endValue
  cases hfull : a.isFull <;> simp

/-- Nothing is well formed that goes on behind the last value that is kept. -/
theorem Arguments.malformed_of_isFull (h : a.isFull = true) (body : Bytes) :
    ((a.tally body).close final).malformed = true := by
  rw [malformed_close]
  cases body with
  | nil => rw [tally, List.foldl_nil, h, Bool.or_true]
  | cons b body =>
    have hstep : (if isDigit b then a.digit (b.toNat - 0x30) else a.endValue).malformed = true := by
      split
      · rw [Arguments.digit, if_pos h]
      · rw [Arguments.endValue, if_pos h]
    have hrest := malformed_tally hstep body
    rw [tally, List.foldl_cons, ← tally, hrest, Bool.true_or]

/-- The values that are finished, and those of what is still to be read behind some digits. -/
def Arguments.all (a : Arguments) (digits body : Bytes) : List UInt16 :=
  a.finished.reverse ++ ((pieces body).modifyHead (digits ++ ·)).map saturated

/-- There is always a last value. -/
theorem Arguments.length_all (a : Arguments) (digits body : Bytes) :
    a.finished.length < (a.all digits body).length := by
  have hpos : 0 < (pieces body).length := List.length_pos_iff.2 (Bytes.fields_ne_nil _ _)
  rw [all, List.length_append, List.length_reverse, List.length_map, List.length_modifyHead]
  omega

/-- Digits and separators behind some digits are read as the values that they make, or there are too
many of these. -/
theorem Arguments.close_tally (digits : Bytes) (final : UInt8)
    (hbody : ∀ b ∈ body, isDigit b = true ∨ isSeparator b = true)
    (hcurrent : a.current = saturated digits) (hnone : a.intermediates = [])
    (hwell : a.malformed = false) :
    if (a.all digits body).length ≤ maxValues then
      (a.tally body).close final = ⟨a.all digits body, [], false, final⟩
    else ((a.tally body).close final).malformed = true := by
  -- By induction on what is still to be read, which the digits of the last value go before.
  induction body generalizing a digits with
  | nil =>
    have hall : a.all digits [] = a.finished.reverse ++ [a.current] := by
      rw [all, hcurrent]
      show _ ++ [saturated (digits ++ [])] = _
      rw [List.append_nil]
    by_cases hfull : a.isFull = true
    · have hlength := a.length_all digits []
      have hmax : maxValues ≤ a.finished.length := by simpa [isFull] using hfull
      rw [if_neg (by omega)]
      exact malformed_of_isFull hfull []
    · have hmax : a.finished.length < maxValues := by simpa [isFull] using hfull
      rw [hall, if_pos (by simpa using Nat.succ_le_of_lt hmax)]
      simp [tally, close, endValue, hfull, hnone, hwell]
  | cons b body ih =>
    by_cases hfull : a.isFull = true
    · have hlength := a.length_all digits (b :: body)
      have hmax : maxValues ≤ a.finished.length := by simpa [isFull] using hfull
      rw [if_neg (by omega)]
      exact malformed_of_isFull hfull (b :: body)
    rw [List.forall_mem_cons] at hbody
    by_cases hdigit : isDigit b = true
    · have hstep : a.tally (b :: body) = (a.digit (b.toNat - 0x30)).tally body := by
        rw [tally, List.foldl_cons, if_pos hdigit, ← tally]
      have hall : a.all digits (b :: body) =
          (a.digit (b.toNat - 0x30)).all (digits ++ [b]) body := by
        simp [all, pieces_digit hdigit, digit, hfull, Function.comp_def]
      rw [hstep, hall]
      apply ih (digits ++ [b]) hbody.2
      · rw [saturated_append, ← hcurrent, digit, if_neg hfull]
      · rw [digit, if_neg hfull, hnone]
      · rw [digit, if_neg hfull, hwell]
    · have hseparator : isSeparator b = true := hbody.1.resolve_left hdigit
      have hstep : a.tally (b :: body) = a.endValue.tally body := by
        rw [tally, List.foldl_cons, if_neg hdigit, ← tally]
      have hsame : (pieces body).modifyHead ([] ++ ·) = pieces body :=
        congrFun List.modifyHead_id _
      have hall : a.all digits (b :: body) = a.endValue.all [] body := by
        rw [all, all, hsame]
        simp [pieces_separator hseparator, endValue, hfull, hcurrent]
      rw [hstep, hall]
      apply ih [] hbody.2
      · rw [endValue, if_neg hfull]
        rfl
      · rw [endValue, if_neg hfull, hnone]
      · rw [endValue, if_neg hfull, hwell]

end Values

/-! ### What stands in a control sequence -/

section Inside

variable {s : State} {b final : UInt8} {phase : Phase} {a : Arguments} {body : Bytes}

/-- Whether the parser is in a control sequence. -/
def State.InSequence : State → Prop
  | .sequence .. | .skippedSequence => True
  | _ => False

/-- Whether the parser is in a control sequence with a private marker or an intermediate byte. -/
def State.Strayed : State → Prop
  | .sequence _ a => a.intermediates ≠ []
  | .skippedSequence => True
  | _ => False

/-- A private marker or an intermediate byte is kept, or its sequence is malformed. -/
theorem Arguments.intermediates_collect (a : Arguments) (b : UInt8) :
    (a.collect b).intermediates ≠ [] := by
  unfold collect
  split
  · next hfull =>
    intro hnone
    rw [hnone] at hfull
    exact absurd hfull (by decide)
  · exact List.cons_ne_nil b _

/-- A digit is neither a private marker nor an intermediate byte, and adds none of these. -/
@[simp] theorem Arguments.intermediates_digit (a : Arguments) (d : Nat) :
    (a.digit d).intermediates = a.intermediates := by
  unfold digit
  split <;> rfl

/-- A separator is neither a private marker nor an intermediate byte, and adds none of these. -/
@[simp] theorem Arguments.intermediates_endValue (a : Arguments) :
    a.endValue.intermediates = a.intermediates := by
  unfold endValue
  split <;> rfl

/-- A byte that values are made of goes on with them, unless it stands where it should not. -/
theorem step_parameter (phase : Phase) (a : Arguments) (h : isParameter b = true) :
    (step (.sequence phase a) b).1.InSequence ∧ (step (.sequence phase a) b).2 = [] ∧
      (a.intermediates ≠ [] ∨ isMarker b = true → (step (.sequence phase a) b).1.Strayed) := by
  by_cases hphase : phase = .intermediates
  · subst hphase
    rw [documented.sequence_late_value a h]
    exact ⟨trivial, rfl, fun _ ↦ trivial⟩
  rcases cases_of_isParameter h with hdigit | hseparator | hmarker
  · rw [documented.sequence_digit hphase a hdigit]
    refine ⟨trivial, rfl, ?_⟩
    rintro (hstrayed | hmarker)
    · simpa [State.Strayed] using hstrayed
    · rw [(of_isMarker hmarker).2.1] at hdigit
      cases hdigit
  · rw [documented.sequence_separator hphase a hseparator]
    refine ⟨trivial, rfl, ?_⟩
    rintro (hstrayed | hmarker)
    · simpa [State.Strayed] using hstrayed
    · rw [(of_isMarker hmarker).2.2] at hseparator
      cases hseparator
  · cases phase with
    | entry =>
      rw [documented.sequence_marker a hmarker]
      exact ⟨trivial, rfl, fun _ ↦ a.intermediates_collect b⟩
    | values =>
      rw [documented.sequence_late_marker a hmarker]
      exact ⟨trivial, rfl, fun _ ↦ trivial⟩
    | intermediates => exact absurd rfl hphase

/-- A byte inside a control sequence does not lead out of it. All that is found is a control
character, and a private marker or an intermediate byte leads astray for good. -/
theorem step_inside (h : s.InSequence) (hb : isInside b = true) :
    (step s b).1.InSequence ∧
      (step s b).2 = (if isPlainControl b then [.control b] else []) ∧
      (s.Strayed ∨ isMarker b = true ∨ isIntermediate b = true → (step s b).1.Strayed) := by
  cases s with
  | skippedSequence =>
    rw [documented.skipped_inside hb]
    exact ⟨trivial, rfl, fun _ ↦ trivial⟩
  | sequence phase a =>
    rcases cases_of_isInside hb with hplain | hintermediate | hparameter | hignored
    · rw [documented.sequence_control phase a hplain, if_pos hplain]
      refine ⟨trivial, rfl, ?_⟩
      rintro (hstrayed | hmarker | hintermediate)
      · exact hstrayed
      · rw [(of_isParameter (of_isMarker hmarker).1).1] at hplain
        cases hplain
      · rw [(of_isIntermediate hintermediate).1] at hplain
        cases hplain
    · rw [documented.sequence_intermediate phase a hintermediate,
        (of_isIntermediate hintermediate).1]
      exact ⟨trivial, rfl, fun _ ↦ a.intermediates_collect b⟩
    · obtain ⟨hplain, -, hnone⟩ := of_isParameter hparameter
      obtain ⟨hinside, hfound, hstrayed⟩ := step_parameter phase a hparameter
      rw [hplain]
      refine ⟨hinside, hfound, ?_⟩
      rintro (hbefore | hmarker | hintermediate)
      · exact hstrayed (.inl hbefore)
      · exact hstrayed (.inr hmarker)
      · rw [hnone] at hintermediate
        cases hintermediate
    · obtain ⟨hplain, -, hintermediate, hparameter, -⟩ := of_ignored hignored
      rw [documented.sequence_ignored phase a hignored, hplain, hintermediate]
      refine ⟨trivial, rfl, ?_⟩
      rintro (hbefore | hmarker | hmarked)
      · exact hbefore
      · rw [(of_isMarker hmarker).1] at hparameter
        cases hparameter
      · cases hmarked
  | _ => cases h

/-- The bytes inside a control sequence do not lead out of it, and nothing but control characters is
found among them. -/
theorem run_inside (h : s.InSequence) (hbody : ∀ b ∈ body, isInside b = true) :
    (run s body).1.InSequence ∧
      (run s body).2 = (body.filter isPlainControl).map .control ∧ Keeps s body ∧
      (s.Strayed ∨ (∃ b ∈ body, isMarker b = true ∨ isIntermediate b = true) →
        (run s body).1.Strayed) := by
  induction body generalizing s with
  | nil => exact ⟨h, rfl, trivial, by simp [run]⟩
  | cons b body ih =>
    rw [List.forall_mem_cons] at hbody
    obtain ⟨hinside, hfound, hstrayed⟩ := step_inside h hbody.1
    obtain ⟨hlast, hrest, hkeeps, hastray⟩ := ih hinside hbody.2
    refine ⟨hlast, ?_, ?_, ?_⟩
    · show (step s b).2 ++ (run (step s b).1 body).2 = _
      rw [hfound, hrest, List.filter_cons]
      split <;> rfl
    · refine ⟨?_, hkeeps⟩
      rintro rfl
      cases h
    · rintro (hbefore | ⟨c, hc, hmarks⟩)
      · exact hastray (.inl (hstrayed (.inl hbefore)))
      rcases List.mem_cons.1 hc with rfl | hc
      · exact hastray (.inl (hstrayed (.inr hmarks)))
      · exact hastray (.inr ⟨c, hc, hmarks⟩)

/-- A final byte ends a control sequence. -/
theorem step_final (h : s.InSequence) (hfinal : isFinal final = true) :
    (step s final).1 = .text := by
  cases s with
  | sequence phase a => rw [documented.sequence_final phase a hfinal]
  | skippedSequence => rw [documented.skipped_final hfinal]
  | _ => cases h

/-- Digits and separators are read as values. -/
theorem run_tally (hphase : phase ≠ .intermediates)
    (hbody : ∀ b ∈ body, isDigit b = true ∨ isSeparator b = true) :
    ∃ next, (run (.sequence phase a) body).1 = .sequence next (a.tally body) := by
  induction body generalizing phase a with
  | nil => exact ⟨phase, rfl⟩
  | cons b body ih =>
    rw [List.forall_mem_cons] at hbody
    have hstep : (step (.sequence phase a) b).1 = .sequence .values
        (if isDigit b then a.digit (b.toNat - 0x30) else a.endValue) := by
      by_cases hdigit : isDigit b = true
      · rw [documented.sequence_digit hphase a hdigit, if_pos hdigit]
      · rw [documented.sequence_separator hphase a (hbody.1.resolve_left hdigit), if_neg hdigit]
    have hvalues : Phase.values ≠ .intermediates := by decide
    obtain ⟨next, hnext⟩ :=
      ih (a := if isDigit b then a.digit (b.toNat - 0x30) else a.endValue) hvalues hbody.2
    refine ⟨next, ?_⟩
    show (run (step (.sequence phase a) b).1 body).1 = _
    rw [hstep, hnext]
    rfl

end Inside

end Escape

namespace Emulation

variable {s : Escape.State} {body : Bytes} {final : UInt8}

/-- All that is reported inside a control sequence is its bells. -/
theorem reports_inside (h : s.InSequence) (hbody : ∀ b ∈ body, Escape.isInside b = true) :
    reports s body = List.replicate (body.count Escape.bel) .bell := by
  rw [reports, (Escape.run_inside h hbody).2.1]
  clear hbody
  induction body with
  | nil => rfl
  | cons b body ih =>
    by_cases hbel : b = Escape.bel
    · subst hbel
      rw [List.count_cons_self, List.replicate_succ, ← ih]
      rfl
    · rw [List.count_cons_of_ne hbel, ← ih, List.filter_cons]
      split
      · simp [ofToken, hbel]
      · rfl

/-- What one byte reports. -/
theorem reports_singleton (s : Escape.State) (b : UInt8) :
    reports s [b] = (Escape.step s b).2.filterMap ofToken := by
  simp [reports, Escape.run]

/-- A control sequence with a private marker or an intermediate byte reports nothing. -/
theorem reports_strayed (h : s.Strayed) (hfinal : Escape.isFinal final = true) :
    reports s [final] = [] := by
  cases s with
  | sequence phase a =>
    have hmarked : (a.close final).intermediates ≠ [] := by
      show a.endValue.intermediates.reverse ≠ []
      rw [Escape.Arguments.intermediates_endValue, ne_eq, List.reverse_eq_nil_iff]
      exact h
    have hnone : ofToken (.sequence (a.close final)) = none := if_pos (.inr hmarked)
    rw [reports_singleton, Escape.documented.sequence_final phase a hfinal, filterMap_ofToken,
      hnone]
    rfl
  | skippedSequence =>
    rw [reports_singleton, Escape.documented.skipped_final hfinal]
    rfl
  | _ => cases h

/-- Nothing is a request but what asks for a status report or a window size. -/
theorem ofSequence_eq_none {values : List UInt16} (hstatus : ¬ (final = 0x6E ∧ values = [5]))
    (hsize : ∀ rows cols, ¬ (final = 0x74 ∧ values = [8, rows, cols])) :
    ofSequence ⟨values, [], false, final⟩ = none := by
  unfold ofSequence
  rw [if_neg (by simp), if_neg hstatus]
  split
  · next hfinal =>
    split
    · next rows cols hvalues => exact absurd ⟨hfinal, hvalues⟩ (hsize rows cols)
    · rfl
  · rfl

/-- A request for a window size has the value that stands for it and the size. -/
theorem ofSequence_size (rows cols : UInt16) :
    ofSequence ⟨[8, rows, cols], [], false, 0x74⟩ = some (.sizeRequest ⟨rows, cols⟩) := by
  simp [ofSequence]

/-- Too many values make no request. -/
theorem ofSequence_of_length {values : List UInt16} (h : 3 < values.length) :
    ofSequence ⟨values, [], false, final⟩ = none := by
  apply ofSequence_eq_none
  · rintro ⟨-, rfl⟩
    exact absurd h (by decide)
  · rintro rows cols ⟨-, rfl⟩
    exact absurd h (Nat.lt_irrefl 3)

/-- A control sequence of digits and separators reports what its values and its final byte mean. -/
theorem reports_values (hbody : ∀ b ∈ body, Escape.isDigit b = true ∨ Escape.isSeparator b = true)
    (hfinal : Escape.isFinal final = true) :
    reports (Escape.run (.sequence .entry {}) body).1 [final] =
      (ofSequence ⟨Escape.values body, [], false, final⟩).toList := by
  have hentry : Escape.Phase.entry ≠ .intermediates := by decide
  obtain ⟨phase, hphase⟩ := Escape.run_tally (a := {}) hentry hbody
  rw [hphase, reports_singleton, Escape.documented.sequence_final phase _ hfinal,
    filterMap_ofToken, ofToken]
  have hvalues : ({} : Escape.Arguments).all [] body = Escape.values body :=
    congrArg (List.map Escape.saturated) (congrFun List.modifyHead_id (Escape.pieces body))
  have hclose := Escape.Arguments.close_tally (a := {}) [] final hbody rfl rfl rfl
  rw [hvalues] at hclose
  split at hclose
  · rw [hclose]
  · next hmany =>
    have hlength : 3 < (Escape.values body).length :=
      Nat.lt_of_lt_of_le (by decide) (Nat.le_of_not_le hmany)
    have hnone : ofSequence ((({} : Escape.Arguments).tally body).close final) = none :=
      if_pos (.inl hclose)
    rw [hnone, ofSequence_of_length hlength]

/-- A control sequence that is read behind an ESC reports the bells in it and what it asks for. -/
theorem reports_sequence (hbody : ∀ b ∈ body, Escape.isInside b = true)
    (hfinal : Escape.isFinal final = true) :
    Escape.Keeps .escape (0x5B :: (body ++ [final])) ∧
      (Escape.run .escape (0x5B :: (body ++ [final]))).1 = .text ∧
      reports .escape (0x5B :: (body ++ [final])) =
        List.replicate (body.count Escape.bel) .bell ++
          reports (Escape.run (.sequence .entry {}) body).1 [final] := by
  let opened : Escape.State := .sequence .entry {}
  obtain ⟨hstate, -, hkeeps, -⟩ := Escape.run_inside (s := opened) trivial hbody
  have hopens : Escape.step .escape 0x5B = (opened, []) := Escape.documented.opens_sequence
  have hfirst : reports .escape [0x5B] = [] := by
    rw [reports_singleton, hopens]
    rfl
  refine ⟨⟨by simp, ?_⟩, ?_, ?_⟩
  · rw [hopens, Escape.keeps_append]
    refine ⟨hkeeps, ?_, trivial⟩
    intro hground
    rw [hground] at hstate
    cases hstate
  · rw [Escape.run, hopens]
    show (Escape.run opened (body ++ [final])).1 = .text
    rw [Escape.run_append]
    exact Escape.step_final hstate hfinal
  · rw [reports_cons, hfirst, hopens, reports_append,
      reports_inside (s := opened) trivial hbody]
    rfl

namespace TitleTracker

/-- Whatever was fed before and however the output is cut, a control sequence of digits and
separators asks for a status report or a window size exactly if its values and its final byte are
those of such a request, and for nothing otherwise. One with a private marker or an intermediate
byte asks for nothing, and reports no more than the bells in it. What the ESC ends of that which was
fed before is reported besides, and so is what comes later. -/
theorem requests_recognised (t : TitleTracker) (before : List Use) (last : Bytes)
    {after : List Use} {head body more : Bytes} {final : UInt8}
    (hbody : ∀ b ∈ body, b ≠ Escape.esc ∧ Escape.isCancel b = false ∧ Escape.isFinal b = false)
    (hfinal : Escape.isFinal final = true) (hafter : ∀ x ∈ after, x.isOutput = true)
    (hfed : head ++ output after = 0x5B :: (body ++ [final]) ++ more) :
    ∃ events later, later.Sublist more ∧
      t.told (before ++ .receive (last ++ Escape.esc :: head) :: after) =
        t.told (before ++ [.receive last]) ++
          reports (t.run (before ++ [.receive last])).2.parser [Escape.esc] ++ events ++
          reports .text later ∧
      ((∀ b ∈ body, Escape.isDigit b = true ∨ Escape.isSeparator b = true) →
        (final = 0x6E ∧ Escape.values body = [5] → events = [.write statusAnswer]) ∧
        (∀ rows cols, final = 0x74 ∧ Escape.values body = [8, rows, cols] →
          events = [.sizeRequest ⟨rows, cols⟩]) ∧
        (¬ (final = 0x6E ∧ Escape.values body = [5]) →
          (∀ rows cols, ¬ (final = 0x74 ∧ Escape.values body = [8, rows, cols])) →
          events = [])) ∧
      ((∃ b ∈ body, Escape.isMarker b = true ∨ Escape.isIntermediate b = true) →
        events = List.replicate (body.count Escape.bel) .bell) := by
  have hinside : ∀ b ∈ body, Escape.isInside b = true := by
    intro b hb
    obtain ⟨hesc, hcancel, hends⟩ := hbody b hb
    simp [Escape.isInside, hesc, hcancel, hends]
  obtain ⟨hkeeps, hend, hevents⟩ := reports_sequence hinside hfinal
  obtain ⟨later, hlater, htold⟩ := t.told_sequence before last (b := 0x5B) (by decide)
    hkeeps hafter hfed
  rw [hend, hevents] at htold
  refine ⟨_, later, hlater, htold, ?_, ?_⟩
  · intro hvalues
    have hbell : Escape.bel ∉ body := fun hmem ↦ absurd (hvalues _ hmem) (by decide)
    rw [List.count_eq_zero_of_not_mem hbell, List.replicate_zero, List.nil_append,
      reports_values hvalues hfinal]
    refine ⟨?_, ?_, ?_⟩
    · rintro ⟨rfl, hreport⟩
      rw [hreport]
      rfl
    · rintro rows cols ⟨rfl, hsize⟩
      rw [hsize, ofSequence_size]
      rfl
    · intro hreport hsize
      rw [ofSequence_eq_none hreport hsize]
      rfl
  · intro hmarks
    obtain ⟨-, -, -, hstrayed⟩ :=
      Escape.run_inside (s := .sequence .entry {}) trivial hinside
    rw [reports_strayed (hstrayed (.inr hmarks)) hfinal, List.append_nil]

/-- A request for a window size that is larger than any, cut into blocks in text and between its
values, and behind it a sequence with a bell and a private marker. -/
theorem requests_recognised_saturated :
    let t : TitleTracker := {}
    let before : List Use := [.receive [0xC3]]
    let after : List Use :=
      [.take, .receive (Bytes.ofAscii "24:99999"), .receive (Bytes.ofAscii "t")]
    t.told (before ++ .receive ([0xA9] ++ Escape.esc :: Bytes.ofAscii "[8;") :: after) =
        [.sizeRequest ⟨24, 65535⟩] ∧
      t.told [.receive (Escape.esc :: Bytes.ofAscii "[5" ++ [Escape.bel] ++ Bytes.ofAscii "?n")] =
        [.bell] := by
  intro t before after
  constructor
  · have hfed : Bytes.ofAscii "[8;" ++ output after =
        0x5B :: (Bytes.ofAscii "8;24:99999" ++ [0x74]) ++ [] := by decide
    obtain ⟨events, later, hlater, htold, hasked, -⟩ := requests_recognised t before [0xA9]
      (List.all_iff_forall_prop.1 (by decide)) (by decide) (by decide) hfed
    have hbefore : t.told (before ++ [.receive [0xA9]]) ++
        reports (t.run (before ++ [.receive [0xA9]])).2.parser [Escape.esc] = [] := by decide
    obtain rfl := List.sublist_nil.1 hlater
    have hasked := hasked (List.all_iff_forall_prop.1 (by decide))
    rw [hbefore, hasked.2.1 24 65535 (by decide)] at htold
    exact htold
  · have hfed : Bytes.ofAscii "[5" ++ [Escape.bel] ++ Bytes.ofAscii "?n" ++ output [] =
        0x5B :: ([0x35, Escape.bel, 0x3F] ++ [0x6E]) ++ [] := by decide
    obtain ⟨events, later, hlater, htold, -, hmarked⟩ := requests_recognised t [] []
      (List.all_iff_forall_prop.1 (by decide)) (by decide) (by decide) hfed
    obtain rfl := List.sublist_nil.1 hlater
    rw [hmarked ⟨0x3F, by decide, .inl (by decide)⟩] at htold
    exact htold

end TitleTracker

end Emulation

end PtyHost
