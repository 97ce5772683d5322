import PtyHost.Config.Basic
import PtyHost.Proofs.Text.Capitals

/-!
# How a configuration names its signal

A signal is named by its canonical name or by this name without the leading `SIG`, in letters of
either case and with blanks around it. No text is a name of two signals, since no canonical name
goes on with `SIG` behind its leading `SIG`.

Main statement: `signal_named`, which names are accepted, for which signals, and what is said of the
others.
-/

namespace PtyHost

namespace Signal

/-- Whether a text is what a configuration says, without the blanks around it and in capitals. -/
def Stripped (said text : String) : Prop :=
  ∃ inner, Text.Trims said inner ∧ Text.Capitals inner text

/-- Whether a text in capitals names a signal. -/
def IsNamed (s : Signal) (text : String) : Prop := text = s.name ∨ "SIG" ++ text = s.name

/-- Whether a text is another with `SIG` in front, which is put there if it is missing. -/
inductive Completes : String → String → Prop
  | whole (rest : String) : Completes ("SIG" ++ rest) ("SIG" ++ rest)
  | missing {text : String} (h : ∀ rest, text ≠ "SIG" ++ rest) : Completes text ("SIG" ++ text)

variable {said text full : String} {s t : Signal}

/-! ### Full names -/

/-- There is one way to strip what a configuration says. -/
theorem stripped_iff :
    Stripped said text ↔ text = String.ofList ((Text.trimmed said).toList.map Char.toUpper) := by
  simp [Stripped, Text.trims_iff, Text.capitals_iff]

/-- A text begins with another exactly if it goes on behind it. -/
theorem isPrefixOf_iff {start : String} :
    start.toList.isPrefixOf text.toList = true ↔ ∃ rest, text = start ++ rest := by
  rw [List.isPrefixOf_iff_prefix]
  constructor
  · rintro ⟨rest, h⟩
    refine ⟨String.ofList rest, ?_⟩
    rw [← String.toList_inj, String.toList_append, String.toList_ofList, h]
  · rintro ⟨rest, rfl⟩
    exact ⟨rest.toList, (String.toList_append ..).symm⟩

/-- The full name of what is said completes it, once it is stripped. -/
theorem Stripped.completes (h : Stripped said text) : Completes text (fullName said) := by
  have hchars : (Text.trimmed said).toList.map Char.toUpper = text.toList := by
    rw [stripped_iff.1 h, String.toList_ofList]
  unfold fullName
  simp only [hchars, String.ofList_toList]
  split
  · next hprefix =>
    obtain ⟨rest, rfl⟩ := isPrefixOf_iff.1 hprefix
    exact .whole rest
  · next hprefix => exact .missing fun rest hrest ↦ hprefix (isPrefixOf_iff.2 ⟨rest, hrest⟩)

/-- There is one way to complete a text. -/
theorem Completes.unique {other : String} (h : Completes text full) (h' : Completes text other) :
    full = other := by
  cases h with
  | whole rest =>
    generalize htext : "SIG" ++ rest = text at h'
    cases h' with
    | whole rest' => rfl
    | missing hne => exact absurd htext.symm (hne rest)
  | missing hne =>
    cases h' with
    | whole rest' => exact absurd rfl (hne rest')
    | missing _ => rfl

/-- No canonical name goes on with `SIG` behind its leading `SIG`. -/
theorem stem_ne (s : Signal) (rest : String) : s.stem ≠ "SIG" ++ rest := by
  intro h
  have hprefix : "SIG".toList.isPrefixOf s.stem.toList = true := isPrefixOf_iff.2 ⟨rest, h⟩
  cases s <;> revert hprefix <;> decide

/-- A text is not both a canonical name and one without its leading `SIG`. -/
theorem append_ne_name (h : text = s.name) : "SIG" ++ text ≠ t.name := by
  intro heq
  have hstem : text = t.stem := ("SIG".append_right_inj).1 heq
  exact stem_ne t s.stem (hstem.symm.trans h)

/-- A text names a signal exactly if it is completed to the name of the signal. -/
theorem Completes.eq_name_iff (h : Completes text full) : full = s.name ↔ s.IsNamed text := by
  cases h with
  | whole rest =>
    -- nothing is put in front of this text, and with `SIG` twice it would name no signal anyway
    have hshort : "SIG" ++ ("SIG" ++ rest) ≠ s.name :=
      fun heq ↦ stem_ne s rest (("SIG".append_right_inj).1 heq).symm
    exact (or_iff_left hshort).symm
  | missing hne =>
    -- a canonical name would begin with `SIG`
    have hlong : text ≠ s.name := hne s.stem
    exact (or_iff_right hlong).symm

/-- A text names no two signals. -/
theorem IsNamed.unique (h : s.IsNamed text) (h' : t.IsNamed text) : s = t := by
  rcases h with h | h <;> rcases h' with h' | h'
  · exact name_injective (h.symm.trans h')
  · exact absurd h' (append_ne_name h)
  · exact absurd h (append_ne_name h')
  · exact name_injective (h.symm.trans h')

/-- The full name of what is said does not depend on blanks around it or on the case of letters. -/
theorem fullName_append {front inner back : String} (hletters : Text.SameLetters inner said)
    (hfront : ∀ c ∈ front.toList, Text.isBlank c = true)
    (hback : ∀ c ∈ back.toList, Text.isBlank c = true) :
    fullName (front ++ inner ++ back) = fullName said := by
  have hchars : (Text.trimmed (front ++ inner ++ back)).toList.map Char.toUpper =
      (Text.trimmed said).toList.map Char.toUpper := by
    rw [Text.toList_trimmed, Text.toList_trimmed, String.toList_append, String.toList_append,
      Text.trimmedChars_append hfront hback, ← Text.trimmedChars_map_toUpper,
      Text.sameLetters_iff.1 hletters, Text.trimmedChars_map_toUpper]
  simp only [fullName, hchars]

/-- The canonical name of a signal is its own full name. -/
theorem fullName_name (s : Signal) : fullName s.name = s.name := by
  have hall : ∀ t ∈ all, fullName t.name = t.name := by decide +kernel
  exact hall s (mem_all s)

end Signal

namespace Config

variable {said : String} {s : Signal} {e : ConfigError}

open Signal

/-- Which signal a name stands for. -/
theorem signal_eq_ok_iff : signal said = .ok s ↔ fullName said = s.name := by
  rw [← ofName?_eq_some_iff, signal]
  cases ofName? said <;> simp

/-- Which names stand for no signal, and what is said of them. -/
theorem signal_eq_error_iff :
    signal said = .error e ↔
      (∀ s : Signal, fullName said ≠ s.name) ∧
        e = .invalid ("unknown signal " ++ fullName said) := by
  simp only [ne_eq, ← ofName?_eq_some_iff, signal]
  cases ofName? said <;> simp [eq_comm]

/-- A name stands for a signal exactly if, without blanks around it and in ASCII capitals, it is the
canonical name or this name without its leading `SIG`. Any other name is reported as unknown, with
`SIG` in front. So neither blanks around a name nor the case of its letters matter, a signal is
named by its canonical name, and a text names one signal in one way at most. -/
theorem signal_named (c : SessionSection) :
    (∀ s, c.signal = .ok s ↔ ∃ text, Stripped c.terminateSignal text ∧ s.IsNamed text) ∧
    (∀ e, c.signal = .error e ↔ ∃ text full, Stripped c.terminateSignal text ∧
      (∀ s : Signal, ¬s.IsNamed text) ∧ Completes text full ∧
      e = .invalid ("unknown signal " ++ full)) ∧
    (∀ front inner back : String, Text.SameLetters inner c.terminateSignal →
      (∀ d ∈ front.toList, Text.isBlank d = true) → (∀ d ∈ back.toList, Text.isBlank d = true) →
      { c with terminateSignal := front ++ inner ++ back }.signal = c.signal) ∧
    (∀ s : Signal, { c with terminateSignal := s.name }.signal = .ok s) ∧
    ∀ (text : String) (s t : Signal), s.IsNamed text → t.IsNamed text →
      s = t ∧ ¬(text = s.name ∧ "SIG" ++ text = t.name) := by
  obtain ⟨text, htext⟩ : ∃ text, Stripped c.terminateSignal text := ⟨_, stripped_iff.2 rfl⟩
  have hfull : Completes text (fullName c.terminateSignal) := htext.completes
  refine ⟨fun s ↦ ?named, fun e ↦ ?unknown, ?respelled, ?canonical, ?unique⟩
  case named =>
    rw [SessionSection.signal, signal_eq_ok_iff]
    constructor
    · exact fun h ↦ ⟨text, htext, hfull.eq_name_iff.1 h⟩
    · rintro ⟨text, h, hname⟩
      exact h.completes.eq_name_iff.2 hname
  case unknown =>
    rw [SessionSection.signal, signal_eq_error_iff]
    constructor
    · rintro ⟨hne, rfl⟩
      exact ⟨text, _, htext, fun s hname ↦ hne s (hfull.eq_name_iff.2 hname), hfull, rfl⟩
    · rintro ⟨text, full, h, hnot, hcompletes, rfl⟩
      rw [hcompletes.unique h.completes]
      exact ⟨fun s heq ↦ hnot s (h.completes.eq_name_iff.1 heq), rfl⟩
  case respelled =>
    intro front inner back hletters hfront hback
    simp only [SessionSection.signal, signal, ofName?, fullName_append hletters hfront hback]
  case canonical => exact fun s ↦ signal_eq_ok_iff.2 (fullName_name s)
  case unique => exact fun _ _ _ h h' ↦ ⟨h.unique h', not_and.2 append_ne_name⟩

end Config

end PtyHost
