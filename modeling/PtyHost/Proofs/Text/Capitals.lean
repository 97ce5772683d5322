import Mathlib.Data.List.Forall2
import PtyHost.Proofs.Text.Trimmed

/-!
# Texts in ASCII capitals

Only the twenty-six small letters have capitals here. All other characters stay as they are, even
where they look like letters or have capitals beyond ASCII.

Main statements: `capitals_iff`, there is one way to put a text in capitals, and
`trimmedChars_map_toUpper`, blanks may be taken away before that or after it.
-/

namespace PtyHost.Text

/-- Whether a character is another in capitals: a small letter becomes the letter at the same place
among the capitals, and any other character stays. -/
inductive IsCapital : Char → Char → Prop
  | letter {i : Nat} (h : i < 26) : IsCapital (Char.ofNat (0x61 + i)) (Char.ofNat (0x41 + i))
  | other {c : Char} (h : ∀ i < 26, c ≠ Char.ofNat (0x61 + i)) : IsCapital c c

/-- Whether a text is another in capitals. -/
def Capitals (s t : String) : Prop := List.Forall₂ IsCapital s.toList t.toList

/-- Whether two texts are the same but for the case of their letters: they have the same
capitals. -/
def SameLetters (s t : String) : Prop := ∃ u, Capitals s u ∧ Capitals t u

variable {c d : Char} {s t : String}

/-- The capitals of the small letters. -/
theorem toUpper_letter : ∀ i < 26, (Char.ofNat (0x61 + i)).toUpper = Char.ofNat (0x41 + i) := by
  decide

/-- A character that is not a small letter stays. -/
theorem toUpper_of_ne (h : ∀ i < 26, c ≠ Char.ofNat (0x61 + i)) : c.toUpper = c := by
  unfold Char.toUpper
  split
  · next hsmall =>
    -- the place of the letter is its distance from the first one
    have hlow : 0x61 ≤ c.toNat := UInt32.le_iff_toNat_le.1 hsmall.1
    have hhigh : c.toNat ≤ 0x7A := UInt32.le_iff_toNat_le.1 hsmall.2
    have hplace : 0x61 + (c.toNat - 0x61) = c.toNat := Nat.add_sub_of_le hlow
    refine absurd ?_ (h (c.toNat - 0x61) (by omega))
    rw [hplace, Char.ofNat_toNat]
  · rfl

/-- There is one way to put a character in capitals. -/
theorem isCapital_iff : IsCapital c d ↔ d = c.toUpper := by
  constructor
  · rintro (⟨hi⟩ | ⟨h⟩)
    · exact (toUpper_letter _ hi).symm
    · exact (toUpper_of_ne h).symm
  · rintro rfl
    by_cases h : ∃ i < 26, c = Char.ofNat (0x61 + i)
    · obtain ⟨i, hi, rfl⟩ := h
      rw [toUpper_letter i hi]
      exact .letter hi
    · have hother : ∀ i < 26, c ≠ Char.ofNat (0x61 + i) := fun i hi hc ↦ h ⟨i, hi, hc⟩
      rw [toUpper_of_ne hother]
      exact .other hother

/-- There is one way to put a text in capitals. -/
theorem capitals_iff : Capitals s t ↔ t = String.ofList (s.toList.map Char.toUpper) := by
  have hchars (l m : List Char) : List.Forall₂ IsCapital l m ↔ m = l.map Char.toUpper := by
    induction l generalizing m with
    | nil => simp
    | cons c l ih =>
      cases m with
      | nil => simp
      | cons d m => rw [List.forall₂_cons, isCapital_iff, ih, List.map_cons, List.cons_eq_cons]
  rw [Capitals, hchars, ← String.toList_inj, String.toList_ofList]

/-- Texts that are the same but for case have the same characters in capitals. -/
theorem sameLetters_iff :
    SameLetters s t ↔ s.toList.map Char.toUpper = t.toList.map Char.toUpper := by
  simp only [SameLetters, capitals_iff]
  constructor
  · rintro ⟨u, hs, ht⟩
    exact String.ofList_injective (hs.symm.trans ht)
  · exact fun h ↦ ⟨_, rfl, by rw [h]⟩

/-- A character is a blank in capitals only if it is one. -/
theorem isBlank_toUpper (c : Char) : isBlank c.toUpper = isBlank c := by
  by_cases h : ∃ i < 26, c = Char.ofNat (0x61 + i)
  · obtain ⟨i, hi, rfl⟩ := h
    have hletters : ∀ i < 26,
        isBlank (Char.ofNat (0x61 + i)).toUpper = isBlank (Char.ofNat (0x61 + i)) := by decide
    exact hletters i hi
  · rw [toUpper_of_ne fun i hi hc ↦ h ⟨i, hi, hc⟩]

/-- Blanks are taken away in the same way from capitals. -/
theorem trimmedChars_map_toUpper (cs : List Char) :
    trimmedChars (cs.map Char.toUpper) = (trimmedChars cs).map Char.toUpper := by
  have hblank : isBlank ∘ Char.toUpper = isBlank := funext isBlank_toUpper
  rw [trimmedChars, trimmedChars, List.dropWhile_map, hblank, ← List.map_reverse,
    List.dropWhile_map, hblank, List.map_reverse]

end PtyHost.Text
