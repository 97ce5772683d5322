import Mathlib.Data.List.TakeWhile
import PtyHost.Text.Blank

/-!
# Texts without blanks at their ends

A text is trimmed by taking blanks away from its front and from its end until there is none.

Main statements: `trims_iff`, there is one way to do that, and `trimmedChars_append`, blanks that
are put around a text are taken away again.
-/

namespace PtyHost.Text

/-- Whether characters are others without blanks at both ends: only blanks are missing, and there
are no more blanks to take away. -/
structure TrimsChars (cs inner : List Char) : Prop where
  missing : ∃ front back, cs = front ++ inner ++ back ∧ (∀ c ∈ front, isBlank c = true) ∧
    ∀ c ∈ back, isBlank c = true
  head : ∀ c ∈ inner.head?, isBlank c = false
  last : ∀ c ∈ inner.getLast?, isBlank c = false

/-- Whether a text is another without blanks at both ends. -/
def Trims (s t : String) : Prop := TrimsChars s.toList t.toList

variable {cs inner : List Char}

/-- Taking blanks away from the front stops at the first character that is none. -/
theorem dropWhile_of_head {blanks rest : List Char} (hblanks : ∀ c ∈ blanks, isBlank c = true)
    (h : ∀ c ∈ rest.head?, isBlank c = false) : (blanks ++ rest).dropWhile isBlank = rest := by
  rw [List.dropWhile_append_of_pos hblanks]
  cases rest with
  | nil => rfl
  | cons c rest => rw [List.dropWhile_cons_of_neg (by simp [h c rfl])]

/-- What is left behind the blanks at the front does not begin with a blank. -/
theorem head_dropWhile (cs : List Char) :
    ∀ c ∈ (cs.dropWhile isBlank).head?, isBlank c = false := by
  intro c hc
  have hhead := List.head?_dropWhile_not isBlank cs
  rw [Option.mem_def.1 hc] at hhead
  simpa using hhead

/-- The trimmed characters are trimmed. -/
theorem trimsChars_trimmedChars (cs : List Char) : TrimsChars cs (trimmedChars cs) := by
  let rest := cs.dropWhile isBlank
  have hrest : rest = trimmedChars cs ++ (rest.reverse.takeWhile isBlank).reverse := by
    rw [trimmedChars, ← List.reverse_append, List.takeWhile_append_dropWhile, List.reverse_reverse]
  refine ⟨⟨cs.takeWhile isBlank, (rest.reverse.takeWhile isBlank).reverse, ?_, ?_, ?_⟩, ?_, ?_⟩
  · rw [List.append_assoc, ← hrest, List.takeWhile_append_dropWhile]
  · exact fun c hc ↦ List.mem_takeWhile_imp hc
  · exact fun c hc ↦ List.mem_takeWhile_imp (List.mem_reverse.1 hc)
  · intro c hc
    -- the front of what is trimmed at the end too is that of what is trimmed at the front
    have hfront : rest.head? = some c := by
      rw [hrest, List.head?_append, Option.mem_def.1 hc]
      rfl
    exact head_dropWhile cs c hfront
  · intro c hc
    rw [trimmedChars, List.getLast?_reverse] at hc
    exact head_dropWhile rest.reverse c hc

/-- There is one way to trim characters. -/
theorem trimsChars_iff : TrimsChars cs inner ↔ inner = trimmedChars cs := by
  constructor
  · rintro ⟨⟨front, back, rfl, hfront, hback⟩, hhead, hlast⟩
    unfold trimmedChars
    cases inner with
    | nil =>
      have hblank : (front ++ [] ++ back).dropWhile isBlank = [] := by
        rw [List.append_nil, List.dropWhile_append_of_pos hfront, List.dropWhile_eq_nil_iff]
        exact hback
      rw [hblank]
      rfl
    | cons first inner =>
      have hlast' : ∀ c ∈ (first :: inner).reverse.head?, isBlank c = false := by
        intro d hd
        rw [List.head?_reverse] at hd
        exact hlast d hd
      have hback' : ∀ c ∈ back.reverse, isBlank c = true :=
        fun c hc ↦ hback c (List.mem_reverse.1 hc)
      have hhead' : ∀ d ∈ (first :: inner ++ back).head?, isBlank d = false := hhead
      rw [List.append_assoc, dropWhile_of_head hfront hhead', List.reverse_append,
        dropWhile_of_head hback' hlast', List.reverse_reverse]
  · rintro rfl
    exact trimsChars_trimmedChars cs

/-- There is one way to trim a text. -/
theorem trims_iff {s t : String} : Trims s t ↔ t = trimmed s := by
  rw [Trims, trimsChars_iff, ← toList_trimmed, String.toList_inj]

/-- Blanks put around characters are taken away again. -/
theorem trimmedChars_append {front inner back : List Char} (hfront : ∀ c ∈ front, isBlank c = true)
    (hback : ∀ c ∈ back, isBlank c = true) :
    trimmedChars (front ++ inner ++ back) = trimmedChars inner := by
  obtain ⟨⟨before, after, hinner, hbefore, hafter⟩, hhead, hlast⟩ := trimsChars_trimmedChars inner
  refine (trimsChars_iff.1 ⟨⟨front ++ before, after ++ back, ?_, ?_, ?_⟩, hhead, hlast⟩).symm
  · calc front ++ inner ++ back = front ++ (before ++ trimmedChars inner ++ after) ++ back := by
          rw [← hinner]
      _ = front ++ before ++ trimmedChars inner ++ (after ++ back) := by
          simp only [List.append_assoc]
  · exact List.forall_mem_append.2 ⟨hfront, hbefore⟩
  · exact List.forall_mem_append.2 ⟨hafter, hback⟩

end PtyHost.Text
