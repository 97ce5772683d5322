/-!
# Byte strings

Paths, terminal traffic and the texts of the operating system are byte strings without a promise
that they hold characters. This module gives the few operations that all of them share: ASCII
literals, fields between separators, and what follows a given beginning.
-/

namespace PtyHost

/-- A byte string. -/
abbrev Bytes := List UInt8

namespace Bytes

/-- The bytes of an ASCII text, one per character. -/
def ofAscii (s : String) : Bytes := s.toList.map fun c ↦ c.toNat.toUInt8

/-- The pieces between the bytes `sep`: `n` separators make `n + 1` fields. -/
def fields (sep : UInt8) : Bytes → List Bytes
  | [] => [[]]
  | b :: rest =>
    if b = sep then [] :: fields sep rest else (fields sep rest).modifyHead (b :: ·)

/-- The fields, joined again by `sep`. -/
def joined (sep : UInt8) : List Bytes → Bytes
  | [] => []
  | [f] => f
  | f :: g :: rest => f ++ sep :: joined sep (g :: rest)

/-- What follows `start` in a byte string that begins with it. -/
def after? : Bytes → Bytes → Option Bytes
  | [], s => some s
  | _ :: _, [] => none
  | a :: start, b :: s => if a = b then after? start s else none

/-- A byte string has at least one field. -/
theorem fields_ne_nil (sep : UInt8) (s : Bytes) : fields sep s ≠ [] := by
  induction s with
  | nil => simp [fields]
  | cons b rest ih =>
    rw [fields]
    split
    · simp
    · cases h : fields sep rest with
      | nil => exact absurd h ih
      | cons f fs => simp

/-- Cutting into fields loses nothing. -/
theorem joined_fields (sep : UInt8) (s : Bytes) : joined sep (fields sep s) = s := by
  induction s with
  | nil => rfl
  | cons b rest ih =>
    rw [fields]
    cases h : fields sep rest with
    | nil => exact absurd h (fields_ne_nil sep rest)
    | cons f fs =>
      rw [h] at ih
      split
      · rename_i hb
        simp [joined, ih, hb]
      · cases fs <;> simp_all [joined]

/-- No field holds the separator. -/
theorem sep_notMem_of_mem_fields {sep : UInt8} {s f : Bytes} (h : f ∈ fields sep s) : sep ∉ f := by
  induction s generalizing f with
  | nil =>
    rw [fields, List.mem_singleton] at h
    simp [h]
  | cons b rest ih =>
    rw [fields] at h
    split at h
    · rcases List.mem_cons.1 h with rfl | h
      · simp
      · exact ih h
    · rename_i hb
      cases hf : fields sep rest with
      | nil => exact absurd hf (fields_ne_nil sep rest)
      | cons g gs =>
        rw [hf, List.modifyHead_cons] at h
        rcases List.mem_cons.1 h with rfl | h
        · have := @ih g (by simp [hf])
          simp [this, Ne.symm hb]
        · exact @ih f (by simp [hf, h])

/-- The bytes of a field are bytes of the whole. -/
theorem mem_of_mem_fields {sep b : UInt8} {s f : Bytes} (h : f ∈ fields sep s) (hb : b ∈ f) :
    b ∈ s := by
  induction s generalizing f with
  | nil =>
    rw [fields, List.mem_singleton] at h
    exact h ▸ hb
  | cons c rest ih =>
    rw [fields] at h
    split at h
    · rcases List.mem_cons.1 h with rfl | h
      · cases hb
      · exact List.mem_cons_of_mem c (ih h hb)
    · cases hf : fields sep rest with
      | nil => exact absurd hf (fields_ne_nil sep rest)
      | cons g gs =>
        rw [hf] at h ih
        rw [List.modifyHead_cons] at h
        rcases List.mem_cons.1 h with rfl | h
        · rcases List.mem_cons.1 hb with rfl | hg
          · exact List.mem_cons_self
          · exact List.mem_cons_of_mem c (ih List.mem_cons_self hg)
        · exact List.mem_cons_of_mem c (ih (List.mem_cons_of_mem g h) hb)

/-- Bytes without a separator only lengthen the first field. -/
theorem fields_append_of_notMem {sep : UInt8} {s t : Bytes} (h : sep ∉ s) :
    fields sep (s ++ t) = (fields sep t).modifyHead (s ++ ·) := by
  induction s with
  | nil => exact (congrFun List.modifyHead_id _).symm
  | cons b s ih =>
    obtain ⟨hb, hs⟩ := not_or.1 (mt List.mem_cons.2 h)
    rw [List.cons_append, fields, if_neg (Ne.symm hb), ih hs, List.modifyHead_modifyHead]
    rfl

end Bytes

end PtyHost
