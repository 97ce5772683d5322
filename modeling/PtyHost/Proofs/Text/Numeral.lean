import Mathlib.Data.Option.Basic
import PtyHost.Emulation.Escape
import PtyHost.Proofs.Text.Strict
import PtyHost.Text.Numeral

/-!
# Numerals in byte strings

A numeral is read from bytes that are decoded first. Decoding adds nothing to what can be read: what
is decoded is encoded text, so it has ASCII characters only if its bytes are ASCII, and ASCII bytes
stand for themselves.

Main statement: `word?_decode?_eq_some_iff`, the byte strings that are read as a number are the
numerals of this number.
-/

namespace PtyHost

namespace Utf8

variable {s : Bytes}

/-- A text of ASCII characters is encoded as ASCII bytes. -/
theorem ascii_encode {text : String} (h : ∀ c ∈ text.toList, c.toNat < 0x80) :
    ∀ b ∈ encode text, b.toNat < 0x80 := by
  intro b hb
  obtain ⟨c, hc, hb⟩ := List.mem_flatMap.1 hb
  have hascii := h c hc
  rw [encodeChar_ascii hascii, List.mem_singleton] at hb
  rwa [hb, toNat_ofNat_of_le (Nat.le_of_lt (Nat.lt_trans hascii (by decide)))]

/-- Bytes that are decoded to an ASCII text are ASCII. -/
theorem ascii_of_decode? {text : String} (h : decode? s = some text)
    (htext : ∀ c ∈ text.toList, c.toNat < 0x80) : ∀ b ∈ s, b.toNat < 0x80 := by
  rw [decode?_eq_some_iff.1 h]
  exact ascii_encode htext

/-- ASCII bytes are decoded to their characters. -/
theorem decode?_ascii (h : ∀ b ∈ s, b.toNat < 0x80) :
    decode? s = some (String.ofList (s.map fun b ↦ Char.ofNat b.toNat)) := by
  rw [decode?_eq_some_iff, encode, String.toList_ofList]
  induction s with
  | nil => rfl
  | cons b s ih =>
    rw [List.forall_mem_cons] at h
    rw [List.map_cons, List.flatMap_cons, ← ih h.2, encodeChar_one h.1, List.singleton_append]

end Utf8

namespace Numeral

/-- The number that decimal digits stand for. -/
def decimal (digits : Bytes) : Nat := ofDigits 10 (digits.map fun b ↦ b.toNat - 0x30)

/-- Whether a byte string is a decimal numeral: one or more digits, and perhaps a plus sign before
them. -/
def IsNumeral (s : Bytes) (n : Nat) : Prop :=
  ∃ sign digits, s = sign ++ digits ∧ (sign = [] ∨ sign = [0x2B]) ∧ digits ≠ [] ∧
    (∀ b ∈ digits, Escape.isDigit b = true) ∧ decimal digits = n

variable {s : Bytes} {n limit : Nat}

/-- The digits behind the plus sign, if there is one. -/
def unsigned (s : Bytes) : Bytes := if s.head? = some 0x2B then s.tail else s

/-- A numeral is its digits behind the plus sign. -/
theorem isNumeral_iff :
    IsNumeral s n ↔ unsigned s ≠ [] ∧ (∀ b ∈ unsigned s, Escape.isDigit b = true) ∧
      decimal (unsigned s) = n := by
  constructor
  · rintro ⟨sign, digits, rfl, hsign, hne, hdigits, hn⟩
    have hunsigned : unsigned (sign ++ digits) = digits := by
      rcases hsign with rfl | rfl
      · apply if_neg
        intro hplus
        have hdigit := hdigits 0x2B (List.mem_of_mem_head? hplus)
        exact absurd hdigit (by decide)
      · rfl
    rw [hunsigned]
    exact ⟨hne, hdigits, hn⟩
  · rintro ⟨hne, hdigits, hn⟩
    by_cases hplus : s.head? = some 0x2B
    · obtain ⟨rest, rfl⟩ := List.head?_eq_some_iff.1 hplus
      exact ⟨[0x2B], rest, rfl, .inr rfl, hne, hdigits, hn⟩
    · rw [unsigned, if_neg hplus] at hne hdigits hn
      exact ⟨[], s, rfl, .inl rfl, hne, hdigits, hn⟩

/-- A character is a digit if its number is between those of the digits. -/
theorem digit?_eq_some_iff {c : Char} {d : Nat} :
    digit? c = some d ↔ (0x30 ≤ c.toNat ∧ c.toNat < 0x3A) ∧ d = c.toNat - 0x30 := by
  have hrange : ('0' ≤ c ∧ c ≤ '9') ↔ 0x30 ≤ c.toNat ∧ c.toNat < 0x3A := by
    rw [Nat.lt_succ_iff]
    exact Iff.rfl
  unfold digit?
  split
  · next h =>
    rw [Option.some_inj, and_iff_right (hrange.1 h)]
    exact eq_comm
  · next h =>
    constructor
    · intro hnone
      cases hnone
    · rintro ⟨hc, -⟩
      exact absurd (hrange.2 hc) h

/-- ASCII bytes are the digits of a number if their characters are. -/
theorem mapM_digit?_ascii {ds : List Nat} (h : ∀ b ∈ s, b.toNat < 0x80) :
    (s.map fun b ↦ Char.ofNat b.toNat).mapM digit? = some ds ↔
      (∀ b ∈ s, Escape.isDigit b = true) ∧ ds = s.map fun b ↦ b.toNat - 0x30 := by
  rw [mapM_eq_some_iff, List.map_map]
  induction s generalizing ds with
  | nil => cases ds <;> simp
  | cons b s ih =>
    rw [List.forall_mem_cons] at h
    have hc : (Char.ofNat b.toNat).toNat = b.toNat :=
      Utf8.toNat_charOfNat (Or.inl (Nat.lt_trans h.1 (by decide)))
    cases ds with
    | nil => simp
    | cons d ds =>
      rw [List.map_cons, List.map_cons, List.map_cons, List.cons_eq_cons, List.cons_eq_cons,
        ih h.2, Function.comp, digit?_eq_some_iff, hc, List.forall_mem_cons,
        Escape.isDigit_iff]
      constructor
      · rintro ⟨⟨hb, hd⟩, hs, hds⟩
        exact ⟨⟨hb, hs⟩, hd, hds⟩
      · rintro ⟨⟨hb, hs⟩, hd, hds⟩
        exact ⟨⟨hb, hd⟩, hs, hds⟩

/-- What is read as a number has digits only, a plus sign before them apart. -/
theorem decimal?_eq_some_iff {cs : List Char} :
    decimal? limit cs = some n ↔
      ∃ ds, (if cs.head? = some '+' then cs.tail else cs) ≠ [] ∧
        (if cs.head? = some '+' then cs.tail else cs).mapM digit? = some ds ∧
        ofDigits 10 ds = n ∧ n ≤ limit := by
  unfold decimal?
  generalize (if cs.head? = some '+' then cs.tail else cs) = digits
  constructor
  · intro h
    obtain ⟨_, hne, h⟩ := Option.bind_eq_some_iff.1 h
    obtain ⟨ds, hds, h⟩ := Option.bind_eq_some_iff.1 h
    obtain ⟨_, hlimit, h⟩ := Option.bind_eq_some_iff.1 h
    obtain rfl := Option.some.inj h
    exact ⟨ds, (Option.guard_eq_some' _).1 hne, hds, rfl, (Option.guard_eq_some' _).1 hlimit⟩
  · rintro ⟨ds, hne, hds, rfl, hlimit⟩
    refine Option.bind_eq_some_iff.2 ⟨(), (Option.guard_eq_some' ()).2 hne, ?_⟩
    refine Option.bind_eq_some_iff.2 ⟨ds, hds, ?_⟩
    exact Option.bind_eq_some_iff.2 ⟨(), (Option.guard_eq_some' ()).2 hlimit, rfl⟩

/-- The plus sign before digits is an ASCII byte. -/
theorem map_unsigned (h : ∀ b ∈ s, b.toNat < 0x80) :
    let cs := s.map fun b ↦ Char.ofNat b.toNat
    (if cs.head? = some '+' then cs.tail else cs) =
      (unsigned s).map fun b ↦ Char.ofNat b.toNat := by
  intro cs
  cases s with
  | nil => rfl
  | cons b s =>
    have hc : (Char.ofNat b.toNat).toNat = b.toNat :=
      Utf8.toNat_charOfNat (Or.inl (Nat.lt_trans (h b List.mem_cons_self) (by decide)))
    by_cases hplus : b = 0x2B
    · subst hplus
      rfl
    · have hchar : Char.ofNat b.toNat ≠ '+' := by
        intro heq
        rw [heq] at hc
        exact hplus (UInt8.toNat_inj.1 hc.symm)
      have hhead : cs.head? ≠ some '+' := fun heq ↦ hchar (Option.some.inj heq)
      have hhead' : (b :: s).head? ≠ some 0x2B := fun heq ↦ hplus (Option.some.inj heq)
      rw [unsigned, if_neg hhead, if_neg hhead']

/-- The characters of ASCII bytes are read as a number if the bytes are its numeral. -/
theorem decimal?_ascii (h : ∀ b ∈ s, b.toNat < 0x80) :
    decimal? limit (s.map fun b ↦ Char.ofNat b.toNat) = some n ↔ IsNumeral s n ∧ n ≤ limit := by
  have hunsigned : ∀ b ∈ unsigned s, b.toNat < 0x80 := by
    intro b hb
    unfold unsigned at hb
    split at hb
    · exact h b (List.mem_of_mem_tail hb)
    · exact h b hb
  rw [decimal?_eq_some_iff, map_unsigned h, isNumeral_iff, ne_eq, List.map_eq_nil_iff]
  simp only [mapM_digit?_ascii hunsigned]
  constructor
  · rintro ⟨ds, hne, ⟨hdigits, rfl⟩, hn, hlimit⟩
    exact ⟨⟨hne, hdigits, hn⟩, hlimit⟩
  · rintro ⟨⟨hne, hdigits, hn⟩, hlimit⟩
    exact ⟨_, hne, ⟨hdigits, rfl⟩, hn, hlimit⟩

/-- What is read as a number is an ASCII text. -/
theorem ascii_of_decimal? {cs : List Char} (h : decimal? limit cs = some n) :
    ∀ c ∈ cs, c.toNat < 0x80 := by
  obtain ⟨ds, -, hds, -⟩ := decimal?_eq_some_iff.1 h
  have hdigit : ∀ c ∈ (if cs.head? = some '+' then cs.tail else cs), c.toNat < 0x80 := by
    intro c hc
    have hmem := List.mem_map_of_mem (f := digit?) hc
    rw [mapM_eq_some_iff.1 hds, List.mem_map] at hmem
    obtain ⟨d, -, hd⟩ := hmem
    have hrange := (digit?_eq_some_iff.1 hd.symm).1
    omega
  split at hdigit
  · next hplus =>
    obtain ⟨rest, rfl⟩ := List.head?_eq_some_iff.1 hplus
    exact List.forall_mem_cons.2 ⟨by decide, hdigit⟩
  · exact hdigit

/-- A numeral is ASCII. -/
theorem IsNumeral.ascii (h : IsNumeral s n) : ∀ b ∈ s, b.toNat < 0x80 := by
  obtain ⟨sign, digits, rfl, hsign, -, hdigits, -⟩ := h
  intro b hb
  rcases List.mem_append.1 hb with hb | hb
  · rcases hsign with rfl | rfl
    · cases hb
    · rw [List.mem_singleton.1 hb]
      decide
  · have hdigit := Escape.isDigit_iff.1 (hdigits b hb)
    omega

/-- A text that is read as a number of 16 bits is read as the number. -/
theorem word?_eq_some_iff {text : String} {n : UInt16} :
    word? text = some n ↔ decimal? 65535 text.toList = some n.toNat := by
  rw [word?, Option.map_eq_some_iff]
  constructor
  · rintro ⟨m, hm, rfl⟩
    obtain ⟨-, -, -, -, hlimit⟩ := decimal?_eq_some_iff.1 hm
    rw [hm, Nat.toUInt16_eq, UInt16.toNat_ofNat_of_lt' (Nat.lt_succ_of_le hlimit)]
  · intro h
    exact ⟨n.toNat, h, UInt16.ofNat_toNat⟩

/-- The bytes that are decoded and read as a number of 16 bits are the numerals of this number. -/
theorem word?_decode?_eq_some_iff {n : UInt16} :
    (Utf8.decode? s).bind word? = some n ↔ IsNumeral s n.toNat := by
  constructor
  · intro h
    obtain ⟨text, htext, hn⟩ := Option.bind_eq_some_iff.1 h
    rw [word?_eq_some_iff] at hn
    have hascii := Utf8.ascii_of_decode? htext (ascii_of_decimal? hn)
    rw [Utf8.decode?_ascii hascii, Option.some_inj] at htext
    rw [← htext, String.toList_ofList] at hn
    exact ((decimal?_ascii hascii).1 hn).1
  · intro h
    rw [Utf8.decode?_ascii h.ascii, Option.bind_some, word?_eq_some_iff, String.toList_ofList]
    exact (decimal?_ascii h.ascii).2 ⟨h, Nat.lt_succ_iff.1 n.toNat_lt⟩

end Numeral

end PtyHost
