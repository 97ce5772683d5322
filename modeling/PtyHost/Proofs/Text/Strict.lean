import PtyHost.Proofs.Text.Utf8

/-!
# Strict decoding

A byte string is decoded without a fault exactly if it is an encoded text, and it is decoded to this
text. What the decoder holds of a character that is not complete is the beginning of an encoded
character: whatever byte may come next goes on with it, since the range of the second byte is just
that of the characters that need so many bytes.

Main statement: `decode?_eq_some_iff`.
-/

namespace PtyHost.Utf8

/-! ### Characters by the number of their bytes -/

section Width

variable {b b₁ b₂ b₃ : UInt8} {n : Nat}

/-- A byte made of a number is the byte of that number. -/
theorem ofNat_eq (h : n = b.toNat) : UInt8.ofNat n = b := by
  rw [h, UInt8.ofNat_toNat]

/-- A character of one byte. -/
theorem encodeChar_one (hb : b.toNat < 0x80) :
    String.utf8EncodeChar (Char.ofNat b.toNat) = [b] := by
  have hn : (Char.ofNat b.toNat).toNat = b.toNat :=
    toNat_charOfNat (.inl (Nat.lt_trans hb (by decide)))
  rw [encodeChar_ascii (by rwa [hn]), hn, UInt8.ofNat_toNat]

/-- A character of two bytes. -/
theorem encodeChar_two (hb : 0xC2 ≤ b.toNat ∧ b.toNat < 0xE0) (h₁ : isContinuation b₁ = true) :
    String.utf8EncodeChar (Char.ofNat ((b.toNat - 0xC0) * 64 + (b₁.toNat - 0x80))) = [b, b₁] := by
  rw [isContinuation_iff] at h₁
  generalize hn : (b.toNat - 0xC0) * 64 + (b₁.toNat - 0x80) = n
  have hvalid : n.isValidChar := by
    unfold Nat.isValidChar
    omega
  have hchar : (Char.ofNat n).val.toNat = n := toNat_charOfNat hvalid
  have hlead : UInt8.ofNat (n / 64 % 32 + 192) = b := ofNat_eq (by omega)
  have hlast : UInt8.ofNat (n % 64 + 128) = b₁ := ofNat_eq (by omega)
  simp only [String.utf8EncodeChar, hchar]
  rw [if_neg (by omega), if_pos (by omega), hlead, hlast]

/-- A character of three bytes, of which the second is in the range that belongs to the first. -/
theorem encodeChar_three (hb : 0xE0 ≤ b.toNat ∧ b.toNat < 0xF0) (h₁ : isContinuation b₁ = true)
    (h₂ : isContinuation b₂ = true) (long : b.toNat = 0xE0 → 0xA0 ≤ b₁.toNat)
    (surrogate : b.toNat = 0xED → b₁.toNat ≤ 0x9F) :
    String.utf8EncodeChar (Char.ofNat
      (((b.toNat - 0xE0) * 64 + (b₁.toNat - 0x80)) * 64 + (b₂.toNat - 0x80))) = [b, b₁, b₂] := by
  rw [isContinuation_iff] at h₁ h₂
  generalize hn : ((b.toNat - 0xE0) * 64 + (b₁.toNat - 0x80)) * 64 + (b₂.toNat - 0x80) = n
  have hvalid : n.isValidChar := by
    unfold Nat.isValidChar
    omega
  have hchar : (Char.ofNat n).val.toNat = n := toNat_charOfNat hvalid
  have hlead : UInt8.ofNat (n / 4096 % 16 + 224) = b := ofNat_eq (by omega)
  have hsecond : UInt8.ofNat (n / 64 % 64 + 128) = b₁ := ofNat_eq (by omega)
  have hlast : UInt8.ofNat (n % 64 + 128) = b₂ := ofNat_eq (by omega)
  simp only [String.utf8EncodeChar, hchar]
  rw [if_neg (by omega), if_neg (by omega), if_pos (by omega), hlead, hsecond, hlast]

/-- A character of four bytes, of which the second is in the range that belongs to the first. -/
theorem encodeChar_four (hb : 0xF0 ≤ b.toNat ∧ b.toNat ≤ 0xF4) (h₁ : isContinuation b₁ = true)
    (h₂ : isContinuation b₂ = true) (h₃ : isContinuation b₃ = true)
    (long : b.toNat = 0xF0 → 0x90 ≤ b₁.toNat) (beyond : b.toNat = 0xF4 → b₁.toNat ≤ 0x8F) :
    String.utf8EncodeChar (Char.ofNat
      ((((b.toNat - 0xF0) * 64 + (b₁.toNat - 0x80)) * 64 + (b₂.toNat - 0x80)) * 64 +
        (b₃.toNat - 0x80))) = [b, b₁, b₂, b₃] := by
  rw [isContinuation_iff] at h₁ h₂ h₃
  generalize hn : (((b.toNat - 0xF0) * 64 + (b₁.toNat - 0x80)) * 64 + (b₂.toNat - 0x80)) * 64 +
      (b₃.toNat - 0x80) = n
  have hvalid : n.isValidChar := by
    unfold Nat.isValidChar
    omega
  have hchar : (Char.ofNat n).val.toNat = n := toNat_charOfNat hvalid
  have hlead : UInt8.ofNat (n / 262144 % 8 + 240) = b := ofNat_eq (by omega)
  have hsecond : UInt8.ofNat (n / 4096 % 64 + 128) = b₁ := ofNat_eq (by omega)
  have hthird : UInt8.ofNat (n / 64 % 64 + 128) = b₂ := ofNat_eq (by omega)
  have hlast : UInt8.ofNat (n % 64 + 128) = b₃ := ofNat_eq (by omega)
  simp only [String.utf8EncodeChar, hchar]
  rw [if_neg (by omega), if_neg (by omega), if_neg (by omega), hlead, hsecond, hthird, hlast]

end Width

/-! ### What the decoder holds -/

/-- Whether some bytes are what a decoder holds: whatever bytes may follow make them a whole encoded
character, which is the one that is found. -/
inductive Pending.Holds : Bytes → Pending → Prop
  | nothing : Holds [] .nothing
  | last {held : Bytes} {low high : UInt8} {value : Nat}
      (h : ∀ b, isContinuation b = true → low ≤ b → b ≤ high →
        String.utf8EncodeChar (Char.ofNat (value * 64 + (b.toNat - 0x80))) = held ++ [b]) :
      Holds held (.begun 1 low high value)
  | more {held : Bytes} {missing : Nat} {low high : UInt8} {value : Nat}
      (h : ∀ b, isContinuation b = true → low ≤ b → b ≤ high →
        Holds (held ++ [b]) (.begun (missing + 1) 0x80 0xBF (value * 64 + (b.toNat - 0x80)))) :
      Holds held (.begun (missing + 2) low high value)

/-- Whether nothing malformed was found in some bytes, and the characters that were, encoded, and
what the decoder holds then make up the bytes. -/
def Reads (bytes : Bytes) (next : Pending × List Piece) : Prop :=
  ∃ (cs : List Char) (held : Bytes), next.2 = cs.map some ∧ next.1.Holds held ∧
    bytes = cs.flatMap String.utf8EncodeChar ++ held

section Holds

variable {b : UInt8} {p : Pending} {held : Bytes}

/-- What is held counts as read. -/
theorem reads_of_holds (h : p.Holds held) : Reads held (p, []) := ⟨[], held, rfl, h, rfl⟩

/-- A character that is found counts as read. -/
theorem reads_found {c : Char} (h : String.utf8EncodeChar c = held) :
    Reads held (.nothing, [some c]) := ⟨[c], [], rfl, .nothing, by simp [h]⟩

/-- The leading byte of two. -/
theorem holds_two (hb : 0xC2 ≤ b.toNat ∧ b.toNat < 0xE0) :
    Pending.Holds [b] (.begun 1 0x80 0xBF (b.toNat - 0xC0)) :=
  .last fun _ h₁ _ _ ↦ encodeChar_two hb h₁

/-- The leading byte of three, with the range of the second that belongs to it. -/
theorem holds_three {low high : UInt8} {value : Nat} (hb : 0xE0 ≤ b.toNat ∧ b.toNat < 0xF0)
    (hvalue : value = b.toNat - 0xE0) (long : b.toNat = 0xE0 → 0xA0 ≤ low.toNat)
    (surrogate : b.toNat = 0xED → high.toNat ≤ 0x9F) :
    Pending.Holds [b] (.begun 2 low high value) := by
  rw [hvalue]
  refine .more fun b₁ h₁ hl hh ↦ .last fun b₂ h₂ _ _ ↦ encodeChar_three hb h₁ h₂ ?_ ?_
  · exact fun h ↦ Nat.le_trans (long h) (UInt8.le_iff_toNat_le.1 hl)
  · exact fun h ↦ Nat.le_trans (UInt8.le_iff_toNat_le.1 hh) (surrogate h)

/-- The leading byte of four, with the range of the second that belongs to it. -/
theorem holds_four {low high : UInt8} {value : Nat} (hb : 0xF0 ≤ b.toNat ∧ b.toNat ≤ 0xF4)
    (hvalue : value = b.toNat - 0xF0) (long : b.toNat = 0xF0 → 0x90 ≤ low.toNat)
    (beyond : b.toNat = 0xF4 → high.toNat ≤ 0x8F) :
    Pending.Holds [b] (.begun 3 low high value) := by
  rw [hvalue]
  refine .more fun b₁ h₁ hl hh ↦ .more fun b₂ h₂ _ _ ↦ .last fun b₃ h₃ _ _ ↦
    encodeChar_four hb h₁ h₂ h₃ ?_ ?_
  · exact fun h ↦ Nat.le_trans (long h) (UInt8.le_iff_toNat_le.1 hl)
  · exact fun h ↦ Nat.le_trans (UInt8.le_iff_toNat_le.1 hh) (beyond h)

/-- A first byte is read, unless it is malformed. -/
theorem reads_begin (h : none ∉ (begin b).2) : Reads [b] (begin b) := by
  revert h
  unfold begin
  simp only [UInt8.lt_iff_toNat_lt, ← UInt8.toNat_inj, UInt8.reduceToNat]
  split
  · next hascii => exact fun _ ↦ reads_found (encodeChar_one hascii)
  split
  · simp
  -- Each other case is a leading byte, with the range of the second that the case gives.
  split
  · exact fun _ ↦ reads_of_holds (holds_two (by omega))
  split
  · exact fun _ ↦ reads_of_holds (holds_three (by omega) (by omega) (by simp) (by omega))
  split
  · exact fun _ ↦ reads_of_holds (holds_three (by omega) (by omega) (by omega) (by simp))
  split
  · exact fun _ ↦ reads_of_holds (holds_three (by omega) rfl (by omega) (by omega))
  split
  · exact fun _ ↦ reads_of_holds (holds_four (by omega) (by omega) (by simp) (by omega))
  split
  · exact fun _ ↦ reads_of_holds (holds_four (by omega) rfl (by omega) (by omega))
  split
  · exact fun _ ↦ reads_of_holds (holds_four (by omega) (by omega) (by omega) (by simp))
  · simp

/-- A byte is read behind what is held, unless something is malformed. -/
theorem reads_step (h : p.Holds held) (hnone : none ∉ (step p b).2) :
    Reads (held ++ [b]) (step p b) := by
  cases p with
  | nothing =>
    cases h
    exact reads_begin hnone
  | begun missing low high value =>
    by_cases hb : isContinuation b ∧ low ≤ b ∧ b ≤ high
    case neg =>
      rw [step, if_neg hb] at hnone
      simp at hnone
    obtain ⟨hc, hl, hh⟩ := hb
    rw [step, if_pos ⟨hc, hl, hh⟩]
    cases h with
    | last h => exact reads_found (h b hc hl hh)
    | more h => exact reads_of_holds (h b hc hl hh)

end Holds

/-! ### A whole byte string -/

/-- The pieces that are found behind what is held, up to the end of the input. -/
def piecesFrom (p : Pending) : Bytes → List Piece
  | [] => p.finish
  | b :: s => (step p b).2 ++ piecesFrom (step p b).1 s

/-- A decoder finds its pieces one byte after the other. -/
theorem run_pieces (d : Decoder) (s : Bytes) :
    (d.run s).found.reverse ++ (d.run s).pending.finish =
      d.found.reverse ++ piecesFrom d.pending s := by
  induction s generalizing d with
  | nil => rfl
  | cons b s ih =>
    rw [show d.run (b :: s) = (d.push b).run s from rfl, ih, Decoder.push, piecesFrom,
      List.reverse_append, List.reverse_reverse, List.append_assoc]

/-- The pieces of a byte string are found from its front. -/
theorem pieces_eq (s : Bytes) : pieces s = piecesFrom .nothing s := run_pieces {} s

/-- What is held and what follows it are encoded characters, if these are all that is found. -/
theorem eq_of_piecesFrom {p : Pending} {held s : Bytes} {cs : List Char} (hp : p.Holds held)
    (h : piecesFrom p s = cs.map some) : held ++ s = cs.flatMap String.utf8EncodeChar := by
  -- On the bytes to come: each of them goes over from there to what is held, or completes it.
  induction s generalizing p held cs with
  | nil =>
    cases hp with
    | nothing =>
      rw [List.map_eq_nil_iff.1 h.symm]
      rfl
    | last _ => cases cs <;> cases h
    | more _ => cases cs <;> cases h
  | cons b s ih =>
    obtain ⟨found, rest, rfl, hfound, hrest⟩ := List.append_eq_map_iff.1 h
    have hnone : none ∉ (step p b).2 := by simp [← hfound]
    obtain ⟨cs, next, hcs, hnext, hbytes⟩ := reads_step hp hnone
    obtain rfl : cs = found :=
      (List.map_inj_right fun _ _ ↦ Option.some.inj).1 (hcs.symm.trans hfound.symm)
    rw [List.append_cons, hbytes, List.append_assoc, ih hnext hrest.symm, List.flatMap_append]

/-- A byte string is decoded to the text that it is the encoding of, and to no other. -/
theorem decode?_eq_some_iff {s : Bytes} {t : String} : decode? s = some t ↔ s = encode t := by
  constructor
  · intro h
    obtain ⟨cs, hcs, rfl⟩ := Option.map_eq_some_iff.1 h
    rw [mapM_eq_some_iff, List.map_id, pieces_eq] at hcs
    simpa [encode] using eq_of_piecesFrom .nothing hcs
  · rintro rfl
    rw [decode?, pieces_encode, mapM_eq_some_iff.2 (List.map_id _), Option.map_some,
      String.ofList_toList]

end PtyHost.Utf8
