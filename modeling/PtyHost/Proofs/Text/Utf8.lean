import PtyHost.Path

/-!
# Decoding what was encoded

The bytes of a text are decoded to the text. A character is encoded as a leading byte and up to
three that continue it; the decoder narrows the second byte after some leading bytes, and a
character that was encoded always keeps within that range, since it is neither a surrogate nor
encoded at greater length than it needs.

Main statements: `pieces_encode` (nothing in an encoded text is malformed), `decodeLossy_encode`
(the lossy reading gives the text back), `mem_fields_encode` and `joined_encode` (what stands
between ASCII bytes of an encoded text is encoded text, and the other way round), and
`mem_of_mem_decodeLossy` (an ASCII character of any decoded text is a byte of what was decoded).
-/

namespace PtyHost

/-- A list is read as a whole if each of its members is. -/
theorem mapM_eq_some_iff {α β : Type} {f : α → Option β} {l : List α} {r : List β} :
    l.mapM f = some r ↔ l.map f = r.map some := by
  induction l generalizing r with
  | nil => cases r <;> simp
  | cons a l ih =>
    cases hf : f a with
    | none => cases r <;> simp [hf]
    | some b =>
      cases hl : l.mapM f with
      | none => cases r <;> simp [hf, hl, ← ih]
      | some bs => cases r <;> simp [hf, hl, ← ih]

namespace Utf8

/-! ### Leading bytes -/

section Leading

variable {b : UInt8} {n : Nat}

/-- The leading byte of two. -/
theorem begin_two (low : 0xC2 ≤ b.toNat) (high : b.toNat < 0xE0) :
    begin b = (.begun 1 0x80 0xBF (b.toNat - 0xC0), []) := by
  simp only [begin, UInt8.lt_iff_toNat_lt]
  rw [if_neg (by simp; omega), if_neg (by simp; omega), if_pos (by simp; omega)]

/-- The leading byte of three admits a second byte `n` that is neither overlong nor makes a
surrogate. -/
theorem begin_three (low : 0xE0 ≤ b.toNat) (high : b.toNat < 0xF0)
    (hn : 0x80 ≤ n ∧ n ≤ 0xBF) (long : b.toNat = 0xE0 → 0xA0 ≤ n)
    (surrogate : b.toNat = 0xED → n ≤ 0x9F) :
    ∃ lo hi, begin b = (.begun 2 lo hi (b.toNat - 0xE0), []) ∧ lo.toNat ≤ n ∧ n ≤ hi.toNat := by
  simp only [begin, UInt8.lt_iff_toNat_lt, ← UInt8.toNat_inj]
  rw [if_neg (by simp; omega), if_neg (by simp; omega), if_neg (by simp; omega)]
  split
  next h => exact ⟨0xA0, 0xBF, by rw [h]; rfl, long h, hn.2⟩
  split
  next h => exact ⟨0x80, 0x9F, by rw [h]; rfl, hn.1, surrogate h⟩
  rw [if_pos (by simp; omega)]
  exact ⟨_, _, rfl, hn⟩

/-- The leading byte of four admits a second byte `n` that is neither overlong nor leads beyond
U+10FFFF. -/
theorem begin_four (low : 0xF0 ≤ b.toNat) (high : b.toNat ≤ 0xF4)
    (hn : 0x80 ≤ n ∧ n ≤ 0xBF) (long : b.toNat = 0xF0 → 0x90 ≤ n)
    (beyond : b.toNat = 0xF4 → n ≤ 0x8F) :
    ∃ lo hi, begin b = (.begun 3 lo hi (b.toNat - 0xF0), []) ∧ lo.toNat ≤ n ∧ n ≤ hi.toNat := by
  simp only [begin, UInt8.lt_iff_toNat_lt, ← UInt8.toNat_inj]
  rw [if_neg (by simp; omega), if_neg (by simp; omega), if_neg (by simp; omega),
    if_neg (by simp; omega), if_neg (by simp; omega), if_neg (by simp; omega)]
  split
  next h => exact ⟨0x90, 0xBF, by rw [h]; rfl, long h, hn.2⟩
  split
  next h => exact ⟨_, _, rfl, hn⟩
  next h =>
    have hb : b.toNat = UInt8.toNat 0xF4 := Nat.le_antisymm high (Nat.not_lt.1 h)
    rw [if_pos hb]
    exact ⟨0x80, 0x8F, by rw [hb]; rfl, hn.1, beyond hb⟩

end Leading

/-! ### A whole character -/

section Character

variable {b : UInt8} {p : Pending} {low high : UInt8} {missing value : Nat}

/-- A byte that leads others leaves a character begun. -/
theorem push_leading (h : begin b = (p, [])) : Decoder.push {} b = ⟨p, []⟩ := by
  simp only [Decoder.push, step, h]
  rfl

/-- A byte within the range goes on with the character begun. -/
theorem step_continuation (h : 0x80 ≤ b.toNat ∧ b.toNat ≤ 0xBF) (hl : low.toNat ≤ b.toNat)
    (hh : b.toNat ≤ high.toNat) :
    step (.begun missing low high value) b =
      if missing ≤ 1 then (.nothing, [some (Char.ofNat (value * 64 + (b.toNat - 0x80)))])
      else (.begun (missing - 1) 0x80 0xBF (value * 64 + (b.toNat - 0x80)), []) := by
  have hc : isContinuation b ∧ low ≤ b ∧ b ≤ high := by
    rw [isContinuation_iff]
    exact ⟨⟨h.1, Nat.lt_succ_of_le h.2⟩, UInt8.le_iff_toNat_le.2 hl, UInt8.le_iff_toNat_le.2 hh⟩
  simp only [step, if_pos hc]

/-- A byte within the range, with more to come. -/
theorem push_continuation (h : 0x80 ≤ b.toNat ∧ b.toNat ≤ 0xBF) (hl : low.toNat ≤ b.toNat)
    (hh : b.toNat ≤ high.toNat) :
    Decoder.push ⟨.begun (missing + 2) low high value, []⟩ b =
      ⟨.begun (missing + 1) 0x80 0xBF (value * 64 + (b.toNat - 0x80)), []⟩ := by
  simp [Decoder.push, step_continuation h hl hh]

/-- The last byte of a character. -/
theorem push_last (h : 0x80 ≤ b.toNat ∧ b.toNat ≤ 0xBF) (hl : low.toNat ≤ b.toNat)
    (hh : b.toNat ≤ high.toNat) :
    Decoder.push ⟨.begun 1 low high value, []⟩ b =
      ⟨.nothing, [some (Char.ofNat (value * 64 + (b.toNat - 0x80)))]⟩ := by
  simp [Decoder.push, step_continuation h hl hh]

/-- A byte made of a small number is that number. -/
theorem toNat_ofNat_of_le {n : Nat} (h : n ≤ 0xFF) : (UInt8.ofNat n).toNat = n :=
  UInt8.toNat_ofNat_of_lt' (Nat.lt_of_le_of_lt h (by decide))

/-- The six low bits of a number, with the mark of a byte that continues a character. -/
theorem continuation_range (n : Nat) :
    0x80 ≤ (UInt8.ofNat (n % 64 + 128)).toNat ∧ (UInt8.ofNat (n % 64 + 128)).toNat ≤ 0xBF := by
  have := toNat_ofNat_of_le (n := n % 64 + 128) (by omega)
  omega

/-- A character that was encoded is found again, with nothing pending behind it. -/
theorem run_encodeChar (c : Char) :
    Decoder.run {} (String.utf8EncodeChar c) = ⟨.nothing, [some c]⟩ := by
  have hvalid : c.toNat < 0xD800 ∨ 0xDFFF < c.toNat ∧ c.toNat < 0x110000 := c.valid
  simp only [String.utf8EncodeChar, show c.val.toNat = c.toNat from rfl, Decoder.run]
  -- The bytes are numbers below 256, so the decoder's arithmetic is that of the encoding.
  have hrange := continuation_range c.toNat
  have hrange' := continuation_range (c.toNat / 64)
  have hlast := toNat_ofNat_of_le (n := c.toNat % 64 + 128) (by omega)
  have hsecond := toNat_ofNat_of_le (n := c.toNat / 64 % 64 + 128) (by omega)
  have hthird := toNat_ofNat_of_le (n := c.toNat / 4096 % 64 + 128) (by omega)
  split
  next h =>
    have hb := toNat_ofNat_of_le (n := c.toNat) (by omega)
    have hascii : UInt8.ofNat c.toNat < 0x80 := by
      rw [UInt8.lt_iff_toNat_lt, hb]
      exact Nat.lt_succ_of_le h
    simp [Decoder.push, step_ascii _ hascii, Pending.finish, hb]
  split
  next hlong h =>
    have hb := toNat_ofNat_of_le (n := c.toNat / 64 % 32 + 192) (by omega)
    have hbegin := begin_two (b := UInt8.ofNat (c.toNat / 64 % 32 + 192)) (by omega) (by omega)
    have hvalue : c.toNat / 64 % 32 * 64 + c.toNat % 64 = c.toNat := by omega
    rw [List.foldl_cons, List.foldl_cons, List.foldl_nil, push_leading hbegin,
      push_last hrange (by exact hrange.1) (by exact hrange.2), hb, hlast]
    simp [hvalue]
  split
  next hlong h =>
    have hb := toNat_ofNat_of_le (n := c.toNat / 4096 % 16 + 224) (by omega)
    obtain ⟨lo, hi, hbegin, hl, hh⟩ := begin_three
      (b := UInt8.ofNat (c.toNat / 4096 % 16 + 224)) (n := c.toNat / 64 % 64 + 128)
      (by omega) (by omega) (by omega) (by omega) (by omega)
    have hvalue : (c.toNat / 4096 % 16 * 64 + c.toNat / 64 % 64) * 64 + c.toNat % 64 = c.toNat := by
      omega
    rw [List.foldl_cons, List.foldl_cons, List.foldl_cons, List.foldl_nil, push_leading hbegin,
      push_continuation (by omega) (by omega) (by omega),
      push_last hrange (by exact hrange.1) (by exact hrange.2), hb, hsecond, hlast]
    simp [hvalue]
  next hlong =>
    have hb := toNat_ofNat_of_le (n := c.toNat / 262144 % 8 + 240) (by omega)
    obtain ⟨lo, hi, hbegin, hl, hh⟩ := begin_four
      (b := UInt8.ofNat (c.toNat / 262144 % 8 + 240)) (n := c.toNat / 4096 % 64 + 128)
      (by omega) (by omega) (by omega) (by omega) (by omega)
    have hvalue : ((c.toNat / 262144 % 8 * 64 + c.toNat / 4096 % 64) * 64 + c.toNat / 64 % 64) * 64
        + c.toNat % 64 = c.toNat := by
      omega
    rw [List.foldl_cons, List.foldl_cons, List.foldl_cons, List.foldl_cons, List.foldl_nil,
      push_leading hbegin, push_continuation (by omega) (by omega) (by omega),
      push_continuation hrange' (by exact hrange'.1) (by exact hrange'.2),
      push_last hrange (by exact hrange.1) (by exact hrange.2), hb, hthird, hsecond, hlast]
    simp [hvalue]

end Character

/-! ### A whole text -/

/-- A decoder between characters finds those of an encoded text, and is between characters
again. -/
theorem run_encode (cs : List Char) (found : List Piece) :
    Decoder.run ⟨.nothing, found⟩ (cs.flatMap String.utf8EncodeChar) =
      ⟨.nothing, (cs.map some).reverse ++ found⟩ := by
  induction cs generalizing found with
  | nil => rfl
  | cons c cs ih =>
    have hchar : Decoder.run ⟨.nothing, found⟩ (String.utf8EncodeChar c) =
        ⟨.nothing, some c :: found⟩ := by
      rw [Decoder.run_found, show (⟨.nothing, []⟩ : Decoder) = {} from rfl, run_encodeChar]
      rfl
    simp only [Decoder.run, List.flatMap_cons, List.foldl_append] at hchar ih ⊢
    rw [hchar, ih]
    simp

/-- Nothing in an encoded text is malformed. -/
theorem pieces_encode (s : String) : pieces (encode s) = s.toList.map some := by
  simp only [pieces, encode]
  rw [show ({} : Decoder) = ⟨.nothing, []⟩ from rfl, run_encode]
  simp [Pending.finish]

/-- The lossy reading of an encoded text is the text. -/
theorem decodeLossy_encode (s : String) : decodeLossy (encode s) = s := by
  rw [decodeLossy, pieces_encode, List.map_map]
  simp [Function.comp_def]

/-- A text is the only one with its encoding. -/
theorem encode_injective {s t : String} (h : encode s = encode t) : s = t := by
  rw [← decodeLossy_encode s, h, decodeLossy_encode]

/-- Texts are encoded one after the other. -/
theorem encode_append (s t : String) : encode (s ++ t) = encode s ++ encode t := by
  simp [encode]

/-! ### ASCII bytes in an encoded text -/

/-- An ASCII character is encoded as its own byte. -/
theorem encodeChar_ascii {c : Char} (h : c.toNat < 0x80) :
    String.utf8EncodeChar c = [UInt8.ofNat c.toNat] := by
  have hc : c.toNat ≤ 127 := Nat.le_of_lt_succ h
  simp only [String.utf8EncodeChar, show c.val.toNat = c.toNat from rfl, if_pos hc]

/-- The bytes of every other character are beyond ASCII. -/
theorem le_toNat_of_mem_encodeChar {c : Char} {b : UInt8} (h : 0x80 ≤ c.toNat)
    (hb : b ∈ String.utf8EncodeChar c) : 0x80 ≤ b.toNat := by
  have hrange {n : Nat} (hn : 0x80 ≤ n ∧ n ≤ 0xFF) (hb : b = UInt8.ofNat n) : 0x80 ≤ b.toNat := by
    rw [hb, toNat_ofNat_of_le hn.2]
    exact hn.1
  simp only [String.utf8EncodeChar, show c.val.toNat = c.toNat from rfl,
    if_neg (Nat.not_le.2 h)] at hb
  split at hb
  next =>
    simp only [List.mem_cons, List.not_mem_nil, or_false] at hb
    rcases hb with hb | hb <;> exact hrange (by omega) hb
  split at hb
  next =>
    simp only [List.mem_cons, List.not_mem_nil, or_false] at hb
    rcases hb with hb | hb | hb <;> exact hrange (by omega) hb
  next =>
    simp only [List.mem_cons, List.not_mem_nil, or_false] at hb
    rcases hb with hb | hb | hb | hb <;> exact hrange (by omega) hb

/-- An encoded character is a given ASCII byte, or does not hold it. -/
theorem encodeChar_eq_or_notMem (c : Char) {b : UInt8} (hb : b.toNat < 0x80) :
    String.utf8EncodeChar c = [b] ∨ b ∉ String.utf8EncodeChar c := by
  by_cases h : c.toNat < 0x80
  · rw [encodeChar_ascii h, List.mem_singleton, List.singleton_inj]
    exact (Decidable.em _).imp_right Ne.symm
  · exact .inr fun hmem ↦
      absurd (le_toNat_of_mem_encodeChar (Nat.not_lt.1 h) hmem) (Nat.not_le.2 hb)

/-- What stands between ASCII bytes of an encoded text is encoded text, of characters of the
whole. -/
theorem mem_fields_encode {sep : UInt8} (hsep : sep.toNat < 0x80) {s : String} {f : Bytes}
    (hf : f ∈ Bytes.fields sep (encode s)) :
    ∃ t : String, f = encode t ∧ t.toList ⊆ s.toList := by
  suffices h : ∃ ds ⊆ s.toList, f = ds.flatMap String.utf8EncodeChar by
    obtain ⟨ds, hds, hf⟩ := h
    exact ⟨String.ofList ds, by simp [encode, hf], by simpa using hds⟩
  rw [encode] at hf
  generalize s.toList = cs at hf ⊢
  induction cs generalizing f with
  | nil =>
    rw [List.flatMap_nil, Bytes.fields, List.mem_singleton] at hf
    exact ⟨[], List.Subset.refl _, hf⟩
  | cons c cs ih =>
    rw [List.flatMap_cons] at hf
    have hrest {f : Bytes} (hf : f ∈ Bytes.fields sep (cs.flatMap String.utf8EncodeChar)) :
        ∃ ds ⊆ c :: cs, f = ds.flatMap String.utf8EncodeChar := by
      obtain ⟨ds, hds, heq⟩ := ih hf
      exact ⟨ds, List.Subset.trans hds (List.subset_cons_self c cs), heq⟩
    rcases encodeChar_eq_or_notMem c hsep with hc | hc
    · rw [hc, List.singleton_append, Bytes.fields, if_pos rfl, List.mem_cons] at hf
      rcases hf with rfl | hf
      · exact ⟨[], List.nil_subset _, rfl⟩
      · exact hrest hf
    · rw [Bytes.fields_append_of_notMem hc] at hf
      cases hfs : Bytes.fields sep (cs.flatMap String.utf8EncodeChar) with
      | nil => exact absurd hfs (Bytes.fields_ne_nil _ _)
      | cons g gs =>
        rw [hfs, List.modifyHead_cons, List.mem_cons] at hf
        rcases hf with rfl | hf
        · obtain ⟨ds, hds, heq⟩ := ih (f := g) (by simp [hfs])
          exact ⟨c :: ds, List.cons_subset_cons c hds, by simp [heq]⟩
        · exact hrest (by simp [hfs, hf])

/-- Encoded texts, joined by an ASCII character, are an encoded text, of characters of theirs and
that one. -/
theorem joined_encode {c : Char} (hc : c.toNat < 0x80) {P : Char → Prop} (hP : P c)
    {fs : List Bytes} (h : ∀ f ∈ fs, ∃ t : String, f = encode t ∧ ∀ d ∈ t.toList, P d) :
    ∃ t : String, Bytes.joined (UInt8.ofNat c.toNat) fs = encode t ∧ ∀ d ∈ t.toList, P d := by
  fun_induction Bytes.joined (UInt8.ofNat c.toNat) fs with
  | case1 => exact ⟨"", rfl, by simp⟩
  | case2 f => exact h f (by simp)
  | case3 f g rest ih =>
    obtain ⟨t, rfl, ht⟩ := h f (by simp)
    obtain ⟨u, hu, hPu⟩ := ih fun f hf ↦ h f (List.mem_cons_of_mem _ hf)
    refine ⟨t ++ String.singleton c ++ u, ?_, ?_⟩
    · rw [hu, encode_append, encode_append]
      simp [encode, encodeChar_ascii hc]
    · intro d hd
      simp only [String.toList_append, List.mem_append] at hd
      rcases hd with (hd | hd) | hd
      · exact ht d hd
      · rw [String.toList_singleton, List.mem_singleton] at hd
        exact hd ▸ hP
      · exact hPu d hd

/-! ### ASCII characters in a decoded text -/

section Ascii

/-- Whether a number stands for characters beyond ASCII when six more bits follow it, whatever they
are. -/
def IsScalarBlock (value : Nat) : Prop :=
  2 ≤ value ∧ (value < 0x360 ∨ 0x380 ≤ value) ∧ value < 0x4400

/-- Whether the bytes that a character lacks, each within its range, make it a character beyond
ASCII. -/
inductive Pending.Sound : Pending → Prop
  | nothing : Sound .nothing
  | one {low high : UInt8} {value : Nat} (h : IsScalarBlock value) : Sound (.begun 1 low high value)
  | two {low high : UInt8} {value : Nat}
      (h : ∀ n, low.toNat ≤ n → n ≤ high.toNat → IsScalarBlock (value * 64 + (n - 0x80))) :
      Sound (.begun 2 low high value)
  | three {low high : UInt8} {value : Nat}
      (h : ∀ n, low.toNat ≤ n → n ≤ high.toNat →
        0x10 ≤ value * 64 + (n - 0x80) ∧ value * 64 + (n - 0x80) < 0x110) :
      Sound (.begun 3 low high value)

variable {b : UInt8} {c : Char} {p : Pending}

/-- The character that a number stands for has that number. -/
theorem toNat_charOfNat {n : Nat} (h : n.isValidChar) : (Char.ofNat n).toNat = n := by
  rw [Char.ofNat, dif_pos h]
  rfl

/-- A leading byte leaves a sound character begun. -/
theorem sound_begin (b : UInt8) : (begin b).1.Sound := by
  have hb := b.toNat_lt
  unfold begin
  simp only [UInt8.lt_iff_toNat_lt, ← UInt8.toNat_inj, UInt8.reduceToNat]
  -- The bounds of the second byte are closed terms, and the first byte is bounded by the cases.
  repeat' split
  all_goals first
    | exact .nothing
    | exact .one ⟨by omega, by omega, by omega⟩
    | refine .two fun n hlow hhigh ↦ ?_
      simp only [UInt8.reduceToNat] at hlow hhigh
      exact ⟨by omega, by omega, by omega⟩
    | refine .three fun n hlow hhigh ↦ ?_
      simp only [UInt8.reduceToNat] at hlow hhigh
      exact ⟨by omega, by omega⟩

/-- All that a leading byte can be by itself is the ASCII character of that number. -/
theorem toNat_of_mem_begin (h : some c ∈ (begin b).2) : c.toNat = b.toNat := by
  unfold begin at h
  split at h
  · next hascii =>
    obtain rfl : c = Char.ofNat b.toNat := by simpa using h
    exact toNat_charOfNat (Or.inl (Nat.lt_trans (UInt8.lt_iff_toNat_lt.1 hascii) (by decide)))
  · repeat' split at h
    all_goals simp at h

/-- A byte that goes on with a sound character leaves a sound one, or completes a character beyond
ASCII. -/
theorem sound_step (h : p.Sound) (b : UInt8) :
    (step p b).1.Sound ∧ ∀ c, some c ∈ (step p b).2 → c.toNat < 0x80 → c.toNat = b.toNat := by
  have hbegin : (begin b).1.Sound ∧
      ∀ c, some c ∈ none :: (begin b).2 → c.toNat < 0x80 → c.toNat = b.toNat := by
    refine ⟨sound_begin b, ?_⟩
    intro c hc _
    rw [List.mem_cons] at hc
    exact toNat_of_mem_begin (hc.resolve_left (by simp))
  cases p with
  | nothing => exact ⟨sound_begin b, fun c hc _ ↦ toNat_of_mem_begin hc⟩
  | begun missing low high value =>
    by_cases hb : isContinuation b ∧ low ≤ b ∧ b ≤ high
    case neg =>
      rw [step, if_neg hb]
      exact hbegin
    rw [step, if_pos hb]
    rw [isContinuation_iff, UInt8.le_iff_toNat_le, UInt8.le_iff_toNat_le] at hb
    obtain ⟨⟨hlow, hhigh⟩, hl, hh⟩ := hb
    cases h with
    | one h =>
      obtain ⟨hascii, hsurrogate, hbound⟩ := h
      refine ⟨.nothing, ?_⟩
      intro c hc hlt
      have hvalue : c = Char.ofNat (value * 64 + (b.toNat - 0x80)) := by simpa using hc
      have hvalid : (value * 64 + (b.toNat - 0x80)).isValidChar := by
        unfold Nat.isValidChar
        omega
      rw [hvalue, toNat_charOfNat hvalid] at hlt
      omega
    | two h => exact ⟨.one (h b.toNat hl hh), by simp⟩
    | three h =>
      obtain ⟨hmin, hmax⟩ := h b.toNat hl hh
      refine ⟨.two fun n hlow hhigh ↦ ?_, by simp⟩
      simp only [UInt8.reduceToNat] at hlow hhigh
      exact ⟨by omega, by omega, by omega⟩

/-- An ASCII character that is found is a byte of what was decoded. -/
theorem mem_of_mem_pieces {s : Bytes} (h : some c ∈ pieces s) (hc : c.toNat < 0x80) :
    UInt8.ofNat c.toNat ∈ s := by
  suffices hrun : ∀ (rest done : Bytes) (d : Decoder), d.pending.Sound →
      (∀ c, some c ∈ d.found → c.toNat < 0x80 → UInt8.ofNat c.toNat ∈ done) →
      ∀ c, some c ∈ (d.run rest).found → c.toNat < 0x80 → UInt8.ofNat c.toNat ∈ done ++ rest by
    rw [pieces, List.mem_append, List.mem_reverse] at h
    rcases h with hfound | hend
    · exact hrun s [] {} .nothing (by simp) c hfound hc
    · cases hp : (Decoder.run {} s).pending <;> simp [hp, Pending.finish] at hend
  intro rest
  induction rest with
  | nil =>
    intro done d _ hfound
    rwa [List.append_nil]
  | cons b rest ih =>
    intro done d hsound hfound c hmem hascii
    obtain ⟨hnext, hpieces⟩ := sound_step hsound b
    rw [List.append_cons]
    refine ih (done ++ [b]) (d.push b) hnext ?_ c hmem hascii
    intro c hc hlt
    rw [Decoder.push, List.mem_append, List.mem_reverse] at hc
    rw [List.mem_append, List.mem_singleton]
    rcases hc with hnew | hold
    · right
      rw [hpieces c hnew hlt, UInt8.ofNat_toNat]
    · exact .inl (hfound c hold hlt)

/-- An ASCII character of a decoded text is a byte of what was decoded. -/
theorem mem_of_mem_decodeLossy {s : Bytes} (h : c ∈ (decodeLossy s).toList) (hc : c.toNat < 0x80) :
    UInt8.ofNat c.toNat ∈ s := by
  rw [decodeLossy, String.toList_ofList, List.mem_map] at h
  obtain ⟨piece, hpiece, rfl⟩ := h
  cases piece with
  | none => simp at hc
  | some c => exact mem_of_mem_pieces hpiece hc

end Ascii

end Utf8

end PtyHost
