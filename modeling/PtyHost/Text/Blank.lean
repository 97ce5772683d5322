/-!
# Blanks

The characters with the Unicode property White_Space, and texts stripped of them at both ends.
-/

namespace PtyHost.Text

/-- The ranges of White_Space, both ends included. -/
def blankRanges : List (Nat × Nat) :=
  [(0x09, 0x0D), (0x20, 0x20), (0x85, 0x85), (0xA0, 0xA0), (0x1680, 0x1680), (0x2000, 0x200A),
    (0x2028, 0x2029), (0x202F, 0x202F), (0x205F, 0x205F), (0x3000, 0x3000)]

/-- Whether a character has the property White_Space. -/
def isBlank (c : Char) : Bool :=
  blankRanges.any fun (first, last) ↦ first ≤ c.toNat && c.toNat ≤ last

/-- Characters without the blanks at both ends. -/
def trimmedChars (cs : List Char) : List Char :=
  ((cs.dropWhile isBlank).reverse.dropWhile isBlank).reverse

/-- A text without the blanks at both ends. -/
def trimmed (s : String) : String := String.ofList (trimmedChars s.toList)

/-- The characters of a trimmed text. -/
@[simp]
theorem toList_trimmed (s : String) : (trimmed s).toList = trimmedChars s.toList := by
  simp [trimmed]

end PtyHost.Text
