/-!
# Blank texts

A text is blank if every character of it has the Unicode property
`White_Space`. The property is given as its list of ranges; it contains the
blanks that core knows (`isSpace_of_isWhitespace`).
-/

namespace ClientGen.Text

/-- The code points with the property `White_Space`, as closed ranges in
increasing order. -/
def spaceRanges : List (Nat × Nat) :=
  [(0x9, 0xD), (0x20, 0x20), (0x85, 0x85), (0xA0, 0xA0), (0x1680, 0x1680), (0x2000, 0x200A),
   (0x2028, 0x2029), (0x202F, 0x202F), (0x205F, 0x205F), (0x3000, 0x3000)]

/-- Whether a character has the property `White_Space`. -/
def isSpace (c : Char) : Bool :=
  spaceRanges.any (fun r => r.1 ≤ c.toNat && c.toNat ≤ r.2)

/-- Whether a text holds nothing but white space. -/
def isBlank (s : String) : Bool := s.toList.all isSpace

/-- What core calls white space is white space here. -/
theorem isSpace_of_isWhitespace (c : Char) (h : c.isWhitespace = true) : isSpace c = true := by
  simp only [Char.isWhitespace, Bool.or_eq_true, decide_eq_true_eq] at h
  rcases h with ((h | h) | h) | h <;> subst h <;> decide

end ClientGen.Text
