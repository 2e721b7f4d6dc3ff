import ClientGen.Conversion.Types
import ClientGen.Proofs.Identifiers

/-!
# The constants of numbers

A constant of a numeric enumeration is named for the literal of its value, with the signs and the
point spelled out. A spelling may hold letters and underscores, as what stands around it may; but
its first character tells what it is the spelling of, so the spellings of two literals differ where
the literals do (`Naming.flatMap_numericSpelling_injective`). The word in front makes a name of a
spelling, since it begins with a letter.

The text of a number is such a literal (`Json.isNumeral_compact`), so no two values of a numeric
enumeration share a constant (`Naming.numericConstant_distinguishes`).
-/

namespace ClientGen

namespace Naming

/-- The characters of number literals. -/
def numeralChars : List Char := "0123456789+-.eE".toList

/-- **A text of characters of number literals.** -/
def IsNumeral (s : String) : Prop := ∀ c ∈ s.toList, c ∈ numeralChars

instance (s : String) : Decidable (IsNumeral s) :=
  decidable_of_iff (s.toList.all (fun c => decide (c ∈ numeralChars)) = true) <| by
    simp only [List.all_eq_true, decide_eq_true_eq, IsNumeral]

/-- **A name that begins with a letter**, and goes on with letters, digits and underscores. -/
def BeginsWithLetter (s : String) : Prop :=
  ∃ first rest, s.toList = first :: rest ∧ first.isAlpha = true
    ∧ ∀ c ∈ rest, isIdentifierChar c = true

/-! ## Reading a spelling

The spellings are no prefix code by their length, but they are told apart by their first
character already: two of them are words with letters of their own in front, one is a point
between underscores, and every other character stands for itself. -/

/-- The character whose spelling begins with a character. -/
def spelledFrom : Char → Char
  | 'M' => '-'
  | 'P' => '+'
  | '_' => '.'
  | c => c

/-- **A spelling is known by its first character.** -/
theorem head?_numericSpelling {c : Char} (hc : c ∈ numeralChars) :
    (numericSpelling c).head?.map spelledFrom = some c := by
  have hall : numeralChars.all
      (fun c => (numericSpelling c).head?.map spelledFrom = some c) = true := by
    decide
  exact of_decide_eq_true (List.all_eq_true.mp hall c hc)

/-- Nothing is spelled as nothing, so the induction on two texts does not end early. -/
theorem numericSpelling_ne_nil {c : Char} (hc : c ∈ numeralChars) : numericSpelling c ≠ [] := by
  intro hnil
  have hhead := head?_numericSpelling hc
  rw [hnil] at hhead
  cases hhead

/-- What is spelled can stand in a name. -/
theorem isIdentifierChar_of_mem_numericSpelling {c d : Char} (hc : c ∈ numeralChars)
    (hd : d ∈ numericSpelling c) : isIdentifierChar d = true := by
  have hall : numeralChars.all (fun c => (numericSpelling c).all isIdentifierChar) = true := by
    decide
  exact List.all_eq_true.mp (List.all_eq_true.mp hall c hc) d hd

/-- So of two texts that begin with a spelling each, the spellings and the rests agree. -/
theorem eq_of_numericSpelling_append_eq {c d : Char} {cs ds : List Char} (hc : c ∈ numeralChars)
    (hd : d ∈ numeralChars) (h : numericSpelling c ++ cs = numericSpelling d ++ ds) :
    c = d ∧ cs = ds := by
  have hhead : ∀ {a : Char} (as : List Char), a ∈ numeralChars →
      (numericSpelling a ++ as).head?.map spelledFrom = some a := by
    intro a as ha
    rw [List.head?_append_of_ne_nil _ (numericSpelling_ne_nil ha), head?_numericSpelling ha]
  have hcd : some c = some d := by rw [← hhead cs hc, ← hhead ds hd, h]
  obtain rfl := Option.some.inj hcd
  exact ⟨rfl, List.append_cancel_left h⟩

/-- **Different literals are spelled differently.** By induction on the two texts: the first
characters are known from the spellings, and what is left are the spellings of the rests. -/
theorem flatMap_numericSpelling_injective {cs ds : List Char} (hcs : ∀ c ∈ cs, c ∈ numeralChars)
    (hds : ∀ d ∈ ds, d ∈ numeralChars)
    (h : cs.flatMap numericSpelling = ds.flatMap numericSpelling) : cs = ds := by
  induction cs generalizing ds with
  | nil =>
    cases ds with
    | nil => rfl
    | cons d ds =>
      have hnil := List.flatMap_eq_nil_iff.mp h.symm d List.mem_cons_self
      exact absurd hnil (numericSpelling_ne_nil (hds d List.mem_cons_self))
  | cons c cs ih =>
    cases ds with
    | nil =>
      have hnil := List.flatMap_eq_nil_iff.mp h c List.mem_cons_self
      exact absurd hnil (numericSpelling_ne_nil (hcs c List.mem_cons_self))
    | cons d ds =>
      rw [List.flatMap_cons, List.flatMap_cons] at h
      obtain ⟨rfl, hrest⟩ := eq_of_numericSpelling_append_eq (hcs c List.mem_cons_self)
        (hds d List.mem_cons_self) h
      exact congrArg _ (ih (fun a ha => hcs a (.tail c ha)) (fun a ha => hds a (.tail c ha)) hrest)

/-! ## Names of constants

A constant is a fixed word and the spelling of its text. The word can be taken off again, so
constants are as different as the spellings. -/

variable {s t : String}

/-- The constant of a text: a word, and the spelling of the text. -/
theorem toList_numericConstant (s : String) :
    (numericConstant s).toList = "NUMBER".toList ++ s.toList.flatMap numericSpelling :=
  String.toList_ofList

/-- **A constant tells the text that it is named for.** -/
theorem eq_of_numericConstant_eq (hs : IsNumeral s) (ht : IsNumeral t)
    (h : numericConstant s = numericConstant t) : s = t := by
  have hlist := congrArg String.toList h
  rw [toList_numericConstant, toList_numericConstant] at hlist
  exact String.toList_inj.mp
    (flatMap_numericSpelling_injective hs ht (List.append_cancel_left hlist))

/-- The constant of a literal begins with a letter, that of the word in front. -/
theorem beginsWithLetter_numericConstant (hs : IsNumeral s) :
    BeginsWithLetter (numericConstant s) := by
  refine ⟨'N', "UMBER".toList ++ s.toList.flatMap numericSpelling, toList_numericConstant s,
    by decide, fun d hd => ?_⟩
  rcases List.mem_append.mp hd with hd | hd
  · have hword : "UMBER".toList.all isIdentifierChar = true := by decide
    exact List.all_eq_true.mp hword d hd
  · obtain ⟨c, hc, hdc⟩ := List.mem_flatMap.mp hd
    exact isIdentifierChar_of_mem_numericSpelling (hs c hc) hdc

/-- Digits are characters of number literals. -/
theorem mem_numeralChars_of_isDigit {c : Char} (h : c.isDigit = true) : c ∈ numeralChars := by
  have halnum : Text.isAlphanumeric c = true := by rw [Text.isAlphanumeric, h, Bool.or_true]
  exact Text.forall_isAlphanumeric (p := fun c => c.isDigit = true → c ∈ numeralChars) (by decide)
    halnum h

end Naming

/-! ## The texts of numbers

A number is written as an integer, or as a floating-point value in positional or scientific
notation. All of these have digits, signs, a point and an `e`. Which digits they are is no
matter here. -/

open Naming (numeralChars IsNumeral mem_numeralChars_of_isDigit)

namespace Decimal

/-- The digits of a number are. -/
theorem mem_numeralChars_of_mem_digitsOf {n : Nat} {c : Char} (h : c ∈ digitsOf n) :
    c ∈ numeralChars :=
  mem_numeralChars_of_isDigit (Nat.isDigit_of_mem_toDigits (by decide) (by decide) h)

/-- Positional notation adds a point and zeros to the digits. The cases are where the point
comes to stand: behind all digits, in front of them, or between them. -/
theorem mem_of_mem_positional {pointZero : Bool} {digits : List Char} {exponent : Int} {c : Char}
    (h : c ∈ positional pointZero digits exponent) : c ∈ digits ∨ c = '.' ∨ c = '0' := by
  unfold positional at h
  dsimp only at h
  split_ifs at h
  · simp only [List.mem_append, List.mem_replicate, List.mem_cons, List.not_mem_nil, or_false] at h
    tauto
  · simp only [List.mem_append, List.mem_replicate, List.not_mem_nil, or_false] at h
    tauto
  · rcases List.mem_append.mp h with h | h
    · exact .inl (List.mem_of_mem_take h)
    · rcases List.mem_cons.mp h with rfl | h
      · exact .inr (.inl rfl)
      · exact .inl (List.mem_of_mem_drop h)
  · simp only [List.mem_append, List.mem_cons, List.mem_replicate] at h
    tauto

/-- Scientific notation adds a point, an `e` and a signed number. -/
theorem mem_of_mem_scientific {digits : List Char} {leading : Int} {c : Char}
    (h : c ∈ scientific digits leading) : c ∈ digits ∨ c ∈ numeralChars := by
  unfold scientific at h
  rcases List.mem_append.mp h with h | h
  · rcases List.mem_append.mp h with h | h
    · exact .inl (List.mem_of_mem_take h)
    · split at h
      · cases h
      · rcases List.mem_cons.mp h with rfl | h
        · exact .inr (by decide)
        · exact .inl (List.mem_of_mem_drop h)
  · rcases List.mem_cons.mp h with rfl | h
    · exact .inr (by decide)
    · rcases List.mem_cons.mp h with rfl | h
      · split_ifs <;> exact .inr (by decide)
      · exact .inr (mem_numeralChars_of_mem_digitsOf h)

/-- **The text of a finite floating-point value is a literal**, in whatever notation it is
written. An infinity has no such text. -/
theorem isNumeral_text {l : Layout} {x : Binary64} (hx : x.isFinite = true) :
    IsNumeral (l.text x) := by
  cases x with
  | nan => cases hx
  | infinite negative => cases hx
  | finite negative mantissa exponent =>
    intro c hc
    rw [Layout.text, String.toList_ofList] at hc
    have hpositional : ∀ {pointZero : Bool} {digits : List Char} {exponent : Int},
        (∀ d ∈ digits, d ∈ numeralChars) → c ∈ positional pointZero digits exponent →
          c ∈ numeralChars := by
      intro pointZero digits exponent hdigits hc
      rcases mem_of_mem_positional hc with hc | rfl | rfl
      · exact hdigits c hc
      · decide
      · decide
    rcases List.mem_append.mp hc with hc | hc
    · split_ifs at hc
      · rw [List.mem_singleton.mp hc]
        decide
      · cases hc
    · split_ifs at hc
      · exact hpositional (fun d hd => List.mem_singleton.mp hd ▸ by decide) hc
      · unfold Layout.figure at hc
        have hdigits : ∀ n, ∀ d ∈ digitsOf n, d ∈ numeralChars :=
          fun _ _ => mem_numeralChars_of_mem_digitsOf
        dsimp only at hc
        split_ifs at hc
        · exact hpositional (hdigits _) hc
        · exact (mem_of_mem_scientific hc).elim (hdigits _ c) id

end Decimal

/-- Whether a value is a number, and a finite one. -/
def Json.isFiniteNumber : Json → Bool
  | .number (.integer _) => true
  | .number (.float x) => x.isFinite
  | _ => false

/-- **The text of a number is a literal.** -/
theorem Json.isNumeral_compact {j : Json} (h : j.isFiniteNumber = true) : IsNumeral j.compact := by
  match j, h with
  | .number (.integer n), _ =>
    intro c hc
    rw [compact, String.toList_ofList, chars, numberChars, integerChars] at hc
    rcases List.mem_append.mp hc with hc | hc
    · split_ifs at hc
      · rw [List.mem_singleton.mp hc]
        decide
      · cases hc
    · exact Decimal.mem_numeralChars_of_mem_digitsOf hc
  | .number (.float x), h =>
    have hx : x.isFinite = true := h
    rw [IsNumeral, compact, String.toList_ofList, chars, numberChars, if_pos hx]
    exact Decimal.isNumeral_text hx

/-- A number is written as its compact text. -/
theorem Converter.valueText_of_isFiniteNumber {j : Json} (h : j.isFiniteNumber = true) :
    valueText j = j.compact := by
  match j, h with
  | .number n, _ => rfl

/-- **The constants of numbers are names, and different ones for different numbers**: the constant
of a text of characters of number literals is a letter with letters, digits and underscores
behind it, and no other such text has the same one. So two constants of an enumeration of numbers
with a numeric type are called alike only if they stand for the same value.

The spelling of a character is told by its first character, so the text of a number can be
read back from its constant. What is printed for a number is such a text. -/
theorem Naming.numericConstant_distinguishes :
    (∀ s, IsNumeral s → BeginsWithLetter (numericConstant s)
        ∧ ∀ t, IsNumeral t → numericConstant s = numericConstant t → s = t)
      ∧ ∀ (k : Converter) (values : List Json) (dataType : String),
        numericTypes.contains dataType = true → (∀ v ∈ values, v.isFiniteNumber = true) →
          ∀ c ∈ k.constants values dataType, ∀ d ∈ k.constants values dataType,
            c.name = d.name → c = d := by
  refine ⟨fun s hs => ⟨beginsWithLetter_numericConstant hs,
    fun t ht => eq_of_numericConstant_eq hs ht⟩, ?_⟩
  intro k values dataType htype hvalues c hc d hd hname
  -- A constant of the enumeration is that of a numeral, and determined by it.
  have hconstant : ∀ c ∈ k.constants values dataType, ∃ s, IsNumeral s
      ∧ c = { name := numericConstant s, wireValue := s, isText := false } := by
    intro c hc
    obtain ⟨v, hv, rfl⟩ := List.mem_map.mp hc
    have hnumber := hvalues v (List.mem_of_mem_filter hv)
    refine ⟨v.compact, Json.isNumeral_compact hnumber, ?_⟩
    rw [Converter.valueText_of_isFiniteNumber hnumber, Style.constant, constantName, if_pos htype]
    match v, hnumber with
    | .number n, _ => rfl
  obtain ⟨s, hs, rfl⟩ := hconstant c hc
  obtain ⟨t, ht, rfl⟩ := hconstant d hd
  rw [eq_of_numericConstant_eq hs ht hname]

/-- Two literals in which a sign and a point stand next to each other, either way round, and an
enumeration of whole numbers. -/
theorem Naming.numericConstant_distinguishes_of_signs :
    numericConstant "-.5" = "NUMBERMINUS__DOT_5" ∧ BeginsWithLetter (numericConstant "-.5")
      ∧ numericConstant ".-5" = "NUMBER_DOT_MINUS_5"
      ∧ numericConstant "-.5" ≠ numericConstant ".-5"
      ∧ ∀ k : Converter, ∀ c ∈ k.constants [.ofInt (-1), .ofInt 1] "kotlin.Int",
        ∀ d ∈ k.constants [.ofInt (-1), .ofInt 1] "kotlin.Int", c.name = d.name → c = d := by
  obtain ⟨hname, hdistinct⟩ := numericConstant_distinguishes.1 "-.5" (by decide)
  refine ⟨by decide, hname, by decide, fun h => ?_, fun k => ?_⟩
  · exact absurd (hdistinct ".-5" (by decide) h) (by decide)
  · exact numericConstant_distinguishes.2 k _ "kotlin.Int" (by decide) (by decide)

end ClientGen
