import ClientGen.Json.Printer
import ClientGen.Json.Reader
import ClientGen.Proofs.Nodes

/-!
# Reading what was written

The compact text of a value is read into the node of the value (`Json.read?_compact`), if
its numbers are whole ones of 64 bits and it is not nested beyond the limit. The reader is
followed along the writer: characters of a text, digits of a number, items and fields, each
in front of whatever the text goes on with.

What a text goes on with cannot be left out. A number ends where no digit follows, so its
statement needs to know what stands behind it (`Json.EndsValue`), while a text, a list and
an object bring their own end with them. And the reader is given fuel for the length of the
whole text, which every part has to leave enough of for the rest; the statements ask for no
more fuel than the part is long.
-/

namespace ClientGen.Json

/-! ## Whole values

An integer of a value is written by its digits and read by them. For a floating-point value
the digits that are written are the shortest that are read as that value, which is a fact
about decimal expansions that is not needed for values that have none. -/

mutual

/-- **Whether all numbers in a value are integers.** -/
def isWhole : Json → Bool
  | .number (.float _) => false
  | .list items => areWhole items
  | .object fields => haveWholeValues fields
  | _ => true

/-- Whether all numbers in the items of a list are integers. -/
def areWhole : List Json → Bool
  | [] => true
  | j :: js => isWhole j && areWhole js

/-- Whether all numbers in the fields of an object are integers. -/
def haveWholeValues : List (String × Json) → Bool
  | [] => true
  | (_, v) :: fs => isWhole v && haveWholeValues fs

end

/-- A list is whole if all items are. -/
theorem areWhole_eq_all (items : List Json) : areWhole items = items.all isWhole := by
  induction items with
  | nil => rfl
  | cons j js ih => rw [areWhole, ih, List.all_cons]

/-- An object is whole if all values are; keys are texts. -/
theorem haveWholeValues_eq_all (fields : List (String × Json)) :
    haveWholeValues fields = fields.all (fun f => f.2.isWhole) := by
  induction fields with
  | nil => rfl
  | cons f fs ih =>
    obtain ⟨k, v⟩ := f
    rw [haveWholeValues, ih, List.all_cons]

@[simp] theorem isWhole_list {items : List Json} :
    (Json.list items).isWhole = true ↔ ∀ j ∈ items, j.isWhole = true := by
  rw [isWhole, areWhole_eq_all, List.all_eq_true]

@[simp] theorem isWhole_object {fields : List (String × Json)} :
    (Json.object fields).isWhole = true ↔ ∀ f ∈ fields, f.2.isWhole = true := by
  rw [isWhole, haveWholeValues_eq_all, List.all_eq_true]

/-! ## Texts

A character is written as itself, as an escape of one letter, or by its code. In each case
the reader takes off what was written and goes on with the next character. -/

/-- A hexadecimal digit is read as the number that it writes. -/
theorem hexValue?_hexDigit : ∀ n < 16, hexValue? (hexDigit n) = some n := by decide

/-- A character of control is found again behind its escape. -/
theorem readUnit?_of_control {c : Char} (h : c.toNat < 0x20) (cs : List Char) :
    readUnit? ('0' :: '0' :: hexDigit (c.toNat / 16) :: hexDigit (c.toNat % 16) :: cs)
      = some (some c, cs) := by
  have hzero : hexValue? '0' = some 0 := by decide
  have hhex : readHex? ('0' :: '0' :: hexDigit (c.toNat / 16) :: hexDigit (c.toNat % 16) :: cs)
      = some (c.toNat, cs) := by
    simp only [readHex?, hzero, hexValue?_hexDigit (c.toNat / 16) (by omega),
      hexValue?_hexDigit (c.toNat % 16) (by omega), Option.bind_eq_bind, Option.bind_some]
    exact congrArg (fun n => some (n, cs)) (by omega)
  have hhigh : isHighHalf c.toNat = false := by simp [isHighHalf]; omega
  have hlow : isLowHalf c.toNat = false := by simp [isLowHalf]; omega
  simp [readUnit?, hhex, hhigh, hlow]

/-- **A character is read back from its written form.** -/
theorem readText?_escapedChar (c : Char) (fuel : Nat) (done cs : List Char) :
    readText? (fuel + 1) (some done) (escapedChar c ++ cs)
      = readText? fuel (some (c :: done)) cs := by
  unfold escapedChar
  split_ifs with hquote hbackslash hn hr ht hb hf hcontrol
  any_goals subst c
  any_goals rfl
  · simp [readText?, readUnit?_of_control hcontrol]
  · simp [readText?, hquote, hbackslash, hcontrol]

/-- **The characters of a text are read back**, up to the quote that ends it. -/
theorem readText?_flatMap (cs : List Char) {fuel : Nat} (hfuel : cs.length < fuel)
    (done rest : List Char) :
    readText? fuel (some done) (cs.flatMap escapedChar ++ '"' :: rest)
      = some (some (String.ofList (done.reverse ++ cs)), rest) := by
  induction cs generalizing fuel done with
  | nil =>
    obtain ⟨fuel, rfl⟩ := Nat.exists_eq_add_one.mpr hfuel
    simp [readText?]
  | cons c cs ih =>
    obtain ⟨fuel, rfl⟩ := Nat.exists_eq_add_one.mpr (Nat.zero_lt_of_lt hfuel)
    rw [List.flatMap_cons, List.append_assoc, readText?_escapedChar,
      ih (by simpa using hfuel), List.reverse_cons, List.append_assoc, List.singleton_append]

/-- A text is no longer than its written form, so fuel for the one is fuel for the other. -/
theorem length_le_length_flatMap_escapedChar (cs : List Char) :
    cs.length ≤ (cs.flatMap escapedChar).length := by
  induction cs with
  | nil => exact Nat.le_refl _
  | cons c cs ih =>
    have hone : 1 ≤ (escapedChar c).length := by unfold escapedChar; split_ifs <;> simp
    rw [List.flatMap_cons, List.length_append, List.length_cons]
    omega

/-- **A quoted text is read back** behind its opening quote. -/
theorem readText?_quoted (s : String) (rest : List Char) :
    readText? ((s.toList.flatMap escapedChar ++ '"' :: rest).length + 1) (some [])
        (s.toList.flatMap escapedChar ++ '"' :: rest) = some (some s, rest) := by
  have hlen := length_le_length_flatMap_escapedChar s.toList
  rw [readText?_flatMap s.toList (by rw [List.length_append]; omega), List.reverse_nil,
    List.nil_append, String.ofList_toList]

/-! ## Numbers

An integer is written without a point and without an exponent, so it is read as a whole
number as long as it fits 64 bits with its sign. -/

/-- **What a text may go on with behind a value** of a list or an object. -/
inductive EndsValue : List Char → Prop
  | nothing : EndsValue []
  | comma (r : List Char) : EndsValue (',' :: r)
  | bracket (r : List Char) : EndsValue (']' :: r)
  | brace (r : List Char) : EndsValue ('\x7d' :: r)

/-- The digits of a number are digits. -/
theorem isDigit_of_mem_digitsOf {n : Nat} {c : Char} (h : c ∈ Decimal.digitsOf n) :
    c.isDigit = true :=
  Nat.isDigit_of_mem_toDigits (by decide) (by decide) h

/-- Only zero is written with a zero in front. -/
theorem eq_zero_of_head?_digitsOf {n : Nat} (h : (Decimal.digitsOf n).head? = some '0') :
    n = 0 := by
  induction n using Nat.strong_induction_on with
  | _ n ih =>
    unfold Decimal.digitsOf at h ih
    rcases Nat.lt_or_ge n 10 with hn | hn
    · rw [Nat.toDigits_of_lt_base hn] at h
      simpa using h
    · rw [Nat.toDigits_of_base_le (by decide) hn, List.head?_append_of_ne_nil _ Nat.toDigits_ne_nil]
        at h
      have := ih (n / 10) (by omega) h
      omega

/-- More digits make no smaller number. So if the whole number fits, each part of it does. -/
theorem le_ofDigitChars (cs : List Char) (n : Nat) : n ≤ Nat.ofDigitChars 10 cs n := by
  rw [Nat.ofDigitChars_eq_ofDigitChars_zero]
  have := Nat.le_mul_of_pos_left n (Nat.pow_pos (n := cs.length) (by decide : 0 < 10))
  omega

/-- **Digits of a number that fits 64 bits are all kept.** A digit is left out only if the
number would grow out of range with it, and the number with all digits is the largest that
comes about. -/
theorem foldl_push {cs : List Char} {s : Significand} (hs : s.full = false)
    (h : Nat.ofDigitChars 10 cs s.value < 2 ^ 64) :
    cs.foldl Significand.push s = { s with value := Nat.ofDigitChars 10 cs s.value } := by
  induction cs generalizing s with
  | nil => rfl
  | cons c cs ih =>
    have hvalue : s.value * 10 + digitValue c = 10 * s.value + (c.toNat - '0'.toNat) := by
      rw [digitValue, Nat.mul_comm]
    rw [Nat.ofDigitChars_cons, ← hvalue] at h
    have hlt : s.value * 10 + digitValue c < Nat.pow 2 64 :=
      (le_ofDigitChars cs _).trans_lt h
    have hpush : s.push c = { s with value := s.value * 10 + digitValue c } := by
      simp only [Significand.push, hs, Bool.false_or, decide_eq_true_eq, ge_iff_le,
        if_neg (not_le.mpr hlt)]
    rw [List.foldl_cons, hpush, ih (by exact hs) h, Nat.ofDigitChars_cons, hvalue]

/-- The digits of a number that fits are read as the number. -/
theorem foldl_push_digitsOf {n : Nat} (h : n < 2 ^ 64) :
    (Decimal.digitsOf n).foldl Significand.push {} = { value := n } := by
  have hn : Nat.ofDigitChars 10 (Decimal.digitsOf n) 0 = n := Nat.ofDigitChars_ten_toDigits
  rw [foldl_push rfl (by rwa [hn]), hn]

/-- **The digits of a number are read back**, whatever follows the value: what ends a value
is no digit, no point and no exponent. A zero in front, which the reader refuses, is only
that of the number zero. -/
theorem readMagnitude?_digitsOf {n : Nat} (h : n < 2 ^ 64) (negative : Bool) {rest : List Char}
    (hrest : EndsValue rest) :
    readMagnitude? negative (Decimal.digitsOf n ++ rest) = some (wholeScalar negative n, rest) := by
  have htake : (Decimal.digitsOf n ++ rest).takeWhile Char.isDigit = Decimal.digitsOf n := by
    rw [List.takeWhile_append_of_pos (fun c => isDigit_of_mem_digitsOf)]
    cases hrest <;> simp
  have hdrop : (Decimal.digitsOf n ++ rest).dropWhile Char.isDigit = rest := by
    rw [List.dropWhile_append_of_pos (fun c => isDigit_of_mem_digitsOf)]
    cases hrest <;> simp
  have hlead : ¬ ((Decimal.digitsOf n).length > 1 ∧ (Decimal.digitsOf n).head? = some '0') := by
    rintro ⟨hlen, hhead⟩
    rw [eq_zero_of_head?_digitsOf hhead] at hlen
    exact absurd hlen (by decide)
  have hne : (Decimal.digitsOf n).isEmpty = false := by
    rw [List.isEmpty_eq_false_iff]
    exact Nat.toDigits_ne_nil
  unfold readMagnitude?
  simp only [htake, hdrop, hne, if_neg hlead, foldl_push_digitsOf h]
  cases hrest <;> simp [readExponent?]

/-- The first digit of a number. -/
theorem exists_digitsOf_eq_cons (n : Nat) :
    ∃ c cs, Decimal.digitsOf n = c :: cs ∧ c.isDigit = true := by
  obtain ⟨c, cs, h⟩ := List.exists_cons_of_ne_nil (Nat.toDigits_ne_nil (n := n) (b := 10))
  exact ⟨c, cs, h, isDigit_of_mem_digitsOf (h ▸ List.mem_cons_self)⟩

/-- What an integer begins with. -/
theorem exists_integerChars_eq_cons (n : Int) :
    ∃ c cs, integerChars n = c :: cs ∧ (c = '-' ∨ c.isDigit = true) := by
  obtain ⟨c, cs, hcs, hc⟩ := exists_digitsOf_eq_cons n.natAbs
  unfold integerChars
  split_ifs
  · exact ⟨'-', _, rfl, Or.inl rfl⟩
  · exact ⟨c, cs, hcs, Or.inr hc⟩

/-- **An integer of 64 bits is read back**, whatever follows the value. A negative one is
written as its sign and its magnitude, so both cases come down to digits. -/
theorem readNumber?_integerChars {n : Int} (h : (Number.integer n).scalar.IsStandard)
    {rest : List Char} (hrest : EndsValue rest) :
    readNumber? (integerChars n ++ rest) = some ((Number.integer n).scalar, rest) := by
  unfold integerChars
  rcases lt_or_ge n 0 with hn | hn
  · rw [Number.scalar_of_neg hn] at h ⊢
    obtain ⟨hpos, hle⟩ := h
    have hscalar : wholeScalar true n.natAbs = .negative n.natAbs := by
      have hzero : ¬ (n.natAbs = 0 ∨ n.natAbs > Nat.pow 2 63) := by
        simp only [Nat.pow_eq]
        omega
      simp only [wholeScalar, Bool.not_true, Bool.false_eq_true, if_false, Bool.or_eq_true,
        decide_eq_true_eq, if_neg hzero]
    rw [if_pos hn, ← hscalar]
    exact readMagnitude?_digitsOf (show n.natAbs < 2 ^ 64 by omega) true hrest
  · rw [Number.scalar_of_nonneg hn] at h ⊢
    obtain ⟨c, cs, hcs, hc⟩ := exists_digitsOf_eq_cons n.natAbs
    have hminus : c ≠ '-' := by rintro rfl; exact absurd hc (by decide)
    have hread : readNumber? (Decimal.digitsOf n.natAbs ++ rest)
        = readMagnitude? false (Decimal.digitsOf n.natAbs ++ rest) := by
      rw [hcs]
      unfold readNumber?
      split
      · next heq => exact absurd (List.cons.inj heq).1 hminus
      · rfl
    rw [if_neg (not_lt.mpr hn), List.nil_append, hread, readMagnitude?_digitsOf h false hrest]
    rfl

/-! ## Values

`ReadsBack` is the statement about one value, with everything that may stand behind it. A
list and an object are settled from their items, and the whole from the parts by induction. -/

/-- **A value is read back** inside `depth` lists and objects, whatever follows it there. -/
def ReadsBack (depth : Nat) (j : Json) : Prop :=
  ∀ fuel rest, j.chars.length ≤ fuel → EndsValue rest →
    readValue? fuel depth (j.chars ++ rest) = some (j.tree, rest)

/-- The items of a list, each as it is written. -/
theorem charsOfItems_eq_map (items : List Json) : charsOfItems items = items.map chars := by
  induction items with
  | nil => rfl
  | cons j js ih => rw [charsOfItems, ih, List.map_cons]

/-- The compact text of a field. -/
def fieldChars (f : String × Json) : List Char := quotedChars f.1 ++ ':' :: f.2.chars

/-- The fields of an object, each as it is written. -/
theorem charsOfFields_eq_map (fields : List (String × Json)) :
    charsOfFields fields = fields.map fieldChars := by
  induction fields with
  | nil => rfl
  | cons f fs ih =>
    obtain ⟨k, v⟩ := f
    rw [charsOfFields, ih, List.map_cons, fieldChars]

/-- A list stands in brackets, with commas between its items. -/
theorem chars_list (items : List Json) :
    (Json.list items).chars = '[' :: separated [','] (items.map chars) ++ [']'] := by
  rw [chars, charsOfItems_eq_map]

/-- An object stands in braces, with commas between its fields. -/
theorem chars_object (fields : List (String × Json)) :
    (Json.object fields).chars
      = '\x7b' :: separated [','] (fields.map fieldChars) ++ ['\x7d'] := by
  rw [chars, charsOfFields_eq_map]

/-- The separated texts of a list: the first, and behind a comma those of the rest. -/
theorem separated_map_cons_cons {α : Type} (write : α → List Char) (a a' : α) (as : List α) :
    separated [','] ((a :: a' :: as).map write)
      = write a ++ ',' :: separated [','] ((a' :: as).map write) := by
  rw [List.map_cons, List.map_cons, separated, List.append_assoc, List.singleton_append]
  exact nofun

/-- A number begins with none of the characters that other values begin with. -/
theorem ne_of_number {c : Char} (hc : c = '-' ∨ c.isDigit = true) {x : Char} (hminus : x ≠ '-')
    (hdigit : x.isDigit = false) : c ≠ x := by
  rintro rfl
  rcases hc with h | h
  · exact hminus h
  · exact Bool.false_ne_true (hdigit.symm.trans h)

/-- A number does not begin with a blank, so no blanks are skipped in front of it. -/
theorem isBlank_of_number {c : Char} (hc : c = '-' ∨ c.isDigit = true) : isBlank c = false := by
  simp [isBlank, ne_of_number hc (x := ' ') (by decide) (by decide),
    ne_of_number hc (x := '\n') (by decide) (by decide),
    ne_of_number hc (x := '\t') (by decide) (by decide),
    ne_of_number hc (x := '\r') (by decide) (by decide)]

/-- What begins with a digit or a minus sign is read as a number. -/
theorem readValue?_of_number {c : Char} (hc : c = '-' ∨ c.isDigit = true) (fuel depth : Nat)
    (cs : List Char) :
    readValue? (fuel + 1) depth (c :: cs)
      = (readNumber? (c :: cs)).map (fun n => (.scalar n.1, n.2)) := by
  have hskip : skipBlanks (c :: cs) = c :: cs :=
    List.dropWhile_cons_of_neg (by simp [isBlank_of_number hc])
  rw [readValue?, hskip]
  split
  all_goals
    try next heq => exact absurd (List.cons.inj heq).1 (ne_of_number hc (by decide) (by decide))
  · next heq => cases heq
  · next heq =>
    cases heq
    cases readNumber? (c :: cs) <;> rfl

/-- **Every value begins with a character of its own**, neither a blank nor the end of a
list. -/
theorem exists_chars_eq_cons {j : Json} (hwhole : j.isWhole = true) :
    ∃ c cs, j.chars = c :: cs ∧ isBlank c = false ∧ c ≠ ']' := by
  cases j with
  | null => exact ⟨'n', _, rfl, by decide, by decide⟩
  | bool b => cases b <;> exact ⟨_, _, rfl, by decide, by decide⟩
  | number n =>
    cases n with
    | integer n =>
      obtain ⟨c, cs, hcs, hc⟩ := exists_integerChars_eq_cons n
      exact ⟨c, cs, hcs, isBlank_of_number hc, ne_of_number hc (by decide) (by decide)⟩
    | float x => cases hwhole
  | text s => exact ⟨'"', _, rfl, by decide, by decide⟩
  | list items => exact ⟨'[', _, chars_list items, by decide, by decide⟩
  | object fields => exact ⟨'\x7b', _, chars_object fields, by decide, by decide⟩

/-- **The items of a list are read back**, up to the bracket that closes it. By induction on
the items behind the first; the fuel is measured by the text, of which each item takes a
part. -/
theorem readItems?_separated {depth : Nat} {j : Json} {js : List Json}
    (hback : ∀ i ∈ j :: js, i.ReadsBack depth) {fuel : Nat}
    (hfuel : (separated [','] ((j :: js).map chars)).length < fuel) (rest : List Char) :
    readItems? fuel depth (separated [','] ((j :: js).map chars) ++ ']' :: rest)
      = some ((j :: js).map tree, rest) := by
  induction js generalizing j fuel with
  | nil =>
    obtain ⟨fuel, rfl⟩ := Nat.exists_eq_add_one.mpr (Nat.zero_lt_of_lt hfuel)
    have hj := hback j List.mem_cons_self fuel (']' :: rest)
      (Nat.le_of_lt_succ hfuel) (.bracket rest)
    simp only [List.map_cons, List.map_nil, separated]
    rw [readItems?, hj]
    rfl
  | cons j' js ih =>
    obtain ⟨fuel, rfl⟩ := Nat.exists_eq_add_one.mpr (Nat.zero_lt_of_lt hfuel)
    rw [separated_map_cons_cons] at hfuel ⊢
    rw [List.length_append, List.length_cons] at hfuel
    have hj := hback j List.mem_cons_self fuel
      (',' :: (separated [','] ((j' :: js).map chars) ++ ']' :: rest)) (by omega) (.comma _)
    have hjs := @ih j' (fun i hi => hback i (List.mem_cons_of_mem _ hi)) fuel (by omega)
    rw [List.append_assoc, List.cons_append, readItems?, hj]
    show (readItems? fuel depth _ >>= _) = _
    rw [hjs]
    rfl

/-- The text of a field in front of what follows it. -/
theorem readEntries?_field {depth : Nat} {f : String × Json} (hback : f.2.ReadsBack depth)
    {fuel : Nat} (hfuel : (fieldChars f).length ≤ fuel) {rest : List Char}
    (hrest : EndsValue rest) :
    readEntries? (fuel + 1) depth (fieldChars f ++ rest)
      = match skipBlanks rest with
        | ',' :: r => do
          let (entries, r) ← readEntries? fuel depth r
          return ((.ofText f.1, f.2.tree) :: entries, r)
        | '\x7d' :: r => return ([(.ofText f.1, f.2.tree)], r)
        | _ => none := by
  have hkey := readText?_quoted f.1 (':' :: (f.2.chars ++ rest))
  have hchars : fieldChars f ++ rest
      = '"' :: (f.1.toList.flatMap escapedChar ++ '"' :: ':' :: (f.2.chars ++ rest)) := by
    simp [fieldChars, quotedChars]
  have hvalue := hback fuel rest (by simp [fieldChars] at hfuel; omega) hrest
  have hcolon : skipBlanks (':' :: (f.2.chars ++ rest)) = ':' :: (f.2.chars ++ rest) := rfl
  rw [hchars, readEntries?]
  show (readText? _ (some []) _ >>= _) = _
  rw [hkey]
  show (readValue? fuel depth (f.2.chars ++ rest) >>= _) = _
  rw [hvalue]
  rfl

/-- **The fields of an object are read back**, up to the brace that closes it, in the same
way as items. -/
theorem readEntries?_separated {depth : Nat} {f : String × Json} {fs : List (String × Json)}
    (hback : ∀ g ∈ f :: fs, g.2.ReadsBack depth) {fuel : Nat}
    (hfuel : (separated [','] ((f :: fs).map fieldChars)).length < fuel) (rest : List Char) :
    readEntries? fuel depth (separated [','] ((f :: fs).map fieldChars) ++ '\x7d' :: rest)
      = some ((f :: fs).map (fun f => (Tree.ofText f.1, f.2.tree)), rest) := by
  induction fs generalizing f fuel with
  | nil =>
    obtain ⟨fuel, rfl⟩ := Nat.exists_eq_add_one.mpr (Nat.zero_lt_of_lt hfuel)
    have hf := readEntries?_field (hback f List.mem_cons_self) (Nat.le_of_lt_succ hfuel)
      (.brace rest)
    exact hf
  | cons f' fs ih =>
    obtain ⟨fuel, rfl⟩ := Nat.exists_eq_add_one.mpr (Nat.zero_lt_of_lt hfuel)
    rw [separated_map_cons_cons] at hfuel ⊢
    rw [List.length_append, List.length_cons] at hfuel
    have hfs := @ih f' (fun g hg => hback g (List.mem_cons_of_mem _ hg)) fuel (by omega)
    rw [List.append_assoc, List.cons_append,
      readEntries?_field (hback f List.mem_cons_self) (by omega) (.comma _)]
    show (readEntries? fuel depth _ >>= _) = _
    rw [hfs]
    rfl

/-- What is not nested too deep stays as it is. -/
theorem atDepth_of_le {depth : Nat} (h : depth ≤ depthLimit) (t : Tree) : atDepth depth t = t :=
  if_neg (not_lt.mpr h)

/-- An integer is read back. -/
theorem readsBack_integer {n : Int} (h : (Number.integer n).scalar.IsStandard) (depth : Nat) :
    (Json.number (.integer n)).ReadsBack depth := by
  intro fuel rest hfuel hrest
  have hread := readNumber?_integerChars h hrest
  obtain ⟨c, cs, hcs, hc⟩ := exists_integerChars_eq_cons n
  have hchars : (Json.number (.integer n)).chars = c :: cs := hcs
  rw [hchars] at hfuel ⊢
  obtain ⟨fuel, rfl⟩ := Nat.exists_eq_add_one.mpr (Nat.zero_lt_of_lt hfuel)
  rw [hcs, List.cons_append] at hread
  rw [List.cons_append, readValue?_of_number hc, hread]
  rfl

/-- A text is read back. -/
theorem readsBack_text (s : String) (depth : Nat) : (Json.text s).ReadsBack depth := by
  intro fuel rest hfuel _
  obtain ⟨fuel, rfl⟩ := Nat.exists_eq_add_one.mpr (Nat.zero_lt_of_lt hfuel)
  have hchars : (Json.text s).chars ++ rest
      = '"' :: (s.toList.flatMap escapedChar ++ '"' :: rest) := by simp [chars, quotedChars]
  rw [hchars, readValue?]
  show (readText? _ (some []) _ >>= _) = _
  rw [readText?_quoted]
  rfl

/-- A list whose first item begins with this character. -/
theorem readValue?_of_item {c : Char} (hblank : isBlank c = false) (hclose : c ≠ ']')
    (fuel depth : Nat) (cs : List Char) :
    readValue? (fuel + 1) depth ('[' :: c :: cs)
      = (readItems? fuel (depth + 1) (c :: cs)).map
          (fun p => (atDepth (depth + 1) (.list p.1), p.2)) := by
  have hopen : skipBlanks ('[' :: c :: cs) = '[' :: c :: cs := rfl
  have hskip : skipBlanks (c :: cs) = c :: cs := List.dropWhile_cons_of_neg (by simp [hblank])
  simp only [readValue?, hopen, hskip]
  split
  · next heq => exact absurd (List.cons.inj heq).1 hclose
  · cases readItems? fuel (depth + 1) (c :: cs) <;> rfl

/-- **A list is read back** if its items are, one level deeper. The reader tells an empty
list by the bracket, so of any other it must be known that no item begins with one that
closes, or with a blank. -/
theorem readsBack_list {items : List Json} {depth : Nat} (hdepth : depth < depthLimit)
    (hwhole : ∀ i ∈ items, i.isWhole = true) (hback : ∀ i ∈ items, i.ReadsBack (depth + 1)) :
    (Json.list items).ReadsBack depth := by
  intro fuel rest hfuel _
  rw [chars_list] at hfuel ⊢
  rw [List.cons_append, List.length_cons, List.length_append] at hfuel
  obtain ⟨fuel, rfl⟩ := Nat.exists_eq_add_one.mpr (Nat.zero_lt_of_lt hfuel)
  rw [List.cons_append, List.cons_append, List.append_assoc, List.singleton_append, tree_list]
  cases items with
  | nil =>
    have hread : readValue? (fuel + 1) depth ('[' :: ']' :: rest)
        = some (atDepth (depth + 1) (.list []), rest) := rfl
    rw [List.map_nil, separated, List.nil_append, hread, atDepth_of_le hdepth, List.map_nil]
  | cons j js =>
    have hitems := readItems?_separated hback (Nat.lt_of_succ_le (by simpa using hfuel)) rest
    obtain ⟨c, cs, hcs, hblank, hclose⟩ := exists_chars_eq_cons (hwhole j List.mem_cons_self)
    obtain ⟨cs', hcs'⟩ : ∃ cs', separated [','] ((j :: js).map chars) = c :: cs' := by
      cases js with
      | nil => exact ⟨cs, hcs⟩
      | cons j' js => exact ⟨_, by rw [separated_map_cons_cons, hcs, List.cons_append]⟩
    rw [hcs', List.cons_append] at hitems ⊢
    rw [readValue?_of_item hblank hclose, hitems]
    exact congrArg (fun t => some (t, rest)) (atDepth_of_le hdepth _)

/-- **An object is read back** if its values are, one level deeper. It begins with a quote
if it is not empty, so the reader cannot take it for an empty one. -/
theorem readsBack_object {fields : List (String × Json)} {depth : Nat}
    (hdepth : depth < depthLimit) (hback : ∀ f ∈ fields, f.2.ReadsBack (depth + 1)) :
    (Json.object fields).ReadsBack depth := by
  intro fuel rest hfuel _
  rw [chars_object] at hfuel ⊢
  rw [List.cons_append, List.length_cons, List.length_append] at hfuel
  obtain ⟨fuel, rfl⟩ := Nat.exists_eq_add_one.mpr (Nat.zero_lt_of_lt hfuel)
  rw [List.cons_append, List.cons_append, List.append_assoc, List.singleton_append, tree_object]
  cases fields with
  | nil =>
    have hread : readValue? (fuel + 1) depth ('\x7b' :: '\x7d' :: rest)
        = some (atDepth (depth + 1) (.record []), rest) := rfl
    rw [List.map_nil, separated, List.nil_append, hread, atDepth_of_le hdepth, List.map_nil]
  | cons f fs =>
    have hentries := readEntries?_separated hback (Nat.lt_of_succ_le (by simpa using hfuel)) rest
    obtain ⟨cs, hcs⟩ : ∃ cs, separated [','] ((f :: fs).map fieldChars) = '"' :: cs := by
      cases fs with
      | nil => exact ⟨_, rfl⟩
      | cons f' fs => exact ⟨_, by rw [separated_map_cons_cons]; rfl⟩
    rw [hcs, List.cons_append] at hentries ⊢
    have hread : readValue? (fuel + 1) depth ('\x7b' :: '"' :: (cs ++ '\x7d' :: rest))
        = (readEntries? fuel (depth + 1) ('"' :: (cs ++ '\x7d' :: rest))).map
            (fun p => (atDepth (depth + 1) (.record p.1), p.2)) := by
      show (readEntries? fuel (depth + 1) _ >>= _) = _
      cases readEntries? fuel (depth + 1) ('"' :: (cs ++ '\x7d' :: rest)) <;> rfl
    rw [hread, hentries]
    exact congrArg (fun t => some (t, rest)) (atDepth_of_le hdepth _)

/-- **Whatever is whole and fits is read back.** By induction on the value: a list or an
object takes one level of the limit, so what it holds fits one level less. -/
theorem readsBack {j : Json} {depth : Nat} (hwhole : j.isWhole = true)
    (hfits : j.tree.Fits (depthLimit - depth)) : j.ReadsBack depth := by
  induction j using Json.value_induction generalizing depth with
  | null =>
    intro fuel rest hfuel _
    obtain ⟨fuel, rfl⟩ := Nat.exists_eq_add_one.mpr (Nat.zero_lt_of_lt hfuel)
    rfl
  | bool b =>
    intro fuel rest hfuel _
    cases b <;> obtain ⟨fuel, rfl⟩ := Nat.exists_eq_add_one.mpr (Nat.zero_lt_of_lt hfuel) <;> rfl
  | number n =>
    cases n with
    | integer n => exact readsBack_integer (Tree.fits_scalar.mp hfits) depth
    | float x => cases hwhole
  | text s => exact readsBack_text s depth
  | list items ih =>
    rw [isWhole_list] at hwhole
    rw [tree_list, Tree.fits_list] at hfits
    obtain ⟨m, hm, hitems⟩ := hfits
    have hdepth : depthLimit - (depth + 1) = m := by omega
    exact readsBack_list (by omega) hwhole (fun i hi =>
      ih i hi (hwhole i hi) (hdepth ▸ hitems _ (List.mem_map_of_mem hi)))
  | object fields ih =>
    rw [isWhole_object] at hwhole
    rw [tree_object, Tree.fits_record] at hfits
    obtain ⟨m, hm, hfields⟩ := hfits
    have hdepth : depthLimit - (depth + 1) = m := by omega
    exact readsBack_object (by omega) (fun f hf =>
      ih f hf (hwhole f hf) (hdepth ▸ hfields _ (List.mem_map_of_mem hf)))

/-- A text is read by its characters. -/
theorem read?_ofList (cs : List Char) :
    read? (String.ofList cs) = (readValue? (2 * cs.length + 2) 0 cs).bind
      (fun p => if (skipBlanks p.2).isEmpty then some p.1 else none) := by
  unfold read?
  rw [String.toList_ofList]
  rfl

/-- **A whole value is read back from its compact text.** -/
theorem read?_compact {j : Json} (hwhole : j.isWhole = true) (hfits : j.tree.Fits depthLimit) :
    read? j.compact = some j.tree := by
  have hback : j.ReadsBack 0 := readsBack hwhole hfits
  have hread := hback (2 * j.chars.length + 2) [] (by omega) .nothing
  rw [List.append_nil] at hread
  rw [compact, read?_ofList, hread]
  rfl

end ClientGen.Json
