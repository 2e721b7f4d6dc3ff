import ClientGen.Kotlin.Source
import Mathlib.Data.List.Infix

/-!
# Block comments

Block comments of Kotlin nest: inside a comment another one may begin, and the outer one goes on
behind the end of the inner one. So a text inside a comment can do two kinds of harm: a sign that
ends a comment ends the one around it, and a sign that begins one makes the end of the one around
it an end of its own.

A comment around a body ends with its own last sign exactly if the body is balanced
(`Kotlin.Comment.behind?_text_append`). A text in which the sign that ends a comment is broken up
never ends one (`Kotlin.Comment.not_closes_commented`), but the signs that begin one are left in it
(`Kotlin.Comment.opens_commented`), so it is balanced exactly if it had none.
-/

namespace ClientGen.Kotlin.Comment

/-! ## Two characters in a row

Both signs are pairs of characters. What is said here holds of any two characters, so that
it can be used for both: where a pair stands in a text that is put together from others. -/

section Pair

variable {a b : Char}

/-- Two characters stand in a row at the front of a list or behind its first character. -/
theorem pair_infix_cons {c : Char} {cs : List Char} :
    [a, b] <:+: c :: cs ↔ (c = a ∧ cs.head? = some b) ∨ [a, b] <:+: cs := by
  rw [List.infix_cons_iff, List.cons_prefix_cons, eq_comm (a := a)]
  cases cs with
  | nil => simp
  | cons d ds => simp [eq_comm]

/-- In a single character they do not. -/
theorem not_pair_infix_singleton (c : Char) : ¬ [a, b] <:+: [c] := by
  simp [pair_infix_cons]

/-- In two lists one after the other they stand in one of them or across. -/
theorem pair_infix_append (cs ds : List Char) :
    [a, b] <:+: cs ++ ds
      ↔ [a, b] <:+: cs ∨ (cs.getLast? = some a ∧ ds.head? = some b) ∨ [a, b] <:+: ds := by
  induction cs with
  | nil => simp
  | cons c cs ih =>
    rw [List.cons_append, pair_infix_cons, ih]
    cases cs with
    | nil => simp [not_pair_infix_singleton]
    | cons d cs => rw [pair_infix_cons (c := c), List.getLast?_cons_cons, or_assoc]; rfl

/-- **Two characters stand in a row** somewhere in a text. -/
def HasPair (a b : Char) (s : String) : Prop := [a, b] <:+: s.toList

instance (a b : Char) (s : String) : Decidable (HasPair a b s) :=
  inferInstanceAs (Decidable (_ <:+: _))

/-- They do not stand across if the first text does not end with the first one. -/
theorem hasPair_append_of_last {front : String} (h : front.toList.getLast? ≠ some a)
    (s : String) : HasPair a b (front ++ s) ↔ HasPair a b front ∨ HasPair a b s := by
  have hacross : ¬ (front.toList.getLast? = some a ∧ s.toList.head? = some b) :=
    fun hand => h hand.1
  unfold HasPair
  rw [String.toList_append, pair_infix_append, iff_false_intro hacross, false_or]

/-- Nor if the second one does not begin with the second one. -/
theorem hasPair_append_of_head {back : String} (h : back.toList.head? ≠ some b) (s : String) :
    HasPair a b (s ++ back) ↔ HasPair a b s ∨ HasPair a b back := by
  have hacross : ¬ (s.toList.getLast? = some a ∧ back.toList.head? = some b) :=
    fun hand => h hand.2
  unfold HasPair
  rw [String.toList_append, pair_infix_append, iff_false_intro hacross, false_or]

/-- A line break, which is neither of the two, keeps them from standing across lines. -/
theorem hasPair_unlines (ha : a ≠ '\n') (hb : b ≠ '\n') (lines : List String) :
    HasPair a b (unlines lines) ↔ ∃ l ∈ lines, HasPair a b l := by
  induction lines with
  | nil => simp [unlines, HasPair]
  | cons l lines ih =>
    have hbreak : ("\n" : String).toList = ['\n'] := by decide
    have hnot : ¬ HasPair a b "\n" := by
      rw [HasPair, hbreak]
      exact not_pair_infix_singleton '\n'
    have hlast : (l ++ "\n").toList.getLast? ≠ some a := by
      rw [String.toList_append, hbreak, List.getLast?_concat]
      exact fun h => ha (Option.some.inj h).symm
    have hhead : ("\n" : String).toList.head? ≠ some b := by
      rw [hbreak]
      exact fun h => hb (Option.some.inj h).symm
    rw [unlines, hasPair_append_of_last hlast, hasPair_append_of_head hhead, or_iff_left hnot, ih]
    simp

end Pair

/-- **A text begins a comment** somewhere. -/
abbrev Opens : String → Prop := HasPair '/' '*'

/-- **A text ends a comment** somewhere. -/
abbrev Closes : String → Prop := HasPair '*' '/'

/-! ## Reading a comment

A reader of a comment takes signs from left to right and counts how deep it is. Characters
that have been taken for one sign are not looked at again, so `/*/` begins a comment and
does not end it. -/

/-- **How far a reader of a comment has come** at the end of a text. -/
inductive Reading where
  /-- Still inside, in that many comments within the comment. -/
  | inside (level : Nat)
  /-- The comment has ended, and this is what stands behind it. -/
  | behind (rest : List Char)
deriving DecidableEq, Repr

/-- **Reads on in a comment**, at a level of comments within it. -/
def read : Nat → List Char → Reading
  | level, [] => .inside level
  | level, [_] => .inside level
  | level, c :: d :: cs =>
    if c = '/' ∧ d = '*' then read (level + 1) cs
    else if c = '*' ∧ d = '/' then
      if level = 0 then .behind cs else read (level - 1) cs
    else read level (d :: cs)

/-- **What stands behind the comment** that a text begins with, if the text begins with a comment
and the comment ends. -/
def behind? : List Char → Option (List Char)
  | '/' :: '*' :: cs =>
    match read 0 cs with
    | .behind rest => some rest
    | .inside _ => none
  | _ => none

/-- **A text is balanced** if it leaves a comment around it as it is: it ends every comment that
begins in it, and no other. -/
def Balanced (s : String) : Prop := read 0 s.toList = .inside 0

instance (s : String) : Decidable (Balanced s) := inferInstanceAs (Decidable (_ = _))

/-- The text of a comment around a body. -/
def text (body : String) : String := "/*" ++ body ++ " */"

/-- Reading goes forward. -/
theorem length_lt_of_read_eq_behind {level : Nat} {cs rest : List Char}
    (h : read level cs = .behind rest) : rest.length < cs.length := by
  fun_induction read level cs with
  | case1 level => cases h
  | case2 level c => cases h
  | case3 level c d cs hopens ih => exact Nat.lt_succ_of_lt (Nat.lt_succ_of_lt (ih h))
  | case4 c d cs hopens hcloses =>
    cases h
    exact Nat.lt_succ_of_lt (Nat.lt_succ_self _)
  | case5 level c d cs hopens hcloses hlevel ih =>
    exact Nat.lt_succ_of_lt (Nat.lt_succ_of_lt (ih h))
  | case6 level c d cs hopens hcloses ih => exact Nat.lt_succ_of_lt (ih h)

/-- A character that is no part of a sign is passed over. -/
theorem read_cons {s : Char} (hslash : s ≠ '/') (hstar : s ≠ '*') (level : Nat)
    (cs : List Char) : read level (s :: cs) = read level cs := by
  cases cs with
  | nil => rfl
  | cons d cs => rw [read, if_neg (fun h => hslash h.1), if_neg (fun h => hstar h.1)]

/-- **Reading a text and then another**, where a character between them keeps signs from
standing across. By induction on the first text, along the recursion of the reader. -/
theorem read_append {s : Char} (hslash : s ≠ '/') (hstar : s ≠ '*') (level : Nat)
    (cs ds : List Char) :
    read level (cs ++ s :: ds) = match read level cs with
      | .inside level => read level ds
      | .behind rest => .behind (rest ++ s :: ds) := by
  fun_induction read level cs with
  | case1 level => exact read_cons hslash hstar level ds
  | case2 level c =>
    rw [List.singleton_append, read, if_neg (fun h => hstar h.2), if_neg (fun h => hslash h.2)]
    exact read_cons hslash hstar level ds
  | case3 level c d cs hopens ih =>
    rw [List.cons_append, List.cons_append, read, if_pos hopens, ih]
  | case4 c d cs hopens hcloses =>
    rw [List.cons_append, List.cons_append, read, if_neg hopens, if_pos hcloses, if_pos rfl]
  | case5 level c d cs hopens hcloses hlevel ih =>
    rw [List.cons_append, List.cons_append, read, if_neg hopens, if_pos hcloses, if_neg hlevel]
    exact ih
  | case6 level c d cs hopens hcloses ih =>
    rw [List.cons_append, List.cons_append, read, if_neg hopens, if_neg hcloses]
    exact ih

/-- **A comment ends with its own last sign exactly if its body is balanced**, whatever
follows. If the body is balanced the reader is where it has begun when it comes to the sign.
If not, it takes the sign for the end of an inner comment and leaves less than what follows,
or it has left the comment in the body and leaves more. -/
theorem behind?_text_append (body : String) (rest : List Char) :
    behind? ((text body).toList ++ rest) = some rest ↔ Balanced body := by
  have hclosing : " */".toList = [' ', '*', '/'] := by decide
  have hopening : "/*".toList = ['/', '*'] := by decide
  have hchars : (text body).toList ++ rest
      = '/' :: '*' :: (body.toList ++ ' ' :: '*' :: '/' :: rest) := by
    unfold text
    rw [String.toList_append, String.toList_append, hclosing, hopening]
    simp
  rw [hchars, behind?, read_append (by decide) (by decide), Balanced]
  cases hbody : read 0 body.toList with
  | inside level =>
    cases level with
    | zero => simp [read]
    | succ level =>
      -- the last sign ends a comment that begins in the body
      have hread : read (level + 1) ('*' :: '/' :: rest) = read level rest := by
        rw [read, if_neg (by decide), if_pos (by decide), if_neg (Nat.succ_ne_zero level)]
        rfl
      dsimp only
      rw [hread]
      cases hrest : read level rest with
      | inside level => simp
      | behind rest' =>
        have hlt := length_lt_of_read_eq_behind hrest
        have hne : rest' ≠ rest := fun h => Nat.lt_irrefl _ (h ▸ hlt)
        simp [hne]
  | behind rest' =>
    -- a sign of the body ends the comment, and the last sign is left over
    have hne : rest' ++ ' ' :: '*' :: '/' :: rest ≠ rest := by
      intro h
      have hlength := congrArg List.length h
      simp only [List.length_append, List.length_cons] at hlength
      omega
    simp [hne]

/-! ## Balanced texts

Balance is what a comment needs of its body. It cannot be told from the number of signs; but
where no comment is ever ended, it is enough that none is begun. -/

/-- A text that never ends a comment is read to its end, and leads deeper if it begins any.
By the cases of the reader, of which those of a closing sign cannot come up. -/
theorem read_of_not_closes (level : Nat) {cs : List Char} (h : ¬ ['*', '/'] <:+: cs) :
    ∃ deeper, read level cs = .inside (level + deeper)
      ∧ (deeper = 0 ↔ ¬ ['/', '*'] <:+: cs) := by
  fun_induction read level cs with
  | case1 level => exact ⟨0, rfl, by simp⟩
  | case2 level c => exact ⟨0, rfl, by simp [not_pair_infix_singleton]⟩
  | case3 level c d cs hopens ih =>
    obtain ⟨rfl, rfl⟩ := hopens
    simp only [pair_infix_cons, not_or] at h
    obtain ⟨deeper, hread, -⟩ := ih h.2.2
    exact ⟨deeper + 1, by rw [hread, Nat.add_right_comm, Nat.add_assoc],
      by simp [pair_infix_cons]⟩
  | case4 c d cs hopens hcloses =>
    obtain ⟨rfl, rfl⟩ := hcloses
    exact absurd (pair_infix_cons.mpr (.inl ⟨rfl, rfl⟩)) h
  | case5 level c d cs hopens hcloses hlevel ih =>
    obtain ⟨rfl, rfl⟩ := hcloses
    exact absurd (pair_infix_cons.mpr (.inl ⟨rfl, rfl⟩)) h
  | case6 level c d cs hopens hcloses ih =>
    have hfront : ¬ (c = '/' ∧ (d :: cs).head? = some '*') :=
      fun hand => hopens ⟨hand.1, Option.some.inj hand.2⟩
    obtain ⟨deeper, hread, hzero⟩ := ih (fun hcloses => h (pair_infix_cons.mpr (.inr hcloses)))
    rw [pair_infix_cons (c := c), or_iff_right hfront]
    exact ⟨deeper, hread, hzero⟩

/-- **A text that ends no comment is balanced exactly if it begins none.** -/
theorem balanced_iff_of_not_closes {s : String} (h : ¬ Closes s) : Balanced s ↔ ¬ Opens s := by
  obtain ⟨deeper, hread, hzero⟩ := read_of_not_closes 0 h
  rw [Balanced, hread, Reading.inside.injEq, Nat.zero_add]
  exact hzero

/-- A balanced text in front of another makes no difference, where there is a blank between
them. -/
theorem balanced_append {front : String} (hfront : Balanced front) (s : String) :
    Balanced (front ++ " " ++ s) ↔ Balanced s := by
  have hspace : (" " : String).toList = [' '] := by decide
  unfold Balanced at hfront ⊢
  rw [String.toList_append, String.toList_append, hspace, List.append_assoc,
    List.singleton_append, read_append (by decide) (by decide), hfront]

/-- Nor does a blank alone. -/
theorem balanced_blank (s : String) : Balanced (" " ++ s) ↔ Balanced s := by
  have hempty : Balanced "" := by decide
  have h := balanced_append hempty s
  rwa [String.empty_append] at h

/-- A text without a slash has no sign. -/
theorem not_hasPair_of_slash_notMem {a b : Char} (hsign : '/' = a ∨ '/' = b) {s : String}
    (h : '/' ∉ s.toList) : ¬ HasPair a b s := by
  intro hpair
  refine h (hpair.subset ?_)
  rcases hsign with rfl | rfl <;> simp

/-! ## Texts with the closing sign broken up

A text goes into a comment with a backslash in each closing sign. The opening signs are
left, and breaking up closing ones makes no new ones, as no slash comes to stand in front of
a star. -/

/-- The characters of a text with the closing signs broken up. -/
abbrev brokenUp : List Char → List Char := Text.replaceFrom ['*', '/'] ['*', '\\', '/'] 0

/-- A closing sign is broken up. -/
theorem brokenUp_closing (cs : List Char) :
    brokenUp ('*' :: '/' :: cs) = '*' :: '\\' :: '/' :: brokenUp cs := by
  rfl

/-- Every other character stays. -/
theorem brokenUp_cons {c : Char} {cs : List Char} (h : ¬ (c = '*' ∧ cs.head? = some '/')) :
    brokenUp (c :: cs) = c :: brokenUp cs := by
  have hprefix : ¬ ['*', '/'].isPrefixOf (c :: cs) = true := by
    intro hclosing
    refine h ?_
    cases cs with
    | nil => simp at hclosing
    | cons d cs =>
      simp only [List.isPrefixOf_cons_cons, Bool.and_eq_true, beq_iff_eq] at hclosing
      exact ⟨hclosing.1.symm, congrArg some hclosing.2.1.symm⟩
  rw [brokenUp, Text.replaceFrom, if_neg hprefix]

/-- So a text begins as before. -/
theorem head?_brokenUp (cs : List Char) : (brokenUp cs).head? = cs.head? := by
  cases cs with
  | nil => rfl
  | cons c cs =>
    by_cases hclosing : c = '*' ∧ cs.head? = some '/'
    · obtain ⟨rfl, hhead⟩ := hclosing
      obtain ⟨cs, rfl⟩ := List.head?_eq_some_iff.mp hhead
      rfl
    · rw [brokenUp_cons hclosing]
      rfl

/-- What is left has no closing sign, and the opening signs of before. By induction on the
text, a closing sign being two steps at once. -/
theorem spec_of_brokenUp (cs : List Char) :
    ¬ ['*', '/'] <:+: brokenUp cs ∧ (['/', '*'] <:+: brokenUp cs ↔ ['/', '*'] <:+: cs) := by
  induction cs using List.twoStepInduction with
  | nil => exact ⟨by decide, Iff.rfl⟩
  | singleton c =>
    rw [brokenUp_cons (by simp)]
    exact ⟨not_pair_infix_singleton c, Iff.rfl⟩
  | cons_cons c d cs ih ihd =>
    by_cases hclosing : c = '*' ∧ d = '/'
    · obtain ⟨rfl, rfl⟩ := hclosing
      rw [brokenUp_closing]
      simp [pair_infix_cons, ih, head?_brokenUp]
    · have hnot : ¬ (c = '*' ∧ (d :: cs).head? = some '/') := by simpa using hclosing
      rw [brokenUp_cons hnot, pair_infix_cons, pair_infix_cons, head?_brokenUp, (ihd d).2,
        pair_infix_cons (c := c)]
      exact ⟨not_or.mpr ⟨hnot, (ihd d).1⟩, Iff.rfl⟩

/-- The characters of a text inside a comment. -/
theorem toList_commented (s : String) : (commented s).toList = brokenUp s.toList := by
  have hpattern : "*/".toList = ['*', '/'] := by decide
  have hreplacement : "*\\/".toList = ['*', '\\', '/'] := by decide
  rw [commented, Text.replace, String.toList_ofList, hpattern, hreplacement]

/-- **A text inside a comment ends no comment.** -/
theorem not_closes_commented (s : String) : ¬ Closes (commented s) := by
  rw [Closes, HasPair, toList_commented]
  exact (spec_of_brokenUp s.toList).1

/-- **But it begins one if it did so before.** -/
theorem opens_commented (s : String) : Opens (commented s) ↔ Opens s := by
  rw [Opens, HasPair, toList_commented]
  exact (spec_of_brokenUp s.toList).2

/-- So it is balanced exactly if it begins none. -/
theorem balanced_commented (s : String) : Balanced (commented s) ↔ ¬ Opens s := by
  rw [balanced_iff_of_not_closes (not_closes_commented s), opens_commented]

end ClientGen.Kotlin.Comment
