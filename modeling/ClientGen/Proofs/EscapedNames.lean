import ClientGen.Kotlin.ModelFile
import ClientGen.Proofs.Literals
import Mathlib.Data.List.Induction

/-!
# Wire names with dollar signs escaped

Every property gets its wire name once more as the text of a literal, with a backslash before each
dollar sign. So no dollar sign of the name begins a template, as long as it is the name's own
character that stands in front of it: behind a backslash of the name, the backslash that is put
before the dollar sign is itself escaped, and the dollar sign is free again.

Nothing else is escaped. A quote of the name ends the literal, a line break leaves it open, and a
backslash takes what follows it for an escape, which stands for fewer characters than were written.
Counting them shows that a name comes back in no other case than where each of its characters does
(`Literal.accountsFor_of_read_escaped`). What is left are the names that escaping keeps
(`Literal.Kept`), and these denote themselves (`ModelFile.literal_denotes_iff`).
-/

namespace ClientGen.Kotlin.Literal

variable {letters : Letters}

/-- The characters of a wire name inside a literal: a backslash goes before every dollar sign. -/
def escaped (cs : List Char) : List Char :=
  cs.flatMap (fun c => if c = '$' then ['\\', '$'] else [c])

/-- A dollar sign gets a backslash. -/
theorem escaped_dollar (cs : List Char) : escaped ('$' :: cs) = '\\' :: '$' :: escaped cs := rfl

/-- Any other character is left alone, a backslash and a quote included. -/
theorem escaped_cons {c : Char} (h : c ≠ '$') (cs : List Char) :
    escaped (c :: cs) = c :: escaped cs := by
  rw [escaped, List.flatMap_cons, if_neg h]
  rfl

/-- Escaping adds characters only. -/
theorem escaped_eq_nil_iff {cs : List Char} : escaped cs = [] ↔ cs = [] := by
  cases cs with
  | nil => exact .rfl
  | cons c cs =>
    by_cases hc : c = '$'
    · subst hc
      exact iff_of_false (List.cons_ne_nil _ _) (List.cons_ne_nil _ _)
    · rw [escaped_cons hc]
      exact iff_of_false (List.cons_ne_nil _ _) (List.cons_ne_nil _ _)

/-- **A name that escaping keeps**: there is no quote and no line break in it, and a backslash only
in front of a dollar sign that begins no template. -/
inductive Kept (letters : Letters) : List Char → Prop
  | nil : Kept letters []
  | cons {c : Char} {cs : List Char} (hquote : c ≠ '"') (hbreak : isLineBreak c = false)
      (hback : c ≠ '\\') (h : Kept letters cs) : Kept letters (c :: cs)
  | backslash {cs : List Char} (hstarts : startsTemplate letters cs = false)
      (h : Kept letters cs) : Kept letters ('\\' :: '$' :: cs)

/-! ## Where templates begin

Escaping puts backslashes into a name, but neither a letter nor a backtick, and what can
stand between backticks may hold any of them. So where a template begins is the same before
and after. -/

/-- Whether a name stands between backticks is not affected by backslashes in front of
dollar signs: what is looked for is a backtick on the same line. -/
theorem isEscapedName_escaped (cs : List Char) : isEscapedName (escaped cs) = isEscapedName cs := by
  have hhead : ∀ cs, (escaped cs).head? = some '\x60' ↔ cs.head? = some '\x60' := by
    intro cs
    cases cs with
    | nil => rfl
    | cons c cs =>
      by_cases hc : c = '$'
      · subst hc
        rw [escaped_dollar]
        simp
      · rw [escaped_cons hc]
        rfl
  have hfind : ∀ cs, (escaped cs).find? (fun c => c = '\x60' || isLineBreak c)
      = cs.find? (fun c => c = '\x60' || isLineBreak c) := by
    intro cs
    induction cs with
    | nil => rfl
    | cons c cs ih =>
      by_cases hc : c = '$'
      · subst hc
        rw [escaped_dollar, List.find?_cons_of_neg (by decide), List.find?_cons_of_neg (by decide),
          List.find?_cons_of_neg (by decide), ih]
      · rw [escaped_cons hc, List.find?_cons, List.find?_cons, ih]
  unfold isEscapedName
  rw [hfind]
  simp only [ne_eq, hhead]

/-- Nor is whether a template begins. -/
theorem startsTemplate_escaped (cs : List Char) :
    startsTemplate letters (escaped cs) = startsTemplate letters cs := by
  have hsign : ∀ c, (c = '$' ∨ c = '\\') → ∀ cs, startsTemplate letters (c :: cs) = false := by
    rintro c (rfl | rfl) cs
    · exact startsTemplate_cons_of_ascii (by decide) rfl (by decide) (by decide) (by decide) cs
    · exact startsTemplate_cons_of_ascii (by decide) rfl (by decide) (by decide) (by decide) cs
  cases cs with
  | nil => rfl
  | cons c cs =>
    by_cases hc : c = '$'
    · subst hc
      rw [escaped_dollar, hsign _ (.inr rfl), hsign _ (.inl rfl)]
    · rw [escaped_cons hc]
      simp only [startsTemplate, isEscapedName_escaped]

/-! ## Names that are kept

Two rules change nothing by being read: a character that stands for itself, and the pair of
a backslash and a dollar sign, where the backslash put in between is used up by the first. -/

variable {rest : List Char}

/-- An escaped dollar sign stands for itself. -/
theorem read_escaped_dollar (cs : List Char) :
    read letters 0 (escaped ('$' :: cs) ++ '"' :: rest)
      = (read letters 0 (escaped cs ++ '"' :: rest)).prepend (units '$') := by
  rw [escaped_dollar, List.cons_append, read_escape]
  rfl

/-- A backslash that escapes the one of an escaped dollar sign stands for itself, and so does the
dollar sign, unless it begins a template now. -/
theorem read_escaped_backslash_dollar (hrest : '\x60' ∉ rest) (cs : List Char) :
    read letters 0 (escaped ('\\' :: '$' :: cs) ++ '"' :: rest)
      = if startsTemplate letters cs = true then .template
        else (read letters 0 (escaped cs ++ '"' :: rest)).prepend (units '\\' ++ units '$') := by
  have hstarts : startsTemplate letters (escaped cs ++ '"' :: rest)
      = startsTemplate letters cs := by
    rw [startsTemplate_append hrest, startsTemplate_escaped]
  have hread : read letters 0 (escaped ('\\' :: '$' :: cs) ++ '"' :: rest)
      = (read letters 0 ('$' :: (escaped cs ++ '"' :: rest))).prepend (units '\\') := by
    rw [escaped_cons (by decide), escaped_dollar, List.cons_append, read_escape]
    rfl
  rw [hread]
  split_ifs with h
  · rw [read_template (hstarts.trans h)]
    rfl
  · rw [read_cons (by decide) rfl (by decide) (fun _ => hstarts.trans (Bool.eq_false_iff.mpr h))]
    cases read letters 0 (escaped cs ++ '"' :: rest) <;> rfl

/-- **What escaping keeps comes back.** -/
theorem read_escaped_of_kept (hrest : '\x60' ∉ rest) {cs : List Char} (h : Kept letters cs) :
    read letters 0 (escaped cs ++ '"' :: rest) = .complete (unitsOf cs) rest := by
  induction h with
  | nil => rfl
  | @cons c cs hquote hbreak hback h ih =>
    by_cases hc : c = '$'
    · subst hc
      rw [read_escaped_dollar, ih]
      rfl
    · rw [escaped_cons hc, List.cons_append, read_cons hquote hbreak hback (absurd · hc), ih]
      rfl
  | backslash hstarts h ih =>
    rw [read_escaped_backslash_dollar hrest, hstarts, if_neg Bool.false_ne_true, ih]
    rfl

/-! ## Names that are not

What cannot be decided at one character is decided by counting. An escape that the name
itself holds stands for one unit and takes two characters at least; so the name denotes
fewer units than it has, whatever they are, and does not come back. -/

/-- A hexadecimal digit at the front of an escaped name is one of the name. -/
theorem exists_of_hexValue? {cs : List Char} {c : Char} {behind : List Char}
    (h : escaped cs ++ '"' :: rest = c :: behind) (hhex : (Json.hexValue? c).isSome) :
    ∃ ds, cs = c :: ds ∧ escaped ds ++ '"' :: rest = behind := by
  cases cs with
  | nil =>
    obtain ⟨rfl, -⟩ := List.cons.inj h
    cases hhex
  | cons d ds =>
    by_cases hd : d = '$'
    · subst hd
      obtain ⟨rfl, -⟩ := List.cons.inj h
      cases hhex
    · rw [escaped_cons hd] at h
      obtain ⟨rfl, hbehind⟩ := List.cons.inj h
      exact ⟨ds, rfl, hbehind⟩

/-- Four hexadecimal digits are read where they stand. -/
theorem exists_of_readHex? {cs behind : List Char} {n : Nat}
    (h : Json.readHex? cs = some (n, behind)) :
    ∃ a b c d, cs = a :: b :: c :: d :: behind ∧ (Json.hexValue? a).isSome
      ∧ (Json.hexValue? b).isSome ∧ (Json.hexValue? c).isSome ∧ (Json.hexValue? d).isSome := by
  unfold Json.readHex? at h
  split at h
  · next a b c d cs =>
    simp only [Option.bind_eq_bind, Option.bind_eq_some_iff] at h
    obtain ⟨va, ha, vb, hb, vc, hc, vd, hd, h⟩ := h
    cases h
    exact ⟨a, b, c, d, rfl, ha ▸ rfl, hb ▸ rfl, hc ▸ rfl, hd ▸ rfl⟩
  · cases h

/-- **Any other escape** takes characters of the name, one at least, besides the backslash.
A code point takes five, none of which can be the quote behind the name, since a quote is no
digit. -/
theorem exists_of_escape? {cs : List Char} {unit length : Nat} (hne : cs ≠ [])
    (hdollar : cs.head? ≠ some '$')
    (h : escape? (escaped cs ++ '"' :: rest) = some (unit, length)) :
    ∃ front ds, cs = front ++ ds ∧ front ≠ []
      ∧ (escaped cs ++ '"' :: rest).drop length = escaped ds ++ '"' :: rest := by
  cases cs with
  | nil => exact absurd rfl hne
  | cons c cs =>
    have hc : c ≠ '$' := fun h => hdollar (congrArg some h)
    rw [escaped_cons hc, List.cons_append] at h ⊢
    rw [escape?] at h
    split_ifs at h with hu
    · obtain ⟨⟨n, behind⟩, hhex, hlength⟩ := Option.map_eq_some_iff.mp h
      obtain ⟨a, b, d, e, hchars, ha, hb, hd, he⟩ := exists_of_readHex? hhex
      cases hlength
      obtain ⟨as, rfl, has⟩ := exists_of_hexValue? hchars ha
      obtain ⟨bs, rfl, hbs⟩ := exists_of_hexValue? has hb
      obtain ⟨ds, rfl, hds⟩ := exists_of_hexValue? hbs hd
      obtain ⟨es, rfl, rfl⟩ := exists_of_hexValue? hds he
      exact ⟨[c, a, b, d, e], es, rfl, List.cons_ne_nil _ _, congrArg (List.drop 4) hchars⟩
    · obtain ⟨n, -, hlength⟩ := Option.map_eq_some_iff.mp h
      cases hlength
      exact ⟨[c], cs, rfl, List.cons_ne_nil _ _, rfl⟩

/-- **A name accounts for units** if they are no more than its own, and as many only if escaping
keeps it. -/
def AccountsFor (letters : Letters) (cs : List Char) (us : List Nat) : Prop :=
  us.length ≤ (unitsOf cs).length ∧ (us.length = (unitsOf cs).length → Kept letters cs)

namespace AccountsFor

variable {cs : List Char} {us : List Nat}

/-- A character that stands for itself accounts for its units. -/
theorem cons {c : Char} (hkept : Kept letters cs → Kept letters (c :: cs))
    (h : AccountsFor letters cs us) : AccountsFor letters (c :: cs) (units c ++ us) := by
  obtain ⟨hle, hsame⟩ := h
  unfold AccountsFor
  rw [unitsOf_cons, List.length_append, List.length_append]
  exact ⟨by omega, fun heq => hkept (hsame (by omega))⟩

/-- So does a backslash that escapes the one of an escaped dollar sign. -/
theorem backslash (hstarts : startsTemplate letters cs = false) (h : AccountsFor letters cs us) :
    AccountsFor letters ('\\' :: '$' :: cs) (units '\\' ++ units '$' ++ us) := by
  obtain ⟨hle, hsame⟩ := h
  unfold AccountsFor
  simp only [unitsOf_cons, List.length_append]
  exact ⟨by omega, fun heq => .backslash hstarts (hsame (by omega))⟩

/-- Any other escape is short of some: it stands for one unit, and takes the backslash and what
follows. -/
theorem escape {front : List Char} (hfront : front ≠ []) (unit : Nat)
    (h : AccountsFor letters cs us) : AccountsFor letters ('\\' :: (front ++ cs)) (unit :: us) := by
  have hpos := List.length_pos_of_ne_nil hfront
  have hunits := length_le_length_unitsOf front
  have hbackslash : (units '\\').length = 1 := rfl
  obtain ⟨hle, -⟩ := h
  have hlt : (unit :: us).length < (unitsOf ('\\' :: (front ++ cs))).length := by
    rw [unitsOf_cons, unitsOf_append, List.length_append, List.length_append, List.length_cons]
    omega
  exact ⟨Nat.le_of_lt hlt, fun heq => absurd heq (Nat.ne_of_lt hlt)⟩

end AccountsFor

/-- **What is read in front of the rest** is accounted for by the name.

By induction on the length of the name. The reader takes a character that stands for itself,
the pair of a backslash and a dollar sign, or another escape; each of the three accounts for
what it adds. It cannot come out before the end of the name, since what is behind the
literal is shorter. -/
theorem accountsFor_of_read_escaped (hrest : '\x60' ∉ rest) {cs : List Char} {us : List Nat}
    (h : read letters 0 (escaped cs ++ '"' :: rest) = .complete us rest) :
    AccountsFor letters cs us := by
  induction hlength : cs.length using Nat.strongRecOn generalizing cs us with
  | ind n ih =>
    subst hlength
    cases cs with
    | nil =>
      cases h
      exact ⟨Nat.le_refl _, fun _ => .nil⟩
    | cons c cs =>
      -- a character that stands for itself leaves the rest of the name
      have hself : read letters 0 (escaped (c :: cs) ++ '"' :: rest)
            = (read letters 0 (escaped cs ++ '"' :: rest)).prepend (units c) →
          (Kept letters cs → Kept letters (c :: cs)) → AccountsFor letters (c :: cs) us := by
        intro hread hkept
        obtain ⟨vs, rfl, hvs⟩ := Reading.prepend_eq_complete.mp (hread.symm.trans h)
        exact (ih cs.length (Nat.lt_succ_self _) hvs rfl).cons hkept
      by_cases hdollar : c = '$'
      · subst hdollar
        exact hself (read_escaped_dollar cs) (.cons (by decide) rfl (by decide))
      by_cases hquote : c = '"'
      · -- the literal ends before its closing quote
        subst hquote
        rw [escaped_cons hdollar, List.cons_append, read_quote] at h
        have hrest := congrArg List.length (Reading.complete.inj h).2
        rw [List.length_append, List.length_cons] at hrest
        omega
      by_cases hbreak : isLineBreak c = true
      · rw [escaped_cons hdollar, List.cons_append, read_lineBreak hbreak] at h
        cases h
      rw [Bool.not_eq_true] at hbreak
      by_cases hback : c = '\\'
      · subst hback
        by_cases hhead : cs.head? = some '$'
        · obtain ⟨ds, rfl⟩ := List.head?_eq_some_iff.mp hhead
          rw [read_escaped_backslash_dollar hrest] at h
          split_ifs at h with hstarts
          obtain ⟨vs, rfl, hvs⟩ := Reading.prepend_eq_complete.mp h
          have hlt : ds.length < ('\\' :: '$' :: ds).length := by
            simp only [List.length_cons]
            omega
          exact (ih ds.length hlt hvs rfl).backslash (Bool.eq_false_iff.mpr hstarts)
        rw [escaped_cons (by decide), List.cons_append, read_escape] at h
        split at h
        · next unit length hescape =>
          obtain ⟨vs, rfl, hvs⟩ := Reading.prepend_eq_complete.mp h
          by_cases hnil : cs = []
          · -- the backslash escapes the closing quote
            subst hnil
            cases hescape
            exact absurd (length_lt_of_read_eq_complete hvs) (Nat.lt_irrefl _)
          · obtain ⟨front, ds, rfl, hfront, hdrop⟩ := exists_of_escape? hnil hhead hescape
            rw [hdrop] at hvs
            have hlt : ds.length < ('\\' :: (front ++ ds)).length := by
              simp only [List.length_cons, List.length_append]
              omega
            exact (ih ds.length hlt hvs rfl).escape hfront unit
        · cases h
      · have hread : read letters 0 (escaped (c :: cs) ++ '"' :: rest)
            = (read letters 0 (escaped cs ++ '"' :: rest)).prepend (units c) := by
          rw [escaped_cons hdollar, List.cons_append,
            read_cons hquote hbreak hback (absurd · hdollar)]
        exact hself hread (.cons hquote hbreak hback)

/-- **A name with its dollar signs escaped** denotes itself exactly if it is one that escaping
keeps. -/
theorem read_escaped_iff (hrest : '\x60' ∉ rest) {cs : List Char} :
    read letters 0 (escaped cs ++ '"' :: rest) = .complete (unitsOf cs) rest
      ↔ Kept letters cs :=
  ⟨fun h => (accountsFor_of_read_escaped hrest h).2 rfl, read_escaped_of_kept hrest⟩

end ClientGen.Kotlin.Literal

namespace ClientGen.Kotlin.ModelFile

open Client (Model Property)
open Literal (Letters Kept read unitsOf escaped behindQuote)

/-- The literal of a wire name, as its characters. -/
theorem toList_literalOf (wireName : String) :
    (Model.literalOf wireName).toList = escaped wireName.toList := String.toList_ofList

/-- The literal that a property gets is the one that is written, also where it is empty. -/
theorem literal_of_mem_withLiterals {m : Model} {v : Property}
    (hv : v ∈ m.withLiterals.views.listed) :
    v.literal = some (Model.literalOf v.wireName)
      ∧ wireLiteral v = Model.literalOf v.wireName := by
  rw [Model.withLiterals, Client.Views.listed_map] at hv
  obtain ⟨u, -, rfl⟩ := List.mem_map.mp hv
  refine ⟨rfl, ?_⟩
  by_cases hempty : Model.literalOf u.wireName = ""
  · have hname : u.wireName = "" := by
      rw [← String.toList_eq_nil_iff, toList_literalOf, Literal.escaped_eq_nil_iff] at hempty
      exact String.toList_eq_nil_iff.mp hempty
    simp only [wireLiteral, hname]
    rfl
  · simp [wireLiteral, nonempty?, Option.filter_some, hempty]

/-- **The literal that a property gets for its wire name**, put between quotes, is complete, has no
template and denotes the wire name exactly if this has no quote and no line break, and a backslash
only in front of a dollar sign that begins no template. The same holds of the literal in the
annotation that is written for the property, whatever the library.

Escaping only ever puts a backslash in front of a dollar sign. So nothing can be done about
a quote or a line break, and a backslash of the wire name takes the one that has been put in
for itself. -/
theorem literal_denotes_iff (letters : Letters) {m : Model} {v : Property}
    (hv : v ∈ m.withLiterals.views.listed) :
    ∃ literal, v.literal = some literal
      ∧ (read letters 0 (literal.toList ++ ['"']) = .complete (unitsOf v.wireName.toList) []
        ↔ Kept letters v.wireName.toList)
      ∧ ∀ p, read letters 0 (behindQuote <| nameAnnotation p (wireLiteral v))
          = .complete (unitsOf v.wireName.toList) [')'] ↔ Kept letters v.wireName.toList := by
  obtain ⟨hliteral, hwritten⟩ := literal_of_mem_withLiterals hv
  refine ⟨_, hliteral, ?_, fun p => ?_⟩
  · rw [toList_literalOf]
    exact Literal.read_escaped_iff List.not_mem_nil
  · rw [Literal.behindQuote_nameAnnotation_eq, hwritten, toList_literalOf]
    exact Literal.read_escaped_iff (by decide)

/-- A property under a wire name. -/
def namedProperty (wireName : String) : Property where
  name := "property"
  wireName
  dataType := "kotlin.String"
  elementType := "kotlin.String"

/-- A model with one property. -/
def namedModel (wireName : String) : Model where
  name := "Pet"
  className := "Pet"
  views := { own := [namedProperty wireName], all := [namedProperty wireName] }

/-- A name with a dollar sign at its front and one behind a backslash: escaping keeps it. -/
theorem literal_denotes_iff_of_dollars :
    { namedProperty "$ref\\$5" with literal := some "\\$ref\\\\$5" }
        ∈ (namedModel "$ref\\$5").withLiterals.views.listed
      ∧ Kept .onlyAscii "$ref\\$5".toList
      ∧ read .onlyAscii 0 ("\\$ref\\\\$5".toList ++ ['"'])
        = .complete (unitsOf "$ref\\$5".toList) [] := by
  have hmem : { namedProperty "$ref\\$5" with literal := some "\\$ref\\\\$5" }
      ∈ (namedModel "$ref\\$5").withLiterals.views.listed := by decide
  have hkept : Kept .onlyAscii "$ref\\$5".toList :=
    .cons (by decide) rfl (by decide) <| .cons (by decide) rfl (by decide) <|
      .cons (by decide) rfl (by decide) <| .cons (by decide) rfl (by decide) <|
      .backslash rfl <| .cons (by decide) rfl (by decide) .nil
  obtain ⟨literal, hliteral, hread, -⟩ := literal_denotes_iff .onlyAscii hmem
  obtain rfl : "\\$ref\\\\$5" = literal := Option.some.inj hliteral
  exact ⟨hmem, hkept, hread.mpr hkept⟩

/-- **A quote and a backslash of the wire name are not escaped.** The quote ends the literal, and
the backslash escapes what follows it. -/
theorem literal_not_denotes_of_quote :
    ({ namedProperty "a\"b" with literal := some "a\"b" }
          ∈ (namedModel "a\"b").withLiterals.views.listed
        ∧ read .onlyAscii 0 ("a\"b".toList ++ ['"']) = .complete (unitsOf ['a']) ['b', '"']
        ∧ read .onlyAscii 0 ("a\"b".toList ++ ['"']) ≠ .complete (unitsOf "a\"b".toList) [])
      ∧ { namedProperty "a\\b" with literal := some "a\\b" }
          ∈ (namedModel "a\\b").withLiterals.views.listed
        ∧ read .onlyAscii 0 ("a\\b".toList ++ ['"']) = .complete (unitsOf ['a', '\x08']) []
        ∧ read .onlyAscii 0 ("a\\b".toList ++ ['"']) ≠ .complete (unitsOf "a\\b".toList) [] := by
  decide

end ClientGen.Kotlin.ModelFile
