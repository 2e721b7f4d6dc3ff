import ClientGen.Conversion.Operations
import ClientGen.Kotlin.ApiFile
import ClientGen.Proofs.ValidNames

/-!
# Names without the words for a minus sign

A variable is named validly for any text but the empty one, with a `Minus` for each minus
sign. Header parameters can be printed without these words. What is left then need not be a
name any more: nothing may be left, or a digit may come first, or a reserved word may be
left, which gets no backticks now.

Dropping the words goes from left to right, once, and takes out all that it meets. What can
be left of a text if some of the words are taken out, whichever they are, is said by the
rules of `Kotlin.Leaves`. To the three questions that matter for a name both give the same
answer (`Kotlin.leavesName_iff`), so the name that is printed is valid exactly if none of
the three can be left (`Kotlin.ApiFile.isValidName_argumentName_iff`).

The two need not agree on other questions. Dropping a word can bring two halves of another
one together, which is then left, while the rules may take words out in any way that they
like. What makes them agree here is that none of the three answers has an `m` where it
matters: a digit is none, and no reserved word holds the word that is dropped.
-/

namespace ClientGen.Kotlin

open Naming

/-! ## Taking words out

The word has its first letter once: no other letter of it is an `m`. So two occurrences of
it in a text cannot overlap, and what is no `m` is never in the way of one. -/

/-- A word for a minus sign, in any case of letters. -/
def IsMinus (w : List Char) : Prop := w.map Char.toLower = minusWord

instance (w : List Char) : Decidable (IsMinus w) := inferInstanceAs (Decidable (_ = _))

/-- **What is left of a text** when some words for a minus sign are taken out of it. -/
inductive Leaves : List Char → List Char → Prop
  | nil : Leaves [] []
  | keep (c : Char) {cs ds : List Char} (h : Leaves cs ds) : Leaves (c :: cs) (c :: ds)
  | drop {w cs ds : List Char} (hw : IsMinus w) (h : Leaves cs ds) : Leaves (w ++ cs) ds

/-- There is a word for a minus sign in a text. -/
def HasMinus (cs : List Char) : Prop := minusWord <:+: cs.map Char.toLower

instance (cs : List Char) : Decidable (HasMinus cs) := inferInstanceAs (Decidable (_ <:+: _))

variable {w cs ds : List Char} {c : Char}

/-- The word has five letters in any case of letters. -/
theorem IsMinus.length (hw : IsMinus w) : w.length = minusWord.length := by
  rw [← hw, List.length_map]

/-- Only its first letter is an `m`. This is all that is used of the word; any other with
this property could stand in its place. -/
theorem IsMinus.exists_cons (hw : IsMinus w) :
    ∃ m t, w = m :: t ∧ m.toLower = 'm' ∧ ∀ c ∈ t, c.toLower ≠ 'm' := by
  obtain ⟨m, t, rfl, hm, ht⟩ := List.map_eq_cons_iff.mp hw
  refine ⟨m, t, rfl, hm, fun c hc => ?_⟩
  have hmem := List.mem_map_of_mem (f := Char.toLower) hc
  rw [ht] at hmem
  exact fun h => absurd (h ▸ hmem) (by decide)

/-- A word that comes first is met. -/
theorem startsWithMinus_append (hw : IsMinus w) (cs : List Char) :
    startsWithMinus (w ++ cs) = true := by
  rw [startsWithMinus, List.take_left' hw.length, hw]
  rfl

/-- What is met is a word in some case of letters, with the rest of the text behind it. -/
theorem exists_of_startsWithMinus (h : startsWithMinus cs = true) :
    ∃ w back, cs = w ++ back ∧ IsMinus w :=
  ⟨_, _, (List.take_append_drop minusWord.length cs).symm, eq_of_beq h⟩

/-- A word that comes first is the first letter and letters that are no `m`. -/
theorem exists_of_startsWithMinus_cons (h : startsWithMinus (c :: cs) = true) :
    c.toLower = 'm' ∧ ∃ t back, cs = t ++ back ∧ IsMinus (c :: t) ∧ ∀ d ∈ t, d.toLower ≠ 'm' := by
  obtain ⟨w, back, hsplit, hw⟩ := exists_of_startsWithMinus h
  obtain ⟨m, t, rfl, hm, ht⟩ := hw.exists_cons
  obtain ⟨rfl, rfl⟩ := List.cons.inj hsplit
  exact ⟨hm, t, back, rfl, hw, ht⟩

/-- What is left are letters of the text, in their order. -/
theorem Leaves.sublist (h : Leaves cs ds) : ds.Sublist cs := by
  induction h with
  | nil => exact .slnil
  | keep c h ih => exact .cons_cons c ih
  | @drop w cs ds hw h ih => exact ih.trans (List.sublist_append_right w cs)

/-- What is no `m` is kept. By induction on the text in front, where no word for a minus
sign can begin. -/
theorem Leaves.exists_append (hw : ∀ c ∈ w, c.toLower ≠ 'm') (h : Leaves (w ++ cs) ds) :
    ∃ es, ds = w ++ es ∧ Leaves cs es := by
  induction w generalizing ds with
  | nil => exact ⟨ds, rfl, h⟩
  | cons c w ih =>
    obtain ⟨hc, hw⟩ := List.forall_mem_cons.mp hw
    generalize hfront : c :: w ++ cs = front at h
    cases h with
    | nil => cases hfront
    | keep c' h =>
      obtain ⟨rfl, rfl⟩ := List.cons.inj hfront
      obtain ⟨es, rfl, hes⟩ := ih hw h
      exact ⟨es, rfl, hes⟩
    | drop hminus h =>
      obtain ⟨m, t, rfl, hm, -⟩ := hminus.exists_cons
      obtain ⟨rfl, -⟩ := List.cons.inj hfront
      exact absurd hm hc

/-! ## Dropping words from the left

The program drops a word as soon as it meets one, and counts the letters of it that are
still to be passed over, so that the recursion is on the text. -/

/-- Passing letters over is dropping words from what stands behind them. -/
theorem dropMinus_eq_drop (skip : Nat) (cs : List Char) :
    dropMinus skip cs = dropMinus 0 (cs.drop skip) := by
  induction skip generalizing cs with
  | zero => rfl
  | succ skip ih =>
    cases cs with
    | nil => rfl
    | cons c cs => exact ih cs

/-- A word that comes first is dropped. -/
theorem dropMinus_append (hw : IsMinus w) (cs : List Char) :
    dropMinus 0 (w ++ cs) = dropMinus 0 cs := by
  have hstarts := startsWithMinus_append hw cs
  obtain ⟨m, t, rfl, -, -⟩ := hw.exists_cons
  have hlength : t.length = minusWord.length - 1 := Nat.succ.inj hw.length
  rw [List.cons_append] at hstarts
  rw [List.cons_append, dropMinus, if_pos hstarts, dropMinus_eq_drop, List.drop_left' hlength]

/-- A letter with which no word begins is kept. -/
theorem dropMinus_cons (h : startsWithMinus (c :: cs) = false) :
    dropMinus 0 (c :: cs) = c :: dropMinus 0 cs := by
  rw [dropMinus, h, if_neg Bool.false_ne_true]

/-- **Dropping words is one way to take them out.** So whatever holds of all ways holds of
the program; the converse is what the statements below are about. -/
theorem leaves_dropMinus (cs : List Char) : Leaves cs (dropMinus 0 cs) := by
  induction hlength : cs.length using Nat.strongRecOn generalizing cs with
  | ind n ih =>
    cases cs with
    | nil => exact .nil
    | cons c cs =>
      subst hlength
      cases hstarts : startsWithMinus (c :: cs) with
      | true =>
        obtain ⟨w, back, hsplit, hw⟩ := exists_of_startsWithMinus hstarts
        rw [hsplit, dropMinus_append hw]
        refine .drop hw (ih back.length ?_ back rfl)
        have hpos : 0 < w.length := by rw [hw.length]; decide
        rw [hsplit, List.length_append]
        omega
      | false =>
        rw [dropMinus_cons hstarts]
        exact .keep c (ih cs.length (Nat.lt_succ_self _) cs rfl)

/-- Whatever way they are taken out: if no `m` comes first then, the same comes first. -/
theorem Leaves.head?_dropMinus (h : Leaves cs ds)
    (hhead : ∀ c, ds.head? = some c → c.toLower ≠ 'm') :
    (dropMinus 0 cs).head? = ds.head? := by
  induction h with
  | nil => rfl
  | @keep c cs ds h ih =>
    have hstarts : startsWithMinus (c :: cs) = false :=
      Bool.eq_false_iff.mpr (fun hstarts =>
        hhead c rfl (exists_of_startsWithMinus_cons hstarts).1)
    rw [dropMinus_cons hstarts]
    rfl
  | drop hw h ih =>
    rw [dropMinus_append hw]
    exact ih hhead

/-- **If no word is left, the same is left.** Where some way of taking words out leaves no
word at all, it has taken out every one that the program meets, and the program meets no
others. -/
theorem Leaves.dropMinus_eq (h : Leaves cs ds) (hfree : ¬ HasMinus ds) : dropMinus 0 cs = ds := by
  induction h with
  | nil => rfl
  | @keep c cs ds h ih =>
    have hstarts : startsWithMinus (c :: cs) = false := by
      refine Bool.eq_false_iff.mpr (fun hstarts => hfree ?_)
      -- a word whose first letter is kept is kept as a whole
      obtain ⟨-, t, back, rfl, hw, ht⟩ := exists_of_startsWithMinus_cons hstarts
      obtain ⟨es, rfl, -⟩ := h.exists_append ht
      refine ⟨[], es.map Char.toLower, ?_⟩
      rw [List.nil_append, ← hw, ← List.map_append]
      rfl
    rw [dropMinus_cons hstarts, ih (fun hminus => hfree ?_)]
    exact hminus.trans (List.suffix_cons _ _).isInfix
  | drop hw h ih =>
    rw [dropMinus_append hw]
    exact ih hfree

/-! ## What is left for a name

A name that is left is said of the rules and not of the program: whichever words are taken
out, something is left, no digit comes first, and it is no reserved word. -/

/-- **A name is left** whichever words are taken out: some character, no digit first, and no
reserved word. -/
structure LeavesName (cs : List Char) : Prop where
  nonempty : ¬ Leaves cs []
  digit : ∀ c ds, c.isDigit = true → ¬ Leaves cs (c :: ds)
  unreserved : ∀ word ∈ reservedWords, ¬ Leaves cs word.toList

/-- No reserved word has the word for a minus sign in it. They are finitely many, and are
looked at. -/
theorem not_hasMinus_of_reserved : ∀ word ∈ reservedWords, ¬ HasMinus word.toList := by
  decide +kernel

/-- A digit is no `m` in any case of letters. -/
theorem toLower_ne_of_isDigit (hc : c.isDigit = true) : c.toLower ≠ 'm' :=
  Text.forall_isAlphanumeric (p := fun c => c.isDigit = true → c.toLower ≠ 'm') (by decide)
    (Bool.or_eq_true_iff.mpr (.inr hc)) hc

/-- Dropping words from a name is dropping them from its characters. -/
theorem toList_withoutMinus (s : String) : (withoutMinus s).toList = dropMinus 0 s.toList :=
  String.toList_ofList

/-- **Which words are taken out is no matter for a name.** A name has something left, begins
with no digit and is no reserved word however words are taken out, if this is so of the way
of the program. -/
theorem leavesName_iff {s : String} : LeavesName s.toList
    ↔ (withoutMinus s).toList ≠ [] ∧ startsWithDigit (withoutMinus s).toList = false
      ∧ isReserved (withoutMinus s) = false := by
  have hleaves : Leaves s.toList (withoutMinus s).toList :=
    toList_withoutMinus s ▸ leaves_dropMinus s.toList
  constructor
  · intro h
    refine ⟨fun hnil => h.nonempty (hnil ▸ hleaves), ?_, Bool.eq_false_iff.mpr (fun hword => ?_)⟩
    · cases hdrop : (withoutMinus s).toList with
      | nil => rfl
      | cons c ds => exact Bool.eq_false_iff.mpr (fun hc => h.digit c ds hc (hdrop ▸ hleaves))
    · exact h.unreserved _ (List.contains_iff_mem.mp hword) hleaves
  · rintro ⟨hne, hdigit, hword⟩
    rw [toList_withoutMinus] at hne hdigit
    refine ⟨fun hleft => ?_, fun c ds hc hleft => ?_, fun word hmem hleft => ?_⟩
    · exact hne (hleft.dropMinus_eq (by decide))
    · have hhead := hleft.head?_dropMinus (fun d hd => by
        obtain rfl : c = d := Option.some.inj hd
        exact toLower_ne_of_isDigit hc)
      obtain ⟨es, hes⟩ := List.head?_eq_some_iff.mp hhead
      rw [hes] at hdigit
      exact absurd hc (Bool.eq_false_iff.mp hdigit)
    · have hname : withoutMinus s = word := String.toList_inj.mp
        ((toList_withoutMinus s).trans (hleft.dropMinus_eq (not_hasMinus_of_reserved word hmem)))
      exact absurd (hname ▸ List.contains_iff_mem.mpr hmem) (Bool.eq_false_iff.mp hword)

/-! ## Names of header parameters

The name of a variable is either a reserved word between backticks, or bare. In the first
case there is nothing to take out, and the backticks stay. In the second, taking words out
leaves a text that is bare again, and what decides is whether a name is left. -/

/-- No digit comes first in an identifier. -/
theorem startsWithDigit_of_isIdentifier {s : String} (h : IsIdentifier s) :
    s.toList ≠ [] ∧ startsWithDigit s.toList = false := by
  obtain ⟨first, rest, hs, hfirst, -⟩ := h
  rw [hs]
  refine ⟨List.cons_ne_nil _ _, ?_⟩
  rcases hfirst with halpha | rfl
  · exact Text.forall_isAlphanumeric (p := fun c => c.isAlpha = true → c.isDigit = false)
      (by decide) (Bool.or_eq_true_iff.mpr (.inl halpha)) halpha
  · rfl

/-- What a name of letters, digits and underscores needs besides, to be valid. -/
theorem isValidName_iff_of_isBare {s : String} (h : IsBare s) : IsValidName s
    ↔ s.toList ≠ [] ∧ startsWithDigit s.toList = false ∧ isReserved s = false := by
  refine ⟨fun hvalid => ?_, fun ⟨hne, hdigit, hword⟩ => .plain (h.isIdentifier hne hdigit) hword⟩
  generalize hname : s = name at hvalid
  cases hvalid with
  | plain hidentifier hword =>
    obtain ⟨hne, hdigit⟩ := startsWithDigit_of_isIdentifier hidentifier
    exact ⟨hne, hdigit, hword⟩
  | escaped hword => exact absurd hname (h.ne_backticked _)

/-- There is nothing to take out of a reserved word, so it keeps its backticks. -/
theorem withoutMinus_backticked : ∀ word ∈ reservedWords,
    withoutMinus (backticked word) = backticked word := by
  decide +kernel

/-- A reserved word between backticks leaves a name: with the backticks it is neither empty
nor a digit nor a reserved word, whatever is taken out between them. -/
theorem leavesName_backticked {word : String} (h : word ∈ reservedWords) :
    LeavesName (backticked word).toList := by
  have hbackticked : ∀ word ∈ reservedWords, (backticked word).toList ≠ []
      ∧ startsWithDigit (backticked word).toList = false
      ∧ isReserved (backticked word) = false := by decide +kernel
  rw [leavesName_iff, withoutMinus_backticked word h]
  exact hbackticked word h

/-- Letters, digits and underscores are left of such a name. -/
theorem isBare_withoutMinus {s : String} (h : IsBare s) : IsBare (withoutMinus s) := by
  intro c hc
  rw [toList_withoutMinus] at hc
  exact h c ((leaves_dropMinus s.toList).sublist.mem hc)

/-- **The name of a variable without the words** is valid exactly if a name is left of it. -/
theorem isValidName_withoutMinus_iff (name : String) :
    IsValidName (withoutMinus (variableName name)) ↔ LeavesName (variableName name).toList := by
  have hbare := isBare_recase_camelCase (sanitize name)
  unfold variableName escapeReserved
  split_ifs with hword
  · have hmem := List.contains_iff_mem.mp hword
    rw [withoutMinus_backticked _ hmem]
    exact iff_of_true (.escaped hword) (leavesName_backticked hmem)
  · exact (isValidName_iff_of_isBare (isBare_withoutMinus hbare)).trans leavesName_iff.symm

namespace ApiFile

/-- **The name that is printed for a header parameter** without the words for a minus sign is valid
exactly if a name is left of the one that its variable has: some character, no digit first, and no
reserved word.

The variable itself always has a valid name. What is lost is lost afterwards, when the words
that have been put in for a sign are taken out again, be they put in for one or not. -/
theorem isValidName_argumentName_iff (k : Converter) {profile : Profile}
    (hdrops : profile.dropsMinus = true) {p : Parameter} (hheader : p.location = .header)
    (hname : p.name ≠ "") :
    argumentName profile (k.parameter p) = withoutMinus (variableName p.name)
      ∧ IsValidName (variableName p.name)
      ∧ (IsValidName (argumentName profile (k.parameter p))
        ↔ LeavesName (variableName p.name).toList) := by
  have hprinted : argumentName profile (k.parameter p) = withoutMinus (variableName p.name) := by
    simp [argumentName, Converter.parameter, Converter.kindAt, hheader, hdrops]
  rw [hprinted]
  exact ⟨rfl, isValidName_variableName hname, isValidName_withoutMinus_iff p.name⟩

/-- A profile that drops the words for a minus sign. -/
def minusless : Profile :=
  { (default : Profile) with settings := OrderedMap.empty.put Key.dropsMinus (.flag true) }

/-- A header parameter without a schema. -/
def headerParameter (name : String) : Parameter where
  name
  location := .header
  description := none
  required := false
  schema := none

/-- A converter that knows no components. -/
def plainConverter : Converter where
  components := {}
  types := .standard
  style := {}

/-- The name that is printed for a header. -/
def printedName (header : String) : String :=
  argumentName minusless (plainConverter.parameter (headerParameter header))

/-- The header of a request has a word for each of its minus signs, and without them its
name is valid. -/
theorem isValidName_argumentName_iff_of_requestId :
    minusless.dropsMinus = true
      ∧ (headerParameter "X-Request-Id").location = .header
      ∧ (headerParameter "X-Request-Id").name ≠ ""
      ∧ printedName "X-Request-Id" = "xRequestId"
      ∧ IsValidName "xRequestId" := by
  have hdrops : minusless.dropsMinus = true := by decide
  have hname : (headerParameter "X-Request-Id").name ≠ "" := by decide
  have hleft : LeavesName (variableName "X-Request-Id").toList :=
    leavesName_iff.mpr (by decide +kernel)
  obtain ⟨hprinted, -, hvalid⟩ := isValidName_argumentName_iff plainConverter hdrops
    (p := headerParameter "X-Request-Id") rfl hname
  have hrequestId : withoutMinus (variableName "X-Request-Id") = "xRequestId" := by decide +kernel
  have hprints : printedName "X-Request-Id" = "xRequestId" := hprinted.trans hrequestId
  exact ⟨hdrops, rfl, hname, hprints, hprints ▸ hvalid.mpr hleft⟩

/-- **What is left need not be a name**: nothing may be left, or a digit, or a reserved word. -/
theorem not_isValidName_argumentName :
    (printedName "-" = "" ∧ ¬ IsValidName (printedName "-"))
      ∧ (printedName "-1" = "1" ∧ ¬ IsValidName (printedName "-1"))
      ∧ printedName "-in" = "in" ∧ ¬ IsValidName (printedName "-in") := by
  have hnothing : printedName "-" = "" := by decide +kernel
  have hdigit : printedName "-1" = "1" := by decide +kernel
  have hreserved : printedName "-in" = "in" := by decide +kernel
  rw [hnothing, hdigit, hreserved, isValidName_iff_of_isBare (s := "") (by decide),
    isValidName_iff_of_isBare (s := "1") (by decide),
    isValidName_iff_of_isBare (s := "in") (by decide)]
  decide

end ApiFile

end ClientGen.Kotlin
