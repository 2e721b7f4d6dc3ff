import ClientGen.Proofs.Identifiers

/-!
# What sanitizing a name guarantees

A sanitized name has characters of identifiers only, no digit in front, and is not
underscores alone (`Naming.IsSanitized`). Sanitizing makes such a name of every text but the
empty one (`Naming.isSanitized_sanitizeChars`), and leaves a name as it is that is sanitized
already (`Naming.IsSanitized.sanitizeChars_eq`), so doing it twice does nothing more than
doing it once (`Naming.sanitize_normalizes`).

Sanitizing is four steps in a row, and each has the same two facts to show: what it makes of
any text, and that it does nothing where there is nothing for it to do. The second is what
lets a later step be read without the earlier ones. That nothing is lost altogether has to
be followed through all four, for a step that could return the empty text would leave the
later ones without a character to begin with.
-/

namespace ClientGen.Naming

/-- **An identifier**: a letter or an underscore, then letters, digits and underscores. The
letters are those of ASCII, as in every name that the generator makes itself. -/
def IsIdentifier (s : String) : Prop :=
  ∃ first rest, s.toList = first :: rest ∧ (first.isAlpha = true ∨ first = '_')
    ∧ ∀ c ∈ rest, isIdentifierChar c = true

/-- **A sanitized name**, as its characters. -/
structure IsSanitized (cs : List Char) : Prop where
  chars : ∀ c ∈ cs, isIdentifierChar c = true
  front : startsWithDigit cs = false
  /-- It is not underscores alone. -/
  named : ∃ c ∈ cs, Text.isAlphanumeric c = true

variable {cs : List Char}

/-- A bare name is an identifier if no digit comes first. -/
theorem IsBare.isIdentifier {s : String} (h : IsBare s) (hne : s.toList ≠ [])
    (hfront : startsWithDigit s.toList = false) : IsIdentifier s := by
  cases hs : s.toList with
  | nil => exact absurd hs hne
  | cons first rest =>
    unfold IsBare at h
    rw [hs] at h hfront
    refine ⟨first, rest, hs, ?_, fun c hc => h c (.tail first hc)⟩
    have hfirst := h first List.mem_cons_self
    rw [startsWithDigit] at hfront
    rw [isIdentifierChar, Text.isAlphanumeric, hfront, Bool.or_false, Bool.or_eq_true,
      decide_eq_true_eq] at hfirst
    exact hfirst

/-- A sanitized name has a letter or a digit, so it is not empty. -/
theorem IsSanitized.ne_nil (h : IsSanitized cs) : cs ≠ [] := by
  obtain ⟨c, hc, -⟩ := h.named
  exact List.ne_nil_of_mem hc

/-! ## Special characters spelled out

The first step knows the characters of a table and no others. It never touches a character
that an identifier may have, so what it does to a text that is all identifier is nothing. -/

/-- Characters of identifiers are not spelled out. -/
theorem wordFor?_eq_none {c : Char} (h : isIdentifierChar c = true) : wordFor? c = none := by
  rcases Bool.or_eq_true_iff.mp h with h | h
  · exact Text.forall_isAlphanumeric (p := fun c => wordFor? c = none) (by decide) h
  · rw [of_decide_eq_true h]
    rfl

/-- Nothing is spelled as nothing. -/
theorem wordFor?_ne_empty {c : Char} {w : String} (h : wordFor? c = some w) : w ≠ "" := by
  unfold wordFor? at h
  split at h <;> cases h <;> decide

/-- A text of characters of identifiers has nothing to spell out. -/
theorem spellOut_eq_self (h : ∀ c ∈ cs, isIdentifierChar c = true) : spellOut cs = cs := by
  induction cs with
  | nil => rfl
  | cons c cs ih =>
    have hcs := ih (fun d hd => h d (.tail c hd))
    rw [spellOut] at hcs ⊢
    rw [List.flatMap_cons, hcs, wordFor?_eq_none (h c List.mem_cons_self)]
    rfl

/-- Spelling out loses no text: each character stands for itself or for a word of at least
one letter. -/
theorem spellOut_eq_nil_iff : spellOut cs = [] ↔ cs = [] := by
  constructor
  · intro h
    refine List.eq_nil_iff_forall_not_mem.mpr (fun c hc => ?_)
    have hspelled := List.flatMap_eq_nil_iff.mp h c hc
    split at hspelled
    · next w hw => exact wordFor?_ne_empty hw (String.toList_eq_nil_iff.mp hspelled)
    · cases hspelled
  · rintro rfl
    rfl

/-! ## Foreign characters collapsed

What the table does not know becomes an underscore, one for each run. From here on all
characters are those of identifiers. -/

/-- **Collapsing leaves characters of identifiers only**: each foreign character is dropped
or becomes an underscore. -/
theorem isIdentifierChar_of_mem_collapseForeign {inRun : Bool} {c : Char}
    (h : c ∈ collapseForeign inRun cs) : isIdentifierChar c = true := by
  induction cs generalizing inRun with
  | nil => cases h
  | cons d ds ih =>
    rw [collapseForeign] at h
    split_ifs at h with hd
    · rcases List.mem_cons.mp h with rfl | h
      · exact hd
      · exact ih h
    · exact ih h
    · rcases List.mem_cons.mp h with rfl | h
      · rfl
      · exact ih h

/-- A text of characters of identifiers has nothing to collapse. Underscores of its own are
kept one by one, also where several stand in a row. -/
theorem collapseForeign_eq_self {inRun : Bool} (h : ∀ c ∈ cs, isIdentifierChar c = true) :
    collapseForeign inRun cs = cs := by
  induction cs generalizing inRun with
  | nil => rfl
  | cons d ds ih =>
    rw [collapseForeign, if_pos (h d List.mem_cons_self), ih (fun c hc => h c (.tail _ hc))]

/-- Collapsing loses no text, as long as no run is under way: the first character of a run
leaves an underscore. Inside a run the rest of it would be lost. -/
theorem collapseForeign_eq_nil_iff : collapseForeign false cs = [] ↔ cs = [] := by
  cases cs with
  | nil => exact iff_of_true rfl rfl
  | cons d ds =>
    rw [collapseForeign, if_neg Bool.false_ne_true]
    split_ifs <;> simp

/-! ## A digit in front

Of the characters of identifiers only a digit is not allowed in front, and an underscore
before it mends that. -/

/-- **No digit comes first** once it is guarded. -/
theorem startsWithDigit_guardDigit (cs : List Char) : startsWithDigit (guardDigit cs) = false := by
  unfold guardDigit
  split_ifs with h
  · rfl
  · exact Bool.eq_false_iff.mpr h

/-- The guard adds at most a character. -/
theorem guardDigit_eq_nil_iff : guardDigit cs = [] ↔ cs = [] := by
  unfold guardDigit
  split_ifs with h
  · refine ⟨nofun, ?_⟩
    rintro rfl
    cases h
  · exact .rfl

/-! ## Sanitizing

The last step replaces a name of underscores alone by a word. It is the reason why the
result has a letter or a digit in it: if what the other steps give has none, it is all
underscores. -/

/-- The word for a name of underscores alone is a sanitized name. -/
theorem isSanitized_underscoreName : IsSanitized underscoreName.toList :=
  ⟨List.all_eq_true.mp (by decide), by decide, 'U', by decide, by decide⟩

/-- **Every text but the empty one is sanitized.** The empty text is left empty, since there
is nothing that it could be named after. -/
theorem isSanitized_sanitizeChars (h : cs ≠ []) : IsSanitized (sanitizeChars cs) := by
  have hne : guardDigit (collapseForeign false (spellOut cs)) ≠ [] := by
    rwa [Ne, guardDigit_eq_nil_iff, collapseForeign_eq_nil_iff, spellOut_eq_nil_iff]
  have hchars : ∀ c ∈ guardDigit (collapseForeign false (spellOut cs)),
      isIdentifierChar c = true := fun c hc =>
    isIdentifierChar_of_mem_guardDigit (fun d hd => isIdentifierChar_of_mem_collapseForeign hd) hc
  unfold sanitizeChars
  dsimp only
  split_ifs with hunderscores
  · exact isSanitized_underscoreName
  · refine ⟨hchars, startsWithDigit_guardDigit _, ?_⟩
    rcases Bool.and_eq_false_iff.mp (Bool.eq_false_iff.mpr hunderscores) with hempty | hall
    · rw [Bool.not_eq_false', List.isEmpty_iff] at hempty
      exact absurd hempty hne
    · -- Some character is no underscore, and so a letter or a digit.
      obtain ⟨c, hc, hunderscore⟩ := List.all_eq_false.mp hall
      have hchar := hchars c hc
      rw [isIdentifierChar, Bool.or_eq_true] at hchar
      exact ⟨c, hc, hchar.resolve_right hunderscore⟩

/-- **A sanitized name is left as it is.** All four steps have nothing to do: the first two
look for foreign characters, the third for a digit in front and the last for underscores
alone. -/
theorem IsSanitized.sanitizeChars_eq (h : IsSanitized cs) : sanitizeChars cs = cs := by
  have hguarded : guardDigit (collapseForeign false (spellOut cs)) = cs := by
    rw [spellOut_eq_self h.chars, collapseForeign_eq_self h.chars, guardDigit, h.front,
      if_neg Bool.false_ne_true]
  obtain ⟨c, hc, hnamed⟩ := h.named
  have hnot : ¬ (!cs.isEmpty && cs.all (· = '_')) = true := by
    intro hunderscores
    have hall := List.all_eq_true.mp (Bool.and_eq_true_iff.mp hunderscores).2
    rw [of_decide_eq_true (hall c hc)] at hnamed
    cases hnamed
  unfold sanitizeChars
  rw [hguarded]
  exact if_neg hnot

/-- Sanitizing a name is sanitizing its characters. -/
theorem toList_sanitize (s : String) : (sanitize s).toList = sanitizeChars s.toList :=
  String.toList_ofList

/-- The sanitized form of any name but the empty one, as a text. -/
theorem isSanitized_sanitize {s : String} (h : s ≠ "") : IsSanitized (sanitize s).toList := by
  rw [toList_sanitize]
  exact isSanitized_sanitizeChars (mt String.toList_eq_nil_iff.mp h)

/-- A sanitized name is an identifier: it is not empty, and no digit comes first. -/
theorem IsSanitized.isIdentifier {s : String} (h : IsSanitized s.toList) : IsIdentifier s :=
  IsBare.isIdentifier h.chars h.ne_nil h.front

/-- **What sanitizing makes of a name.** Only the empty name becomes empty; of any other it
makes an identifier with a letter or a digit in it; and the second time it has no effect.

All three follow from one description of what the result looks like, and of what sanitizing
leaves as it is. -/
theorem sanitize_normalizes (s : String) :
    (sanitize s = "" ↔ s = "")
      ∧ (s ≠ "" → IsIdentifier (sanitize s)
          ∧ ∃ c ∈ (sanitize s).toList, Text.isAlphanumeric c = true)
      ∧ sanitize (sanitize s) = sanitize s := by
  by_cases hs : s = ""
  · subst hs
    exact ⟨iff_of_true rfl rfl, fun h => absurd rfl h, rfl⟩
  · have h := isSanitized_sanitize hs
    refine ⟨iff_of_false (mt String.toList_eq_nil_iff.mpr h.ne_nil) hs,
      fun _ => ⟨h.isIdentifier, h.named⟩, ?_⟩
    rw [← String.toList_inj, toList_sanitize, h.sanitizeChars_eq]

/-- A digit in front, blanks and a letter beyond ASCII that collapse, a character that is
spelled out, and an underscore of the text itself that ends a run. -/
theorem sanitize_normalizes_of_digits :
    "7  é-_" ≠ "" ∧ sanitize "7  é-_" = "_7_Minus_" ∧ IsIdentifier (sanitize "7  é-_")
      ∧ sanitize (sanitize "7  é-_") = sanitize "7  é-_" := by
  have hne : "7  é-_" ≠ "" := by decide
  obtain ⟨-, hidentifier, htwice⟩ := sanitize_normalizes "7  é-_"
  exact ⟨hne, rfl, (hidentifier hne).1, htwice⟩

end ClientGen.Naming
