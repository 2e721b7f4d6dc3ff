import ClientGen.Proofs.Sanitizing

/-!
# Names that a compiler accepts

A name of the document may be any text but the empty one. What a class, a variable or a
constant is called for it is an identifier that is no reserved word, or a reserved word
between backticks (`Naming.IsValidName`).

Two things might go wrong after sanitizing. A case style drops all that is no letter and no
digit, so nothing could be left; but the words of a text hold just its letters and digits
(`Text.flatten_words`), and a sanitized name has one of them. And what is left could begin
with a digit, which is where the case styles put an underscore
(`Naming.isIdentifier_recase`).
-/

namespace ClientGen

namespace Text

/-! ## Words keep all letters and digits

Splitting a text into words loses only what is no letter and no digit. The words are made in
two steps, runs of letters and digits and the humps in each, and neither drops a character
of the run at hand. -/

/-- The humps of a run are the run, with what was collected so far in front. -/
theorem flatten_humps (run : LetterRun) (word cs : List Char) :
    (humps run word cs).flatten = word.reverse ++ cs := by
  induction run, word, cs using humps.induct with
  | case1 => rfl
  | case2 run word hword => rw [humps.eq_2 _ _ hword]; simp
  | case3 run word d => rw [humps]; simp
  | case4 run word d next ds hend ih =>
    rw [humps, if_pos hend, List.flatten_cons, ih]
    simp
  | case5 run word d next ds hend hstart ih =>
    rw [humps, if_neg hend, if_pos hstart, List.flatten_cons, ih]
    simp
  | case6 run word d next ds hend hstart ih =>
    rw [humps, if_neg hend, if_neg hstart, ih]
    simp

/-- The runs of a text are its letters and digits, in their order. The run being read comes
first. -/
theorem flatten_alphanumericRuns (run cs : List Char) :
    (alphanumericRuns run cs).flatten = run.reverse ++ cs.filter isAlphanumeric := by
  induction cs generalizing run with
  | nil =>
    unfold alphanumericRuns
    split_ifs with hrun
    · rw [List.isEmpty_iff.mp hrun]
      rfl
    · simp
  | cons c cs ih =>
    unfold alphanumericRuns
    split_ifs with hc hrun
    · rw [ih, List.filter_cons_of_pos hc]
      simp
    · rw [ih, List.filter_cons_of_neg hc, List.isEmpty_iff.mp hrun]
    · rw [List.flatten_cons, ih, List.filter_cons_of_neg hc]
      rfl

/-- **The words of a text hold its letters and digits**, in their order. -/
theorem flatten_words (cs : List Char) : (words cs).flatten = cs.filter isAlphanumeric := by
  calc (words cs).flatten
      = (alphanumericRuns [] cs).flatMap (fun run => (humps .fresh [] run).flatten) := by
        rw [words, List.flatten_eq_flatMap, List.flatMap_assoc]
        simp only [List.flatMap_id]
    _ = (alphanumericRuns [] cs).flatten := by
        simp only [flatten_humps, List.reverse_nil, List.nil_append, List.flatMap_id']
    _ = cs.filter isAlphanumeric := by
        rw [flatten_alphanumericRuns, List.reverse_nil, List.nil_append]

/-- What stands between separators is there, with nothing else than the separators. -/
theorem mem_intercalate {sep : Char} {ws : List (List Char)} {w : List Char} {c : Char}
    (hw : w ∈ ws) (hc : c ∈ w) : c ∈ [sep].intercalate ws := by
  induction ws with
  | nil => cases hw
  | cons v ws ih =>
    cases ws with
    | nil =>
      rw [List.intercalate_singleton, ← List.mem_singleton.mp hw]
      exact hc
    | cons v' ws =>
      rw [List.intercalate_cons_cons]
      rcases List.mem_cons.mp hw with rfl | hw
      · exact List.mem_append_left _ (List.mem_append_left _ hc)
      · exact List.mem_append_right _ (ih hw)

/-- A character among words with separators is a separator, or stands in a word. -/
theorem mem_of_mem_intercalate {sep : Char} {ws : List (List Char)} {c : Char}
    (h : c ∈ [sep].intercalate ws) : c = sep ∨ ∃ w ∈ ws, c ∈ w := by
  induction ws with
  | nil => cases h
  | cons v ws ih =>
    cases ws with
    | nil =>
      rw [List.intercalate_singleton] at h
      exact .inr ⟨v, List.mem_cons_self, h⟩
    | cons v' ws =>
      rw [List.intercalate_cons_cons, List.mem_append, List.mem_append, List.mem_singleton] at h
      rcases h with (h | h) | h
      · exact .inr ⟨v, List.mem_cons_self, h⟩
      · exact .inl h
      · obtain h | ⟨w, hw, hc⟩ := ih h
        · exact .inl h
        · exact .inr ⟨w, .tail v hw, hc⟩

/-- Capitalizing loses no letter. -/
theorem capitalized_eq_nil_iff {w : List Char} : capitalized w = [] ↔ w = [] := by
  cases w with
  | nil => exact .rfl
  | cons c cs => exact iff_of_false nofun nofun

/-- A letter or a digit is in one of the words. -/
theorem exists_mem_words {cs : List Char} {c : Char} (hc : c ∈ cs)
    (h : isAlphanumeric c = true) : ∃ w ∈ words cs, c ∈ w := by
  rw [← List.mem_flatten, flatten_words]
  exact List.mem_filter.mpr ⟨hc, h⟩

end Text

namespace Naming

/-! ## Case styles

A case style puts words together again. What a later lemma needs of one is that its
characters are those of identifiers and that it loses no text; how it writes a word does not
matter. -/

/-- **A case style** writes characters of identifiers, and something wherever there is a letter
or a digit. -/
structure IsCaseStyle (style : List Char → List Char) : Prop where
  chars : ∀ cs, ∀ c ∈ style cs, isIdentifierChar c = true
  ne_nil : ∀ cs, (∃ c ∈ cs, Text.isAlphanumeric c = true) → style cs ≠ []

/-- Pascal case writes the words without separators. -/
theorem isCaseStyle_pascalCase : IsCaseStyle Text.pascalCase where
  chars _ _ hc := isIdentifierChar_of_isAlphanumeric (Text.isAlphanumeric_of_mem_pascalCase hc)
  ne_nil cs := by
    rintro ⟨c, hc, halnum⟩ hnil
    obtain ⟨w, hw, hcw⟩ := Text.exists_mem_words hc halnum
    have hcapitalized := List.flatMap_eq_nil_iff.mp hnil w hw
    exact List.ne_nil_of_mem hcw (Text.capitalized_eq_nil_iff.mp hcapitalized)

/-- So does camel case, with the first word in lower case. -/
theorem isCaseStyle_camelCase : IsCaseStyle Text.camelCase where
  chars _ _ hc := isIdentifierChar_of_isAlphanumeric (Text.isAlphanumeric_of_mem_camelCase hc)
  ne_nil cs := by
    rintro ⟨c, hc, halnum⟩ hnil
    obtain ⟨w, hw, hcw⟩ := Text.exists_mem_words hc halnum
    unfold Text.camelCase at hnil
    split at hnil
    · next hws =>
      rw [hws] at hw
      cases hw
    · next first rest hws =>
      obtain ⟨hfirst, hrest⟩ := List.append_eq_nil_iff.mp hnil
      rw [hws] at hw
      rcases List.mem_cons.mp hw with rfl | hw
      · exact List.ne_nil_of_mem hcw (List.map_eq_nil_iff.mp hfirst)
      · have hcapitalized := List.flatMap_eq_nil_iff.mp hrest w hw
        exact List.ne_nil_of_mem hcw (Text.capitalized_eq_nil_iff.mp hcapitalized)

/-- Snake case puts underscores between them, which an identifier may have. -/
theorem isCaseStyle_snakeCase : IsCaseStyle Text.snakeCase where
  chars cs c hc := by
    rcases Text.mem_of_mem_intercalate hc with rfl | ⟨v, hv, hcv⟩
    · rfl
    · obtain ⟨w, hw, rfl⟩ := List.mem_map.mp hv
      obtain ⟨d, hd, rfl⟩ := List.mem_map.mp hcv
      exact isIdentifierChar_of_isAlphanumeric
        (Text.isAlphanumeric_toLower (Text.isAlphanumeric_of_mem_words hw hd))
  ne_nil cs := by
    rintro ⟨c, hc, halnum⟩
    obtain ⟨w, hw, hcw⟩ := Text.exists_mem_words hc halnum
    exact List.ne_nil_of_mem
      (Text.mem_intercalate (List.mem_map_of_mem hw) (List.mem_map_of_mem hcw))

variable {s : String}

/-- **A sanitized name in a case style is an identifier.** -/
theorem isIdentifier_recase {style : List Char → List Char} (hstyle : IsCaseStyle style)
    (h : IsSanitized s.toList) : IsIdentifier (recase style s) := by
  have hlist : (recase style s).toList = guardDigit (style s.toList) := String.toList_ofList
  refine (isBare_recase hstyle.chars s).isIdentifier ?_ ?_
  · rw [hlist, Ne, guardDigit_eq_nil_iff]
    exact hstyle.ne_nil _ h.named
  · rw [hlist]
    exact startsWithDigit_guardDigit _

/-- **An identifier stays one in upper case.** -/
theorem IsIdentifier.toUpper (h : IsIdentifier s) : IsIdentifier s.toUpper := by
  obtain ⟨first, rest, hs, hfirst, hrest⟩ := h
  have hlist : s.toUpper.toList = first.toUpper :: rest.map Char.toUpper := by
    rw [String.toUpper, String.toList_map, hs]
    rfl
  have halpha : ∀ c : Char, c.isAlpha = true → c.toUpper.isAlpha = true := fun c hc =>
    Text.forall_isAlphanumeric (p := fun c => c.isAlpha = true → c.toUpper.isAlpha = true)
      (by decide) (Bool.or_eq_true_iff.mpr (.inl hc)) hc
  refine ⟨_, _, hlist, hfirst.imp (halpha first) ?_, fun c hc => ?_⟩
  · rintro rfl
    rfl
  · obtain ⟨d, hd, rfl⟩ := List.mem_map.mp hc
    exact isIdentifierChar_toUpper (hrest d hd)

/-- An identifier goes on with characters of identifiers. -/
theorem IsIdentifier.append {t : String} (h : IsIdentifier s) (ht : IsBare t) :
    IsIdentifier (s ++ t) := by
  obtain ⟨first, rest, hs, hfirst, hrest⟩ := h
  refine ⟨first, rest ++ t.toList, by rw [String.toList_append, hs]; rfl, hfirst, fun c hc => ?_⟩
  exact (List.mem_append.mp hc).elim (hrest c) (ht c)

/-! ## Valid names

The functions that name variables, constants and classes sanitize, recase, guard against a
digit in front, and escape reserved words, each in its own order. A variable and a class
differ in the last step: a class name begins with a capital and is no reserved word anyway. -/

/-- **A name that a compiler accepts**: an identifier that is no reserved word, or a
reserved word between backticks. Other names between backticks would be accepted too, but
none is generated. -/
inductive IsValidName : String → Prop
  | plain {s : String} (h : IsIdentifier s) (hword : isReserved s = false) : IsValidName s
  | escaped {word : String} (h : isReserved word = true) : IsValidName (backticked word)

/-- **An identifier is valid once it is escaped**: with backticks if it is reserved, else as
it is. -/
theorem isValidName_escapeReserved (h : IsIdentifier s) : IsValidName (escapeReserved s) := by
  unfold escapeReserved
  split_ifs with hword
  · exact .escaped hword
  · exact .plain h (Bool.eq_false_iff.mpr hword)

/-- A bare name is not between backticks. -/
theorem IsBare.ne_backticked (h : IsBare s) (word : String) : s ≠ backticked word := by
  rintro rfl
  refine h.backtick_notMem ?_
  rw [backticked, String.toList_append, String.toList_append]
  exact List.mem_append_left _ (List.mem_append_left _ (by decide))

/-- **The name of a variable is valid**, for any text but the empty one. -/
theorem isValidName_variableName (hs : s ≠ "") : IsValidName (variableName s) :=
  isValidName_escapeReserved (isIdentifier_recase isCaseStyle_camelCase (isSanitized_sanitize hs))

/-- **The constant of a value is valid** in every case but the value's own. -/
theorem isValidName_constantName {mode : ConstantCase} {dataType : String} (hs : s ≠ "")
    (hmode : mode ≠ .asWritten) (htype : dataType ∉ numericTypes) :
    IsValidName (constantName mode s dataType) := by
  have hsanitized := isSanitized_sanitize hs
  unfold constantName
  rw [if_neg (mt List.contains_iff_mem.mp htype), if_neg (mt String.isEmpty_iff.mp hs)]
  refine isValidName_escapeReserved ?_
  cases mode with
  | asWritten => exact absurd rfl hmode
  | camel => exact isIdentifier_recase isCaseStyle_camelCase hsanitized
  | pascal => exact isIdentifier_recase isCaseStyle_pascalCase hsanitized
  | snake => exact isIdentifier_recase isCaseStyle_snakeCase hsanitized
  | upper => exact hsanitized.isIdentifier.toUpper

/-- **The name of an API class is valid**, and begins like the tag in Pascal case, so it is no
reserved word. -/
theorem isValidName_apiName (hs : s ≠ "") : IsValidName (apiName "" s) := by
  have hcased := isIdentifier_recase isCaseStyle_pascalCase (isSanitized_sanitize hs)
  have hApi : IsBare "Api" := by decide
  have hname : apiName "" s = recase Text.pascalCase (sanitize s) ++ "Api" := String.append_empty
  rw [hname]
  refine .plain (hcased.append hApi) (isReserved_eq_false (fun c hc => ?_))
  obtain ⟨first, rest, hlist, -, -⟩ := hcased
  rw [String.toList_append, hlist, List.cons_append, List.head?_cons] at hc
  exact isLower_of_head?_recase_pascalCase (by rw [hlist, List.head?_cons, hc])

/-- Replacing the points by nothing leaves the other characters. -/
theorem toList_replace_point (s : String) :
    (Text.replace s "." "").toList = s.toList.filter (· ≠ '.') := by
  rw [Text.replace, String.toList_ofList]
  induction s.toList with
  | nil => rfl
  | cons c cs ih =>
    rw [Text.replaceFrom]
    by_cases hc : c = '.'
    · subst hc
      exact ih
    · have hprefix : ¬ ".".toList.isPrefixOf (c :: cs) = true := by
        rw [List.isPrefixOf_iff_prefix]
        exact fun h => hc (List.cons_prefix_cons.mp h).1.symm
      have hpoint : decide (c ≠ '.') = true := decide_eq_true hc
      rw [if_neg hprefix, ih, List.filter_cons, if_pos hpoint]

/-- **The name of a model class is valid** unless the name of the schema passes through or
has nothing but points. -/
theorem isValidName_modelName (hpass : ¬ PassesThrough s) (hs : ∃ c ∈ s.toList, c ≠ '.') :
    IsValidName (modelName "" "" s) := by
  have hname : modelName "" "" s
      = recase Text.pascalCase (sanitize (Text.replace s "." "")) := by
    rw [modelName_of_not_passesThrough hpass, String.empty_append, String.append_empty]
  have hne : Text.replace s "." "" ≠ "" := by
    obtain ⟨c, hc, hpoint⟩ := hs
    rw [← String.toList_inj.ne, toList_replace_point]
    exact List.ne_nil_of_mem (List.mem_filter.mpr ⟨hc, decide_eq_true hpoint⟩)
  rw [hname]
  exact .plain (isIdentifier_recase isCaseStyle_pascalCase (isSanitized_sanitize hne))
    (isReserved_recase_pascalCase _)

/-- What passes through begins with a letter. -/
theorem head?_of_passesThrough (h : PassesThrough s) :
    s.toList.head? = some 'k' ∨ s.toList.head? = some 'j' := by
  refine h.imp (fun h => ?_) (fun h => ?_)
  · obtain ⟨rest, hrest⟩ := List.isPrefixOf_iff_prefix.mp h
    rw [← hrest]
    rfl
  · obtain ⟨rest, hrest⟩ := List.isPrefixOf_iff_prefix.mp h
    rw [← hrest]
    rfl

/-- The name of a model class is never between backticks. -/
theorem modelName_ne_backticked (s word : String) : modelName "" "" s ≠ backticked word := by
  by_cases hpass : PassesThrough s
  · rw [modelName_of_passesThrough hpass]
    rintro rfl
    have hhead : (backticked word).toList.head? = some '\x60' := by
      rw [backticked, String.toList_append, String.toList_append]
      rfl
    rcases head?_of_passesThrough hpass with h | h
    · cases hhead.symm.trans h
    · cases hhead.symm.trans h
  · have hempty : IsBare "" := nofun
    exact (isBare_modelName hempty hempty hpass).ne_backticked word

/-- **Every name of a document gets a valid name.** Whatever text it is, if not the empty one,
the variable, the API class and, in every case but its own, the constant that are named for it
have valid names; and so has the class of a model unless the name of the schema passes through
or has nothing but points. Classes never need backticks.

The exceptions are real. A constant in its own case is the text as it is, a name that passes
through is not looked at, and of points alone nothing is left to make a name of. -/
theorem isValidName_of_ne_empty {s : String} (hs : s ≠ "") :
    IsValidName (variableName s)
      ∧ (∀ mode dataType, mode ≠ .asWritten → dataType ∉ numericTypes →
          IsValidName (constantName mode s dataType))
      ∧ IsValidName (apiName "" s)
      ∧ (¬ PassesThrough s → (∃ c ∈ s.toList, c ≠ '.') → IsValidName (modelName "" "" s))
      ∧ ∀ word, apiName "" s ≠ backticked word ∧ modelName "" "" s ≠ backticked word := by
  have hempty : IsBare "" := nofun
  exact ⟨isValidName_variableName hs,
    fun mode dataType hmode htype => isValidName_constantName hs hmode htype,
    isValidName_apiName hs,
    isValidName_modelName,
    fun word => ⟨(isBare_apiName hempty s).ne_backticked word, modelName_ne_backticked s word⟩⟩

/-- A text that is a reserved word: the variable gets backticks, and the other three are no
reserved words. -/
theorem isValidName_of_object :
    "object" ≠ "" ∧ variableName "object" = backticked "object"
      ∧ IsValidName (variableName "object")
      ∧ IsValidName (constantName .upper "object" "kotlin.String")
      ∧ IsValidName (apiName "" "object")
      ∧ IsValidName (modelName "" "" "object") := by
  have hne : "object" ≠ "" := by decide
  have hpass : ¬ PassesThrough "object" := by decide
  have hpoint : ∃ c ∈ "object".toList, c ≠ '.' := ⟨'o', by decide, by decide⟩
  obtain ⟨hvariable, hconstant, hapi, hmodel, -⟩ := isValidName_of_ne_empty hne
  exact ⟨hne, by decide +kernel, hvariable,
    hconstant .upper "kotlin.String" (by decide) (by decide), hapi, hmodel hpass hpoint⟩

end Naming

end ClientGen
