import ClientGen.Naming.Style
import Mathlib.Data.List.Basic

/-!
# Which characters the names of classes and variables have

A class or a variable is named for a text of the document, which may have any characters. The
words of a text have letters and digits only (`Text.isAlphanumeric_of_mem_words`), and what is
made of them – a case style, the underscore before a digit, the backticks around a reserved word –
brings in nothing else than an underscore and a backtick. So the name of an API class is plain
whatever its tag (`Naming.isPlain_apiName`), that of a variable is (`Naming.isPlain_variableName`),
and the name of a model class is too (`Naming.isPlain_modelName`), except where the name of the
schema passes through as it is.
-/

namespace ClientGen

namespace Text

/-! ## Words

Everything about characters comes down to words: a case style splits a text into words and
writes them again, each letter in upper or in lower case. As letters and digits are among
the first 128 characters, what is claimed of all of them can be checked one by one. -/

/-- Letters and digits are among the first 128 characters. -/
theorem toNat_lt_of_isAlphanumeric {c : Char} (h : isAlphanumeric c = true) : c.toNat < 128 := by
  have hbelow : ∀ high : Char, high.toNat < 128 → c.val ≤ high.val → c.toNat < 128 :=
    fun _ hhigh h => Nat.lt_of_le_of_lt (UInt32.le_iff_toNat_le.mp h) hhigh
  rcases Bool.or_eq_true_iff.mp h with h | h
  · rcases Bool.or_eq_true_iff.mp h with h | h
    · exact hbelow 'Z' (by decide) (of_decide_eq_true h).2
    · exact hbelow 'z' (by decide) (of_decide_eq_true (Bool.and_eq_true_iff.mp h).2)
  · exact hbelow '9' (by decide) (of_decide_eq_true (Bool.and_eq_true_iff.mp h).2)

/-- What holds of them can be checked there. -/
theorem forall_isAlphanumeric {p : Char → Prop}
    (h : ∀ n < 128, isAlphanumeric (Char.ofNat n) = true → p (Char.ofNat n)) {c : Char}
    (hc : isAlphanumeric c = true) : p c := by
  rw [← Char.ofNat_toNat c] at hc ⊢
  exact h c.toNat (toNat_lt_of_isAlphanumeric (Char.ofNat_toNat c ▸ hc)) hc

/-- In upper case a letter or digit is one still. -/
theorem isAlphanumeric_toUpper {c : Char} (h : isAlphanumeric c = true) :
    isAlphanumeric c.toUpper = true :=
  forall_isAlphanumeric (p := fun c => isAlphanumeric c.toUpper = true) (by decide) h

/-- And in lower case. -/
theorem isAlphanumeric_toLower {c : Char} (h : isAlphanumeric c = true) :
    isAlphanumeric c.toLower = true :=
  forall_isAlphanumeric (p := fun c => isAlphanumeric c.toLower = true) (by decide) h

/-- Only letters in lower case are put in upper case. It is what makes raising a first
letter idle where it is raised already. -/
theorem toUpper_eq_self {c : Char} (h : c.isLower = false) : c.toUpper = c := by
  unfold Char.toUpper
  rw [dif_neg]
  intro hc
  have hlower : c.isLower = true :=
    Bool.and_eq_true_iff.mpr ⟨decide_eq_true hc.1, decide_eq_true hc.2⟩
  rw [h] at hlower
  cases hlower

/-- A run of letters and digits has nothing else. By induction on the text, where `run` is
the run being read. -/
theorem isAlphanumeric_of_mem_alphanumericRuns {run cs w : List Char} {c : Char}
    (hrun : ∀ c ∈ run, isAlphanumeric c = true) (hw : w ∈ alphanumericRuns run cs) (hc : c ∈ w) :
    isAlphanumeric c = true := by
  induction cs generalizing run with
  | nil =>
    unfold alphanumericRuns at hw
    split_ifs at hw
    · cases hw
    · rw [List.mem_singleton.mp hw, List.mem_reverse] at hc
      exact hrun c hc
  | cons d cs ih =>
    unfold alphanumericRuns at hw
    split_ifs at hw with hd hempty
    · refine ih (fun c hc => ?_) hw
      rcases List.mem_cons.mp hc with rfl | hc
      · exact hd
      · exact hrun c hc
    · exact ih (fun c hc => absurd hc List.not_mem_nil) hw
    · rcases List.mem_cons.mp hw with rfl | hw
      · exact hrun c (List.mem_reverse.mp hc)
      · exact ih (fun c hc => absurd hc List.not_mem_nil) hw

/-- A hump has characters of the text only. By induction on the text, where `word` is the
hump that is being read. -/
theorem mem_of_mem_humps {run : LetterRun} {word cs w : List Char} {c : Char}
    (hw : w ∈ humps run word cs) (hc : c ∈ w) : c ∈ word ∨ c ∈ cs := by
  induction run, word, cs using humps.induct with
  | case1 => cases hw
  | case2 run word hword =>
    rw [humps.eq_2 _ _ hword] at hw
    rw [List.mem_singleton.mp hw, List.mem_reverse] at hc
    exact .inl hc
  | case3 run word d =>
    rw [humps] at hw
    rw [List.mem_singleton.mp hw, List.mem_reverse] at hc
    exact (List.mem_cons.mp hc).symm.imp_right List.mem_singleton.mpr
  | case4 run word d next ds hend ih =>
    rw [humps, if_pos hend] at hw
    rcases List.mem_cons.mp hw with rfl | hw
    · rcases List.mem_cons.mp (List.mem_reverse.mp hc) with rfl | hc
      · exact .inr List.mem_cons_self
      · exact .inl hc
    · exact .inr (List.mem_cons_of_mem d ((ih hw).resolve_left List.not_mem_nil))
  | case5 run word d next ds hend hstart ih =>
    rw [humps, if_neg hend, if_pos hstart] at hw
    rcases List.mem_cons.mp hw with rfl | hw
    · exact .inl (List.mem_reverse.mp hc)
    · rcases ih hw with hd | hds
      · exact .inr (List.mem_singleton.mp hd ▸ List.mem_cons_self)
      · exact .inr (List.mem_cons_of_mem d hds)
  | case6 run word d next ds hend hstart ih =>
    rw [humps, if_neg hend, if_neg hstart] at hw
    rcases ih hw with hd | hds
    · rcases List.mem_cons.mp hd with rfl | hword
      · exact .inr List.mem_cons_self
      · exact .inl hword
    · exact .inr (List.mem_cons_of_mem d hds)

/-- **Words have letters and digits only.** -/
theorem isAlphanumeric_of_mem_words {cs w : List Char} {c : Char} (hw : w ∈ words cs)
    (hc : c ∈ w) : isAlphanumeric c = true := by
  obtain ⟨run, hrun, hw⟩ := List.mem_flatMap.mp hw
  exact isAlphanumeric_of_mem_alphanumericRuns (fun _ h => absurd h List.not_mem_nil) hrun
    ((mem_of_mem_humps hw hc).resolve_left List.not_mem_nil)

/-- So has a word with its first letter in upper case. -/
theorem isAlphanumeric_of_mem_capitalized {w : List Char} {c : Char}
    (hw : ∀ c ∈ w, isAlphanumeric c = true) (hc : c ∈ capitalized w) : isAlphanumeric c = true := by
  cases w with
  | nil => cases hc
  | cons d ds =>
    rcases List.mem_cons.mp hc with rfl | hc
    · exact isAlphanumeric_toUpper (hw d List.mem_cons_self)
    · obtain ⟨e, he, rfl⟩ := List.mem_map.mp hc
      exact isAlphanumeric_toLower (hw e (List.mem_cons_of_mem d he))

/-- So have words that are written back in Pascal case. -/
theorem isAlphanumeric_of_mem_pascalCase {cs : List Char} {c : Char} (hc : c ∈ pascalCase cs) :
    isAlphanumeric c = true := by
  obtain ⟨w, hw, hc⟩ := List.mem_flatMap.mp hc
  exact isAlphanumeric_of_mem_capitalized (fun _ => isAlphanumeric_of_mem_words hw) hc

/-- In Pascal case no letter in lower case comes first. -/
theorem isLower_of_head?_pascalCase {cs : List Char} {c : Char}
    (h : (pascalCase cs).head? = some c) : c.isLower = false := by
  rw [pascalCase, List.head?_flatMap] at h
  obtain ⟨w, hw, hhead⟩ := List.exists_of_findSome?_eq_some h
  cases w with
  | nil => cases hhead
  | cons d ds =>
    obtain rfl : d.toUpper = c := Option.some.inj hhead
    exact forall_isAlphanumeric (p := fun d => d.toUpper.isLower = false) (by decide)
      (isAlphanumeric_of_mem_words hw List.mem_cons_self)

/-- Words in camel case have letters and digits only, too. -/
theorem isAlphanumeric_of_mem_camelCase {cs : List Char} {c : Char} (hc : c ∈ camelCase cs) :
    isAlphanumeric c = true := by
  have hwords : ∀ w ∈ words cs, ∀ c ∈ w, isAlphanumeric c = true :=
    fun _ hw _ => isAlphanumeric_of_mem_words hw
  unfold camelCase at hc
  cases hws : words cs with
  | nil =>
    rw [hws] at hc
    cases hc
  | cons w ws =>
    rw [hws] at hc hwords
    rcases List.mem_append.mp hc with hc | hc
    · obtain ⟨d, hd, rfl⟩ := List.mem_map.mp hc
      exact isAlphanumeric_toLower (hwords w List.mem_cons_self d hd)
    · obtain ⟨w', hw', hc⟩ := List.mem_flatMap.mp hc
      exact isAlphanumeric_of_mem_capitalized (hwords w' (List.mem_cons_of_mem w hw')) hc

end Text

namespace Naming

/-! ## Plain names

Names are put together from parts, and so the two properties are closed under what the
naming does: to append, to recase, to guard against a digit, to escape. -/

/-- **A plain name** has the characters of identifiers, and backticks. -/
def IsPlain (s : String) : Prop := ∀ c ∈ s.toList, isIdentifierChar c = true ∨ c = '\x60'

instance (s : String) : Decidable (IsPlain s) := List.decidableBAll _ s.toList

/-- In particular it has no slash. -/
theorem IsPlain.slash_notMem {s : String} (h : IsPlain s) : '/' ∉ s.toList :=
  fun hmem => absurd (h '/' hmem) (by decide)

/-- Plain names one after the other are plain. -/
theorem IsPlain.append {a b : String} (ha : IsPlain a) (hb : IsPlain b) : IsPlain (a ++ b) := by
  intro c hc
  rw [String.toList_append] at hc
  exact (List.mem_append.mp hc).elim (ha c) (hb c)

/-- **A bare name** has the characters of identifiers only. -/
def IsBare (s : String) : Prop := ∀ c ∈ s.toList, isIdentifierChar c = true

instance (s : String) : Decidable (IsBare s) := List.decidableBAll _ s.toList

/-- A bare name is plain. -/
theorem IsBare.isPlain {s : String} (h : IsBare s) : IsPlain s := fun c hc => .inl (h c hc)

/-- It has no backtick in particular. -/
theorem IsBare.backtick_notMem {s : String} (h : IsBare s) : '\x60' ∉ s.toList :=
  fun hmem => absurd (h '\x60' hmem) (by decide)

/-- Bare names one after the other are bare. -/
theorem IsBare.append {a b : String} (ha : IsBare a) (hb : IsBare b) : IsBare (a ++ b) := by
  intro c hc
  rw [String.toList_append] at hc
  exact (List.mem_append.mp hc).elim (ha c) (hb c)

/-- Identifiers have letters and digits, and the underscore. -/
theorem isIdentifierChar_of_isAlphanumeric {c : Char} (h : Text.isAlphanumeric c = true) :
    isIdentifierChar c = true := by
  rw [isIdentifierChar, h, Bool.true_or]

/-- The underscore before a digit is a character of identifiers. -/
theorem isIdentifierChar_of_mem_guardDigit {cs : List Char}
    (h : ∀ c ∈ cs, isIdentifierChar c = true) {c : Char} (hc : c ∈ guardDigit cs) :
    isIdentifierChar c = true := by
  unfold guardDigit at hc
  split_ifs at hc
  · rcases List.mem_cons.mp hc with rfl | hc
    · rfl
    · exact h c hc
  · exact h c hc

/-- A case style that writes characters of identifiers makes a bare text of any. -/
theorem isBare_recase {style : List Char → List Char}
    (hstyle : ∀ cs, ∀ c ∈ style cs, isIdentifierChar c = true) (name : String) :
    IsBare (recase style name) := by
  intro c hc
  rw [recase, String.toList_ofList] at hc
  exact isIdentifierChar_of_mem_guardDigit (hstyle name.toList) hc

/-- A text in Pascal case is bare, whatever it is made from. -/
theorem isBare_recase_pascalCase (name : String) : IsBare (recase Text.pascalCase name) :=
  isBare_recase (fun _ _ hc =>
    isIdentifierChar_of_isAlphanumeric (Text.isAlphanumeric_of_mem_pascalCase hc)) name

/-- So is one in camel case. -/
theorem isBare_recase_camelCase (name : String) : IsBare (recase Text.camelCase name) :=
  isBare_recase (fun _ _ hc =>
    isIdentifierChar_of_isAlphanumeric (Text.isAlphanumeric_of_mem_camelCase hc)) name

/-- Escaping brings in backticks. -/
theorem IsPlain.escapeReserved {s : String} (h : IsPlain s) : IsPlain (escapeReserved s) := by
  have hbacktick : IsPlain "\x60" := by decide
  unfold Naming.escapeReserved backticked
  split_ifs
  · exact (hbacktick.append h).append hbacktick
  · exact h

/-- In upper case a character of identifiers is one still. -/
theorem isIdentifierChar_toUpper {c : Char} (h : isIdentifierChar c = true) :
    isIdentifierChar c.toUpper = true := by
  rcases Bool.or_eq_true_iff.mp h with h | h
  · rw [isIdentifierChar, Text.isAlphanumeric_toUpper h, Bool.true_or]
  · rw [of_decide_eq_true h]
    decide

/-- Where no letter in lower case comes first, there is nothing to put in upper case. -/
theorem titled_eq_self {s : String} (h : ∀ c, s.toList.head? = some c → c.isLower = false) :
    titled s = s := by
  unfold titled
  split
  · next hs => exact (String.toList_eq_nil_iff.mp hs).symm
  · next c cs hs =>
    have hc := h c (by rw [hs]; rfl)
    rw [Text.toUpper_eq_self hc, ← hs, String.ofList_toList]

/-- Reserved words begin with a letter in lower case. -/
theorem isReserved_eq_false {s : String}
    (h : ∀ c, s.toList.head? = some c → c.isLower = false) : isReserved s = false := by
  have hlower : ∀ word ∈ reservedWords, word.toList.head?.map Char.isLower = some true := by
    decide
  refine Bool.eq_false_iff.mpr (fun hreserved => ?_)
  obtain ⟨c, hhead, hc⟩ :=
    Option.map_eq_some_iff.mp (hlower _ (List.contains_iff_mem.mp hreserved))
  rw [h c hhead] at hc
  cases hc

/-- A text in Pascal case does not. -/
theorem isLower_of_head?_recase_pascalCase {name : String} {c : Char}
    (h : (recase Text.pascalCase name).toList.head? = some c) : c.isLower = false := by
  rw [recase, String.toList_ofList, guardDigit] at h
  split_ifs at h
  · exact Option.some.inj h ▸ rfl
  · exact Text.isLower_of_head?_pascalCase h

/-- **A text in Pascal case is no reserved word**: none of these begins with a letter in upper
case. -/
theorem isReserved_recase_pascalCase (name : String) :
    isReserved (recase Text.pascalCase name) = false :=
  isReserved_eq_false (fun _ => isLower_of_head?_recase_pascalCase)

/-! ## The names of classes and variables

Each of the naming functions is one of these compositions. A model class is the exception: a
name that begins like that of a library type is not touched at all, whatever comes after. -/

/-- **The name of an API class is plain**, whatever the tag. -/
theorem isPlain_apiName {after : String} (hafter : IsPlain after) (tag : String) :
    IsPlain (apiName after tag) := by
  have hApi : IsPlain "Api" := by decide
  exact ((isBare_recase_pascalCase _).isPlain.append hApi).append hafter

/-- It is bare if nothing else is put behind it. -/
theorem isBare_apiName {after : String} (hafter : IsBare after) (tag : String) :
    IsBare (apiName after tag) := by
  have hApi : IsBare "Api" := by decide
  exact ((isBare_recase_pascalCase _).append hApi).append hafter

/-- **The name of a variable is plain**, whatever its name on the wire. -/
theorem isPlain_variableName (name : String) : IsPlain (variableName name) :=
  (isBare_recase_camelCase _).isPlain.escapeReserved

/-- **A name passes through** if it begins like that of a type of the libraries. -/
def PassesThrough (name : String) : Prop :=
  Text.startsWith name "kotlin." = true ∨ Text.startsWith name "java." = true

instance (name : String) : Decidable (PassesThrough name) := inferInstanceAs (Decidable (_ ∨ _))

/-- A name that passes through is that of its class as it is. -/
theorem modelName_of_passesThrough {name : String} (h : PassesThrough name)
    (before after : String) : modelName before after name = name := by
  unfold modelName
  rw [if_pos (Bool.or_eq_true_iff.mpr h)]

/-- **The name of a model class is a text in Pascal case** unless the name of the schema passes
through: it is no reserved word, and its first letter is in upper case already. -/
theorem modelName_of_not_passesThrough {name : String} (h : ¬ PassesThrough name)
    (before after : String) : modelName before after name
      = before ++ recase Text.pascalCase (sanitize (Text.replace name "." "")) ++ after := by
  unfold modelName
  rw [if_neg (fun hor => h (Bool.or_eq_true_iff.mp hor))]
  dsimp only
  rw [escapeReserved, isReserved_recase_pascalCase, if_neg Bool.false_ne_true,
    titled_eq_self (fun _ => isLower_of_head?_recase_pascalCase)]

/-- So it is plain. -/
theorem isPlain_modelName {before after name : String} (hbefore : IsPlain before)
    (hafter : IsPlain after) (h : ¬ PassesThrough name) :
    IsPlain (modelName before after name) := by
  rw [modelName_of_not_passesThrough h]
  exact (hbefore.append (isBare_recase_pascalCase _).isPlain).append hafter

/-- It is bare if what is put around it is. -/
theorem isBare_modelName {before after name : String} (hbefore : IsBare before)
    (hafter : IsBare after) (h : ¬ PassesThrough name) :
    IsBare (modelName before after name) := by
  rw [modelName_of_not_passesThrough h]
  exact (hbefore.append (isBare_recase_pascalCase _)).append hafter

end Naming

end ClientGen
