import ClientGen.Proofs.Conversion
import ClientGen.Reference

/-!
# Where references lead

A reference to a schema is followed to the first inline definition on its chain
(`Components.schemaAt`). Whatever it leads to is an entry of the table of schemas.
The canonical reference to a name, `Reference.toSchema`, is read back as that name,
whatever characters the name has; a name without a slash is also the short name
that generated code calls the target by.
-/

namespace ClientGen

namespace Text

/-- A text begins with what it was put together from. -/
theorem startsWith_append (front rest : String) : startsWith (front ++ rest) front = true := by
  unfold startsWith
  rw [String.toList_append, List.isPrefixOf_iff_prefix]
  exact List.prefix_append _ _

/-- What stands behind the front is the rest. -/
theorem afterFront?_append (front rest : String) :
    afterFront? (front ++ rest) front = some rest := by
  unfold afterFront?
  rw [if_pos (startsWith_append front rest), String.toList_append, ← String.length_toList,
    List.drop_left, String.ofList_toList]

/-- A text without the separator is split off whole. -/
theorem splitFirst?_append {sep : Char} {before : List Char} (after : List Char)
    (h : sep ∉ before) : splitFirst? sep (before ++ sep :: after) = some (before, after) := by
  induction before with
  | nil => simp [splitFirst?]
  | cons c cs ih =>
    rw [List.mem_cons, not_or] at h
    rw [List.cons_append, splitFirst?, if_neg (Ne.symm h.1), ih h.2]
    rfl

/-- What a text is split into makes the text again. -/
theorem eq_of_splitFirst? {sep : Char} {cs before after : List Char}
    (h : splitFirst? sep cs = some (before, after)) : cs = before ++ sep :: after := by
  induction cs generalizing before with
  | nil => cases h
  | cons c cs ih =>
    rw [splitFirst?] at h
    split_ifs at h with hc
    · cases h
      rw [hc]
      rfl
    · obtain ⟨⟨b, a⟩, hba, heq⟩ := Option.map_eq_some_iff.mp h
      cases heq
      rw [ih hba]
      rfl

/-- A text that cannot be split has no separator. -/
theorem splitFirst?_eq_none {sep : Char} {cs : List Char} (h : splitFirst? sep cs = none) :
    sep ∉ cs := by
  induction cs with
  | nil => exact List.not_mem_nil
  | cons c cs ih =>
    rw [splitFirst?] at h
    split_ifs at h with hc
    rw [Option.map_eq_none_iff] at h
    exact List.not_mem_cons_of_ne_of_not_mem (Ne.symm hc) (ih h)

/-- What comes before the first separator has none. -/
theorem notMem_of_splitFirst? {sep : Char} {cs before after : List Char}
    (h : splitFirst? sep cs = some (before, after)) : sep ∉ before := by
  induction cs generalizing before with
  | nil => cases h
  | cons c cs ih =>
    rw [splitFirst?] at h
    split_ifs at h with hc
    · cases h
      exact List.not_mem_nil
    · obtain ⟨⟨b, a⟩, hba, heq⟩ := Option.map_eq_some_iff.mp h
      cases heq
      exact List.not_mem_cons_of_ne_of_not_mem (Ne.symm hc) (ih hba)

/-- A text with a front is the front and what stands behind it. -/
theorem eq_of_afterFront? {s front rest : String} (h : afterFront? s front = some rest) :
    s = front ++ rest := by
  unfold afterFront? at h
  split_ifs at h with hs
  obtain ⟨cs, hcs⟩ := List.isPrefixOf_iff_prefix.mp hs
  rw [← hcs, ← String.length_toList, List.drop_left] at h
  cases h
  rw [← String.toList_inj, String.toList_append, String.toList_ofList, hcs]

/-- Behind the last separator stands what has none. -/
theorem afterLast_append {sep : Char} (before : List Char) {after : List Char}
    (h : sep ∉ after) : afterLast sep (before ++ sep :: after) = after := by
  unfold afterLast
  rw [List.reverse_append, List.reverse_cons, List.append_assoc,
    List.takeWhile_append_of_pos]
  · simp
  · intro c hc
    exact decide_eq_true (fun hcs => h (hcs ▸ List.mem_reverse.mp hc))

end Text

namespace Reference

/-- The reference to a name in a section, of whatever name. -/
def toSection (area name : String) : String := front ++ (area ++ "/" ++ name)

/-- A reference to a name in a section is read in the section that it names. In any other it
is an error that says which of the two was expected. -/
theorem nameIn_toSection (area : Section) {actual : String} (h : '/' ∉ actual.toList)
    (name : String) : nameIn area (toSection actual name)
      = if actual = area.name then .ok name
        else .error (.wrongSection area.name actual (toSection actual name)) := by
  have hsplit : Text.splitFirst? '/' (actual ++ "/" ++ name).toList
      = some (actual.toList, name.toList) := by
    rw [String.toList_append, String.toList_append, List.append_assoc]
    exact Text.splitFirst?_append name.toList h
  unfold nameIn toSection
  rw [Text.afterFront?_append]
  simp only [hsplit, String.ofList_toList]

/-- **How a text is read as a reference**: it is one to a name in a section, or none at all.
The name may have slashes; the section is what comes before the first one. There are two
ways to be none: not to begin like a reference, and to have no slash behind that. -/
theorem toSection_or_malformed (area : Section) (path : String) :
    (∃ actual name, '/' ∉ actual.toList ∧ path = toSection actual name)
      ∨ (∀ actual name, path ≠ toSection actual name)
        ∧ nameIn area path = .error (.malformed path) := by
  cases hrest : Text.afterFront? path front with
  | none =>
    refine .inr ⟨?_, by rw [nameIn, hrest]⟩
    rintro actual name rfl
    rw [toSection, Text.afterFront?_append] at hrest
    cases hrest
  | some rest =>
    cases hsplit : Text.splitFirst? '/' rest.toList with
    | none =>
      refine .inr ⟨?_, by rw [nameIn, hrest]; simp only [hsplit]⟩
      rintro actual name rfl
      rw [toSection, Text.afterFront?_append] at hrest
      cases hrest
      refine Text.splitFirst?_eq_none hsplit ?_
      simp
    | some parts =>
      obtain ⟨before, after⟩ := parts
      refine .inl ⟨String.ofList before, String.ofList after, ?_, ?_⟩
      · rw [String.toList_ofList]
        exact Text.notMem_of_splitFirst? hsplit
      · rw [Text.eq_of_afterFront? hrest, toSection]
        congr 1
        rw [← String.toList_inj, Text.eq_of_splitFirst? hsplit]
        simp

/-! ## References to schemas

The canonical reference is the only text that is read as its name. So comparing references
and comparing names come to the same, as long as both are references to schemas. -/

/-- The reference to the schema of a name. -/
def toSchema (name : String) : String := front ++ (Section.schemas.name ++ "/" ++ name)

/-- **The reference to a name is read back as the name**, slashes included. -/
theorem nameIn_toSchema (name : String) : nameIn .schemas (toSchema name) = .ok name :=
  (nameIn_toSection .schemas (by decide) name).trans (if_pos rfl)

/-- **Only the reference to a name is read as the name.** -/
theorem eq_toSchema_of_nameIn {path name : String} (h : nameIn .schemas path = .ok name) :
    path = toSchema name := by
  obtain ⟨area, name', hslash, rfl⟩ | ⟨-, hmalformed⟩ := toSection_or_malformed .schemas path
  · rw [nameIn_toSection .schemas hslash] at h
    split_ifs at h with harea
    cases h
    rw [harea]
    rfl
  · rw [hmalformed] at h
    cases h

/-- Different names have different references. -/
theorem toSchema_injective : Function.Injective toSchema := by
  intro name name' h
  have hname := nameIn_toSchema name
  rw [h, nameIn_toSchema] at hname
  cases hname
  rfl

/-- A reference to something else than a schema is none to a schema. -/
theorem toSection_ne_toSchema {area : String} (hslash : '/' ∉ area.toList)
    (h : area ≠ Section.schemas.name) (name name' : String) :
    toSection area name ≠ toSchema name' := by
  intro heq
  have hname := nameIn_toSection .schemas hslash name
  rw [heq, nameIn_toSchema, if_neg h] at hname
  cases hname

/-- **Without a slash the name is what the reference is called by.** -/
theorem shortName_toSchema {name : String} (h : '/' ∉ name.toList) :
    shortName (toSchema name) = name := by
  unfold shortName toSchema
  rw [String.toList_append, String.toList_append, String.toList_append, ← List.append_assoc,
    ← List.append_assoc]
  show String.ofList (Text.afterLast '/' ((front.toList ++ "schemas".toList) ++ ['/'] ++ _)) = _
  rw [List.append_assoc (front.toList ++ "schemas".toList)]
  show String.ofList (Text.afterLast '/' (_ ++ '/' :: name.toList)) = _
  rw [Text.afterLast_append _ h, String.ofList_toList]

end Reference

namespace Components

variable {c : Components}

/-- A chain that ends does so at an inline entry: references are followed until one stands
there. -/
theorem mem_entries_of_chase {origin current : String} {steps : Nat} {visited : List String}
    {t : Schema} (h : c.chase origin steps visited current = .ok t) :
    ∃ name, (name, .inline t) ∈ c.schemas.entries := by
  induction steps generalizing visited current with
  | zero => cases h
  | succ steps ih =>
    rw [chase] at h
    split_ifs at h
    obtain ⟨name, -, h⟩ := except_bind_eq_ok.mp h
    split at h
    · next s hs =>
      cases h
      exact ⟨name, OrderedMap.find?_eq_some_iff.mp hs⟩
    · -- Another reference: the chain goes on with one step less.
      exact ih h
    · cases h

/-- **A reference leads to an inline entry of the table.** -/
theorem mem_entries_of_schemaAt {path : String} {t : Schema} (h : c.schemaAt path = .ok t) :
    ∃ name, (name, .inline t) ∈ c.schemas.entries :=
  mem_entries_of_chase h

/-- The reference to the name of an inline entry leads to that entry at once. -/
theorem schemaAt_toSchema {name : String} {s : Schema}
    (h : (name, .inline s) ∈ c.schemas.entries) :
    c.schemaAt (Reference.toSchema name) = .ok s := by
  have hfind := OrderedMap.find?_eq_some_iff.mpr h
  unfold schemaAt
  rw [chase, if_neg (by simp), Reference.nameIn_toSchema]
  simp only [bind, Except.bind, hfind]

end Components

end ClientGen
