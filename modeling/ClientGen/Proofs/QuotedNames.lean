import ClientGen.Kotlin.ApiFile
import ClientGen.Proofs.FilePieces
import ClientGen.Proofs.Literals

/-!
# Wire names that are written as they are

The annotation of an argument has the argument's wire name between quotes, and an
enumeration writes each value there twice, in an annotation and as the value of its
constant. All three write the name as it is, so a dollar sign in front of a name or a brace
begins a template. A name without quotes and backslashes denotes itself in these places
exactly if it is inert: if it stays on its line and no template begins in it
(`Kotlin.quotedNames_denote_iff`). Names such as `$filter` are not inert
(`Kotlin.quotedNames_not_denote`), although the annotations of properties, which do escape
the dollar sign, have no trouble with them.

Quotes and backslashes are left out here, since they are no matter of templates: they are
not escaped anywhere. What a reader makes of a literal is read off the text behind its first
quote, and so the lemmas say for each of the three places what that text is.
-/

namespace ClientGen.Kotlin

open Client (Argument Constant Model)
open Literal (Letters HasTemplate isLineBreak read unitsOf behindQuote)

/-- **A text is inert** between quotes if it stays on its line and no template begins in it. -/
def Literal.IsInert (letters : Letters) (text : String) : Prop :=
  (∀ c ∈ text.toList, isLineBreak c = false) ∧ ¬ HasTemplate letters text.toList

instance (letters : Letters) (text : String) : Decidable (Literal.IsInert letters text) :=
  have : Decidable (∀ c ∈ text.toList, isLineBreak c = false) := List.decidableBAll _ text.toList
  inferInstanceAs (Decidable (_ ∧ _))

open Literal (IsInert)

namespace ApiFile

/-- **The wire name of an argument is quoted** in its annotation. That of a cookie is a comment
there, and a body has none. -/
def IsQuoted (q : Argument) : Prop := q.kind ∈ [.path, .query, .header, .form]

instance (q : Argument) : Decidable (IsQuoted q) := inferInstanceAs (Decidable (_ ∈ _))

/-- Behind the first quote of an annotation come the name and the end of the annotation,
since there is no quote in the mark in front. -/
theorem behindQuote_annotated {mark : String} (hmark : '"' ∉ mark.toList) (text : String) :
    behindQuote (annotated mark text) = text.toList ++ ['"', ')'] := by
  have hfront : '"' ∉ (mark ++ "(").toList := by
    rw [String.toList_append, List.mem_append]
    exact not_or.mpr ⟨hmark, by decide⟩
  have hcode : annotated mark text = mark ++ "(" ++ "\"" ++ (text ++ "\")") := by
    have hopening : ("(\"" : String) = "(" ++ "\"" := by decide
    rw [annotated, hopening]
    simp only [String.append_assoc]
  rw [hcode, Literal.behindQuote_append hfront, String.toList_append]
  rfl

/-- The first literal of such an annotation has the wire name between its quotes. -/
theorem behindQuote_argumentAnnotation_eq (multipart : Bool) {q : Argument} (hquoted : IsQuoted q) :
    (behindQuote <| argumentAnnotation multipart q) = q.wireName.toList ++ ['"', ')'] := by
  unfold IsQuoted at hquoted
  unfold argumentAnnotation
  split
  · exact behindQuote_annotated (by decide) _
  · exact behindQuote_annotated (by decide) _
  · exact behindQuote_annotated (by decide) _
  · next hkind => exact absurd (hkind ▸ hquoted) (by decide)
  · next hkind => exact absurd (hkind ▸ hquoted) (by decide)
  · refine behindQuote_annotated ?_ _
    split_ifs <;> decide

end ApiFile

namespace ModelFile

/-- The constant of a text has its value between quotes. -/
theorem behindQuote_constantValue {c : Constant} (h : c.isText = true) :
    behindQuote (constantValue c) = c.wireValue.toList ++ ['"'] := by
  have hcode : constantValue c = "" ++ "\"" ++ (c.wireValue ++ "\"") := by
    rw [constantValue, if_pos h, String.empty_append, String.append_assoc]
  rw [hcode, Literal.behindQuote_append List.not_mem_nil, String.toList_append]
  rfl

/-- Each constant of an enumeration has its lines in the file of the model, one after the
other and with the separator that its place asks for behind them. -/
theorem exists_constantLines (p : Profile) {m : Model} (henum : m.isEnum = true) {c : Constant}
    (hc : c ∈ m.constants) : ∃ behind, constantLines p c behind <:+: lines p m := by
  have hmem : c ∈ (withSeparators "," ";" m.constants).map Prod.fst := by
    rw [map_fst_withSeparators]
    exact hc
  obtain ⟨e, he, rfl⟩ := List.mem_map.mp hmem
  obtain ⟨front, back, hsplit⟩ := List.append_of_mem he
  have hconstants :
      constantLines p e.1 e.2 <:+: separated (constantLines p) "," ";" m.constants := by
    rw [separated_eq_flatMap, hsplit, List.flatMap_append, List.flatMap_cons, ← List.append_assoc]
    exact List.infix_append _ _ _
  have hlines : separated (constantLines p) "," ";" m.constants <:+: lines p m := by
    unfold lines declaration enumeration
    rw [if_pos henum]
    exact (List.infix_append _ _ _).trans (List.suffix_append _ _).isInfix
  exact ⟨e.2, hconstants.trans hlines⟩

end ModelFile

/-- **A wire name without quotes and backslashes denotes itself exactly if it is inert**: in
the annotation of an argument that is quoted, in the annotation of a constant of an
enumeration, and as the value of a constant that is a text. Both lines of the constant are
in the file of the model.

A reader does the same with all three texts (`Literal.read_text_iff`), since what they have behind
the closing quote is left to it as the rest. -/
theorem quotedNames_denote_iff (letters : Letters) :
    (∀ multipart q, ApiFile.IsQuoted q → '"' ∉ q.wireName.toList → '\\' ∉ q.wireName.toList →
        (read letters 0 (behindQuote <| ApiFile.argumentAnnotation multipart q)
            = .complete (unitsOf q.wireName.toList) [')']
          ↔ IsInert letters q.wireName))
      ∧ ∀ p m, m.isEnum = true → ∀ c ∈ m.constants, c.isText = true →
          '"' ∉ c.wireValue.toList → '\\' ∉ c.wireValue.toList →
        (∃ behind, ["    " ++ ModelFile.nameAnnotation p c.wireValue,
            "    " ++ c.name ++ "(" ++ ModelFile.constantValue c ++ ")" ++ behind]
              <:+: ModelFile.lines p m)
          ∧ (read letters 0 (behindQuote <| ModelFile.nameAnnotation p c.wireValue)
              = .complete (unitsOf c.wireValue.toList) [')'] ↔ IsInert letters c.wireValue)
          ∧ (read letters 0 (behindQuote (ModelFile.constantValue c))
              = .complete (unitsOf c.wireValue.toList) [] ↔ IsInert letters c.wireValue) := by
  constructor
  · intro multipart q hquoted hquote hback
    rw [ApiFile.behindQuote_argumentAnnotation_eq multipart hquoted]
    exact Literal.read_text_iff (by decide) hquote hback
  · intro p m henum c hc htext hquote hback
    refine ⟨ModelFile.exists_constantLines p henum hc, ?_, ?_⟩
    · rw [Literal.behindQuote_nameAnnotation_eq]
      exact Literal.read_text_iff (by decide) hquote hback
    · rw [ModelFile.behindQuote_constantValue htext]
      exact Literal.read_text_iff List.not_mem_nil hquote hback

/-- A converter for examples. -/
def exampleConverter : Converter where
  components := {}
  types := .standard
  style := {}

/-- A query parameter without a schema. -/
def queryParameter (name : String) : Parameter where
  name
  location := .query
  description := none
  required := false
  schema := none

/-- A model with the constants of some texts. -/
def enumerationOf (values : List String) : Model where
  name := "Field"
  className := "Field"
  isEnum := true
  dataType := some "kotlin.String"
  constants := exampleConverter.constants (values.map .text) "kotlin.String"

/-- A dollar sign at the end of a name, or in front of a digit, begins no template. -/
theorem quotedNames_denote_iff_of_price :
    ApiFile.IsQuoted (exampleConverter.parameter (queryParameter "price$"))
      ∧ IsInert .onlyAscii "price$" ∧ IsInert .onlyAscii "$5"
      ∧ read .onlyAscii 0 (behindQuote <| ApiFile.argumentAnnotation false
            (exampleConverter.parameter (queryParameter "price$")))
          = .complete (unitsOf "price$".toList) [')']
      ∧ { name := "dollar5", wireValue := "$5", isText := true } ∈ (enumerationOf ["$5"]).constants
      ∧ read .onlyAscii 0 (behindQuote (ModelFile.constantValue
            { name := "dollar5", wireValue := "$5", isText := true }))
          = .complete (unitsOf "$5".toList) [] := by
  obtain ⟨harguments, hconstants⟩ := quotedNames_denote_iff .onlyAscii
  have hquoted : ApiFile.IsQuoted (exampleConverter.parameter (queryParameter "price$")) := by
    decide
  have hprice : IsInert .onlyAscii "price$" := by decide
  have hfive : IsInert .onlyAscii "$5" := by decide
  have hmem : { name := "dollar5", wireValue := "$5", isText := true }
      ∈ (enumerationOf ["$5"]).constants := by decide +kernel
  obtain ⟨-, -, hvalue⟩ := hconstants default _ rfl _ hmem rfl (by decide) (by decide)
  exact ⟨hquoted, hprice, hfive,
    (harguments false _ hquoted (by decide) (by decide)).mpr hprice, hmem, hvalue.mpr hfive⟩

/-- **A dollar sign of the wire name is not escaped**, and begins a template in front of a
letter. -/
theorem quotedNames_not_denote :
    read .onlyAscii 0 (behindQuote <| ApiFile.argumentAnnotation false
        (exampleConverter.parameter (queryParameter "$filter"))) = .template
      ∧ (enumerationOf ["$ref"]).constants.map (fun c =>
          (c.wireValue, c.isText, read .onlyAscii 0 (behindQuote (ModelFile.constantValue c))))
        = [("$ref", true, .template)] := by
  decide +kernel

end ClientGen.Kotlin
