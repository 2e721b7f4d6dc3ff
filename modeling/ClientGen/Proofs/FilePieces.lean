import ClientGen.Kotlin.Generation
import ClientGen.Proofs.Comments
import ClientGen.Proofs.EmptyClasses

/-!
# Generated files in pieces

A file is written line by line, but a comment may run over several lines or stand within
one. So the files of models and of APIs are taken apart here into pieces, each of which is
code or one comment, and put together again: the pieces of a file make up its content
(`Kotlin.ModelFile.texts_pieces`, `Kotlin.ApiFile.texts_pieces`). Whatever is asked of the
comments in a file can then be asked of its pieces.

The pieces are a second description of a file and not a reading of it. They are defined
beside the lines, template by template, and which text stands in a comment is what the
templates intend. Had a file been read back into pieces instead, a comment that ends too
early would simply give other pieces, and the question whether a comment holds what was put
into it could not be put.
-/

namespace ClientGen.Kotlin

/-! ## Lines

A line is written with its line break, so the text of some lines and the text of others, one
after the other, are the text of all. -/

/-- The lines of two lists one after the other. -/
theorem unlines_append (ls ls' : List String) :
    unlines (ls ++ ls') = unlines ls ++ unlines ls' := by
  induction ls with
  | nil => rw [List.nil_append, unlines, String.empty_append]
  | cons l ls ih =>
    rw [List.cons_append, unlines, unlines, ih]
    simp only [String.append_assoc]

/-- A single line is its text with a line break behind it. -/
theorem unlines_singleton (l : String) : unlines [l] = l ++ "\n" := by
  rw [unlines, unlines, String.append_empty]

/-- Lines with line breaks between them only. -/
theorem join_concat (ls : List String) (last : String) :
    Text.join "\n" (ls ++ [last]) = unlines ls ++ last := by
  induction ls with
  | nil => rw [List.nil_append, unlines, String.empty_append]; rfl
  | cons l ls ih =>
    have hne : ls ++ [last] ≠ [] := by simp
    rw [List.cons_append, Text.join.eq_3 _ _ _ hne, ih, unlines]
    simp only [String.append_assoc]

/-- Texts one after the other without a separator. -/
theorem join_empty_cons (s : String) (ss : List String) :
    Text.join "" (s :: ss) = s ++ Text.join "" ss := by
  cases ss with
  | nil => rw [Text.join, Text.join, String.append_empty]
  | cons s' ss => rw [Text.join.eq_3 _ _ _ (List.cons_ne_nil s' ss), String.append_empty]

/-! ## Pieces

Each template has a list of pieces, and one statement: the text of the pieces is that of its
lines. The statements are put together as the templates are. -/

/-- **A piece of a file**: code, or a comment around a body. -/
inductive Piece where
  | code (text : String)
  | comment (body : String)
deriving DecidableEq, Repr

namespace Piece

/-- The text of a piece. -/
def text : Piece → String
  | code text => text
  | comment body => Comment.text body

/-- The text of pieces one after the other. -/
def texts : List Piece → String
  | [] => ""
  | piece :: pieces => piece.text ++ texts pieces

/-- Pieces one after the other. -/
theorem texts_append (as bs : List Piece) : texts (as ++ bs) = texts as ++ texts bs := by
  induction as with
  | nil => rw [List.nil_append, texts, String.empty_append]
  | cons a as ih => rw [List.cons_append, texts, texts, ih, String.append_assoc]

/-- A single piece. -/
theorem texts_singleton (a : Piece) : texts [a] = a.text := by
  rw [texts, texts, String.append_empty]

/-- Pieces for each item have the lines for each item. -/
theorem texts_flatMap {α : Type} {pieces : α → List Piece} {lines : α → List String}
    (h : ∀ a, texts (pieces a) = unlines (lines a)) (as : List α) :
    texts (as.flatMap pieces) = unlines (as.flatMap lines) := by
  induction as with
  | nil => rfl
  | cons a as ih => rw [List.flatMap_cons, List.flatMap_cons, texts_append, unlines_append, h, ih]

/-- Pieces about a text, unless it is absent or empty. -/
def aboutText (s : Option String) (pieces : String → List Piece) : List Piece :=
  ((nonempty? s).map pieces).getD []

/-- What is written about a text is written if there is one, as pieces and as lines. -/
theorem texts_aboutText {pieces : String → List Piece} {lines : String → List String}
    (h : ∀ s, texts (pieces s) = unlines (lines s)) (s : Option String) :
    texts (aboutText s pieces) = unlines (linesFor s lines) := by
  unfold aboutText linesFor
  cases nonempty? s with
  | none => rfl
  | some s => exact h s

end Piece

/-- **The body of a comment of several lines**, whose signs stand on lines of their own with
the same blanks in front. The first character is a star, the second one of the opening sign;
the blanks at the end stand before the closing sign. -/
def docBody (indent : String) (lines : List String) : String := "*\n" ++ unlines lines ++ indent

/-- The comment has the lines between its signs. -/
theorem unlines_doc (indent : String) (lines : List String) :
    indent ++ Comment.text (docBody indent lines) ++ "\n"
      = unlines ([indent ++ "/**"] ++ lines ++ [indent ++ " */"]) := by
  have hopening : ("/**" : String) = "/*" ++ "*" := by decide
  have hfirst : ("*\n" : String) = "*" ++ "\n" := by decide
  rw [unlines_append, unlines_append, unlines_singleton, unlines_singleton, Comment.text, docBody,
    hopening, hfirst]
  simp only [String.append_assoc]

/-- The first lines of a class file as pieces. -/
def bannerPieces (generator package : String) : List Piece :=
  [.comment (docBody "" [" * This file was generated by " ++ generator
      ++ ". Do not edit it by hand."]),
   .code ("\npackage " ++ package ++ "\n\n")]

/-- **The beginning of a class file**: a comment with the name of the generator, and the
package. -/
theorem texts_bannerPieces (generator package : String) :
    Piece.texts (bannerPieces generator package) = unlines (banner generator package) := by
  have hdoc := unlines_doc "" [" * This file was generated by " ++ generator
    ++ ". Do not edit it by hand."]
  have hbreak : ("\npackage " : String) = "\n" ++ "package " := by decide
  have hbreaks : ("\n\n" : String) = "\n" ++ "\n" := by decide
  have hbanner : banner generator package
      = (["" ++ "/**"] ++ [" * This file was generated by " ++ generator
          ++ ". Do not edit it by hand."] ++ ["" ++ " */"]) ++ ["package " ++ package, ""] := by
    simp [banner]
  rw [hbanner, unlines_append, ← hdoc, bannerPieces, hbreak, hbreaks]
  simp only [Piece.texts, Piece.text, unlines, String.append_assoc, String.append_empty,
    String.empty_append]

/-! ## Models

A model has a comment above its declaration and, if it is a data class, comments of one line
above its properties: one for the description, one for the values that are allowed. -/

namespace ModelFile

open Client (Model Property)

/-- What stands behind each item of a list with separators. -/
def withSeparators {α : Type} (between last : String) : List α → List (α × String)
  | [] => []
  | [a] => [(a, last)]
  | a :: b :: rest => (a, between) :: withSeparators between last (b :: rest)

/-- Writing items with separators is writing each with what stands behind it. This makes a
list with separators one to which the statement on lists of pieces applies. -/
theorem separated_eq_flatMap {α : Type} (write : α → String → List String)
    (between last : String) (as : List α) :
    separated write between last as
      = (withSeparators between last as).flatMap (fun e => write e.1 e.2) := by
  induction as using withSeparators.induct with
  | case1 => rfl
  | case2 a => simp [separated, withSeparators]
  | case3 a b rest ih => rw [separated, withSeparators, List.flatMap_cons, ih]

/-- No item is lost, and none is written twice. -/
theorem map_fst_withSeparators {α : Type} (between last : String) (as : List α) :
    (withSeparators between last as).map Prod.fst = as := by
  induction as using withSeparators.induct with
  | case1 => rfl
  | case2 a => rfl
  | case3 a b rest ih => rw [withSeparators, List.map_cons, ih]

/-- A comment of one line as pieces. -/
def linePieces (body : String) : List Piece := [.code "    ", .comment (" " ++ body), .code "\n"]

/-- A comment of one line is one line. -/
theorem texts_linePieces (body : String) :
    Piece.texts (linePieces body) = unlines ["    /* " ++ body ++ " */"] := by
  have hfront : ("    /* " : String) = "    " ++ "/*" ++ " " := by decide
  rw [hfront, linePieces]
  simp only [Piece.texts, Piece.text, Comment.text, unlines, String.append_assoc,
    String.append_empty]

/-- The declaration of a property as lines. -/
def propertyCode (p : Profile) (v : Property) (behind : String) : List String :=
  ["    " ++ nameAnnotation p (wireLiteral v),
   "    val " ++ v.name ++ ": " ++ v.dataType ++ optionalMark v.required ++ behind]

/-- **The pieces of a property**: its description, the values allowed, and its declaration. -/
def propertyPieces (p : Profile) (v : Property) (behind : String) : List Piece :=
  Piece.aboutText v.description (fun d => linePieces (commented d))
    ++ (if v.isEnum then
        linePieces ("One of: " ++ Text.join ", " (v.constants.map (·.wireValue)))
      else [])
    ++ [.code (unlines (propertyCode p v behind))]

/-- **The pieces of a property make up its lines**, with a description and constants or
without. -/
theorem texts_propertyPieces (p : Profile) (v : Property) (behind : String) :
    Piece.texts (propertyPieces p v behind) = unlines (propertyLines p v behind) := by
  have hvalues : ("    /* One of: " : String) = "    /* " ++ "One of: " := by decide
  have henum : Piece.texts (if v.isEnum then
        linePieces ("One of: " ++ Text.join ", " (v.constants.map (·.wireValue))) else [])
      = unlines (linesIf v.isEnum
        ["    /* One of: " ++ Text.join ", " (v.constants.map (·.wireValue)) ++ " */"]) := by
    unfold linesIf
    split_ifs
    · rw [texts_linePieces, hvalues]
      simp only [String.append_assoc]
    · rfl
  rw [propertyPieces, Piece.texts_append, Piece.texts_append, henum,
    Piece.texts_aboutText (fun d => texts_linePieces (commented d)), Piece.texts_singleton,
    Piece.text, ← unlines_append, ← unlines_append]
  rfl

/-- The lines before the properties of a data class. -/
def classCode (p : Profile) (m : Model) : List String :=
  serializable p
    ++ linesIf p.layout.entityPackage.isSome ["@Entity(tableName = \"" ++ m.name ++ "\")"]
    ++ ["data class " ++ m.className ++ " ("]

/-- **The pieces of a declaration.** Only a data class has comments. -/
def declarationPieces (p : Profile) (m : Model) : List Piece :=
  if m.IsDataClass then
    [.code (unlines (classCode p m))]
      ++ (withSeparators "," "" m.views.all).flatMap (fun e => propertyPieces p e.1 e.2)
      ++ [.code (unlines [")"])]
  else [.code (unlines (declaration p m))]

/-- **The pieces of a declaration make up its lines.** An enumeration, an alias and an empty
class are one piece of code each; only the properties of a data class need more. -/
theorem texts_declarationPieces (p : Profile) (m : Model) :
    Piece.texts (declarationPieces p m) = unlines (declaration p m) := by
  unfold declarationPieces
  split_ifs with hclass
  · rw [declaration_of_isDataClass p hclass, Piece.texts_append, Piece.texts_append,
      Piece.texts_singleton, Piece.texts_singleton,
      Piece.texts_flatMap (fun e : Property × String => texts_propertyPieces p e.1 e.2),
      ← separated_eq_flatMap, Piece.text, Piece.text, ← unlines_append, ← unlines_append]
    rfl
  · exact Piece.texts_singleton _

/-- **The pieces of the file of a model.** -/
def pieces (p : Profile) (m : Model) : List Piece :=
  bannerPieces p.variant p.layout.modelPackage ++ [.code (unlines (imports p m ++ [""]))]
    ++ Piece.aboutText m.description
      (fun d => [.comment (docBody "" [" * " ++ commented d]), .code "\n"])
    ++ declarationPieces p m

/-- **They make up its content.** -/
theorem texts_pieces (p : Profile) (m : Model) :
    Piece.texts (pieces p m) = (file p m).content := by
  have hdescription : ∀ d,
      Piece.texts [.comment (docBody "" [" * " ++ commented d]), .code "\n"]
        = unlines ["/**", " * " ++ commented d, " */"] := by
    intro d
    have hdoc := unlines_doc "" [" * " ++ commented d]
    rw [String.empty_append, String.empty_append, String.empty_append] at hdoc
    rw [Piece.texts, Piece.texts_singleton]
    exact hdoc
  rw [pieces, Piece.texts_append, Piece.texts_append, Piece.texts_append, texts_bannerPieces,
    Piece.texts_singleton, Piece.text, Piece.texts_aboutText hdescription,
    texts_declarationPieces, ← unlines_append, ← unlines_append, ← unlines_append,
    ← List.append_assoc]
  rfl

end ModelFile

/-! ## APIs

An operation has one comment above it, for its summary, its notes and its parameters. In the
services of one library a cookie is an argument whose name on the wire stands in a comment
within the line. -/

namespace ApiFile

open Client (Argument Call Api)

/-- The lines of the comment above an operation, without its signs. -/
def commentLines (p : Profile) (call : Call) : List String :=
  ["     * " ++ commented ((nonempty? call.summary).getD call.id)]
    ++ linesFor call.notes (fun notes => ["     *", "     * " ++ commented notes])
    ++ call.arguments.map (fun q => "     * @param " ++ argumentName p q
      ++ ((nonempty? q.description).map (fun d => " " ++ commented d)).getD "")

/-- The annotation of an argument as pieces. -/
def annotationPieces (multipart : Bool) (q : Argument) : List Piece :=
  if q.kind = .cookie then [.code "@Header(\"Cookie\") ", .comment (" " ++ q.wireName)]
  else [.code <| argumentAnnotation multipart q]

/-- The annotation of an argument is code, but for a cookie. There is no annotation for one
in the library, so its name is told in a comment. -/
theorem texts_annotationPieces (multipart : Bool) (q : Argument) :
    Piece.texts (annotationPieces multipart q) = argumentAnnotation multipart q := by
  have hcookie : ("@Header(\"Cookie\") /* " : String) = "@Header(\"Cookie\") " ++ "/*" ++ " " := by
    decide
  unfold annotationPieces
  split_ifs with hkind
  · unfold argumentAnnotation
    rw [hkind]
    simp only [hcookie, Piece.texts, Piece.text, Comment.text, String.append_assoc,
      String.append_empty]
  · exact Piece.texts_singleton _

/-- **The pieces of an argument** of a service. -/
def argumentPieces (p : Profile) (multipart : Bool) (q : Argument) : List Piece :=
  annotationPieces multipart q ++ [.code (" " ++ argumentText p q)]

/-- The lines of a service before its arguments. -/
def serviceCode (p : Profile) (call : Call) : List String :=
  (if call.isMultipart then ["    @Multipart"] else linesIf (isForm call) ["    @FormUrlEncoded"])
    ++ ["    @" ++ annotated call.method (endpoint p call)]

/-- The pieces of a function of a service. -/
def servicePieces (p : Profile) (call : Call) : List Piece :=
  [.code (unlines (serviceCode p call) ++ "    fun " ++ call.nickname ++ "(")]
    ++ call.arguments.flatMap (argumentPieces p call.isMultipart)
    ++ [.code ("): Call<" ++ returned call ++ ">\n")]

/-- **The pieces of a service make up its lines.** Its arguments stand on one line with its
name, which is why they are joined without a separator. -/
theorem texts_servicePieces (p : Profile) (call : Call) :
    Piece.texts (servicePieces p call) = unlines (service p call) := by
  have harguments : ∀ qs : List Argument,
      Piece.texts (qs.flatMap (argumentPieces p call.isMultipart))
        = Text.join "" (qs.map (fun q =>
            argumentAnnotation call.isMultipart q ++ " " ++ argumentText p q)) := by
    intro qs
    induction qs with
    | nil => rfl
    | cons q qs ih =>
      rw [List.flatMap_cons, List.map_cons, join_empty_cons, Piece.texts_append, ih, argumentPieces,
        Piece.texts_append, texts_annotationPieces, Piece.texts_singleton, Piece.text]
      simp only [String.append_assoc]
  have hend : (">\n" : String) = ">" ++ "\n" := by decide
  have hservice : service p call = serviceCode p call ++ ["    fun " ++ call.nickname ++ "("
      ++ Text.join "" (call.arguments.map (fun q =>
        argumentAnnotation call.isMultipart q ++ " " ++ argumentText p q))
      ++ "): Call<" ++ returned call ++ ">"] := by
    rw [service, serviceCode, List.append_assoc]
    rfl
  rw [servicePieces, Piece.texts_append, Piece.texts_append, harguments, Piece.texts_singleton,
    Piece.texts_singleton, Piece.text, Piece.text, hend, hservice, unlines_append,
    unlines_singleton]
  simp only [String.append_assoc]

/-- **The pieces of the function of an operation.** -/
def functionPieces (p : Profile) (call : Call) : List Piece :=
  [.code "\n    ", .comment (docBody "    " (commentLines p call)),
    .code ("\n" ++ unlines (linesIf call.isDeprecated
      ["    @Deprecated(message = \"This operation is deprecated.\")"]))]
    ++ (if p.suspends then [.code (unlines (suspending p call))] else servicePieces p call)

/-- **The pieces of an operation make up its lines**, whichever of the two forms it has. The
delimiters of the comment are no part of its piece, and are put back around it here. -/
theorem texts_functionPieces (p : Profile) (call : Call) :
    Piece.texts (functionPieces p call) = unlines (function p call) := by
  have hdoc := unlines_doc "    " (commentLines p call)
  have hbreak : ("\n    " : String) = "\n" ++ "    " := by decide
  have hcode : Piece.texts (if p.suspends then [.code (unlines (suspending p call))]
      else servicePieces p call)
      = unlines (if p.suspends then suspending p call else service p call) := by
    split_ifs
    · exact Piece.texts_singleton _
    · exact texts_servicePieces p call
  have hcomment : comment p call
      = ["    " ++ "/**"] ++ commentLines p call ++ ["    " ++ " */"] := by
    simp [comment, commentLines]
  rw [functionPieces, Piece.texts_append, hcode, function, unlines_append, unlines_append,
    unlines_append, unlines_singleton, hcomment, ← hdoc, hbreak]
  simp only [Piece.texts, Piece.text, String.append_assoc, String.append_empty,
    String.empty_append]

/-- **The pieces of the file of an API.** -/
def pieces (p : Profile) (api : Api) : List Piece :=
  bannerPieces p.variant p.layout.apiPackage
    ++ [.code (unlines (imports p ++ ["import " ++ p.layout.modelPackage ++ ".*", "",
      "interface " ++ api.className ++ " \x7b"]))]
    ++ api.calls.flatMap (functionPieces p) ++ [.code "\x7d"]

/-- **They make up its content.** -/
theorem texts_pieces (p : Profile) (api : Api) :
    Piece.texts (pieces p api) = (file p api).content := by
  have hlines : (file p api).content = unlines (banner p.variant p.layout.apiPackage
      ++ (imports p ++ ["import " ++ p.layout.modelPackage ++ ".*", "",
        "interface " ++ api.className ++ " \x7b"])
      ++ api.calls.flatMap (function p)) ++ "\x7d" := by
    rw [← join_concat]
    simp only [file, lines, List.append_assoc]
  rw [hlines, pieces, Piece.texts_append, Piece.texts_append, Piece.texts_append,
    texts_bannerPieces, Piece.texts_singleton, Piece.texts_singleton, Piece.text, Piece.text,
    Piece.texts_flatMap (texts_functionPieces p), ← unlines_append, ← unlines_append]

end ApiFile

end ClientGen.Kotlin
