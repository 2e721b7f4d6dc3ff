import ClientGen.Proofs.Arguments
import ClientGen.Proofs.FilePieces

/-!
# The comments of generated files

The files of models and of APIs carry texts of the document in comments. Descriptions, summaries
and notes stand there with the closing sign broken up, the values allowed for a property and the
name of a cookie as they are. So a comment with a description closes where it should exactly if
the description does not begin a comment itself, and one with values or a name exactly if they are
balanced. Which files have only comments that close where they should is then a matter of what
the document says (`Kotlin.Variant.commentsClose_files_iff`): a value, a description and the name
of a cookie can each end a comment early or leave it open
(`Kotlin.Variant.exists_not_commentsClose`).
-/

namespace ClientGen.Kotlin

/-! ## Texts in comments

What may stand in a comment is a question of its text (`Comment.Balanced`); here it is asked
of a text with a line in front and blanks around it, as the templates write it. A broken up
text ends no comment, and begins one if it did so before it was broken up. -/

/-- Where texts are asked not to begin a comment, the empty one makes no difference. -/
theorem forall_nonempty? (s : Option String) :
    (∀ t, nonempty? s = some t → ¬ Comment.Opens t) ↔ ∀ t, s = some t → ¬ Comment.Opens t := by
  have hempty : ¬ Comment.Opens "" := by decide
  constructor
  · rintro h t rfl
    by_cases ht : t = ""
    · exact ht ▸ hempty
    · exact h t (by simp [nonempty?, Option.filter_some, ht])
  · exact fun h t ht => h t (Option.eq_some_of_filter_eq_some ht)

/-- The lines about a text, if it is there. -/
theorem forall_mem_linesFor {P : String → Prop} (s : Option String) (lines : String → List String) :
    (∀ l ∈ linesFor s lines, P l) ↔ ∀ t, nonempty? s = some t → ∀ l ∈ lines t, P l := by
  unfold linesFor
  cases nonempty? s with
  | none => simp
  | some t => simp

/-- Two signs in a row stand in one of its lines. Around the lines stand a star with a line
break and an indentation, and neither of them makes a sign with what it is next to. -/
theorem hasPair_docBody {a b : Char} (ha : a ≠ '\n') (hb : b ≠ '\n') (hspace : b ≠ ' ')
    {indent : String} (hindent : indent.toList.all (· = ' ') = true) (lines : List String) :
    Comment.HasPair a b (docBody indent lines) ↔ ∃ l ∈ lines, Comment.HasPair a b l := by
  have hfront : ("*\n" : String).toList = ['*', '\n'] := by decide
  have hnotFront : ¬ Comment.HasPair a b "*\n" := by
    rw [Comment.HasPair, hfront, Comment.pair_infix_cons]
    rintro (⟨-, h⟩ | h)
    · exact hb (Option.some.inj h).symm
    · exact Comment.not_pair_infix_singleton _ h
  have hlast : ("*\n" : String).toList.getLast? ≠ some a := by
    rw [hfront]
    exact fun h => ha (Option.some.inj h).symm
  have hblank : ∀ c ∈ indent.toList, c = ' ' :=
    fun c hc => of_decide_eq_true (List.all_eq_true.mp hindent c hc)
  have hhead : indent.toList.head? ≠ some b :=
    fun h => hspace (hblank b (List.mem_of_head? h))
  have hnotIndent : ¬ Comment.HasPair a b indent := by
    intro h
    exact hspace (hblank b (h.subset (List.mem_cons_of_mem a List.mem_cons_self)))
  rw [docBody, Comment.hasPair_append_of_head hhead, Comment.hasPair_append_of_last hlast,
    Comment.hasPair_unlines ha hb, or_iff_left hnotIndent, or_iff_right hnotFront]

/-- **A comment of several lines none of which ends a comment** is closed where it should exactly
if none of them begins one. -/
theorem balanced_docBody_iff {indent : String} (hindent : indent.toList.all (· = ' ') = true)
    {lines : List String} (hlines : ∀ l ∈ lines, ¬ Comment.Closes l) :
    Comment.Balanced (docBody indent lines) ↔ ∀ l ∈ lines, ¬ Comment.Opens l := by
  have hcloses : ¬ Comment.Closes (docBody indent lines) := by
    rw [Comment.Closes, hasPair_docBody (by decide) (by decide) (by decide) hindent]
    rintro ⟨l, hl, h⟩
    exact hlines l hl h
  rw [Comment.balanced_iff_of_not_closes hcloses, Comment.Opens,
    hasPair_docBody (by decide) (by decide) (by decide) hindent]
  simp only [not_exists, not_and]

/-- A line that puts a broken up text behind blanks and a star ends no comment, and begins one if
the text did so before. -/
theorem spec_of_commentedLine (front : String) (hlast : front.toList.getLast? = some ' ')
    (hopens : ¬ Comment.Opens front) (hcloses : ¬ Comment.Closes front) (s : String) :
    ¬ Comment.Closes (front ++ commented s)
      ∧ (Comment.Opens (front ++ commented s) ↔ Comment.Opens s) := by
  have hne : ∀ a : Char, a ≠ ' ' → front.toList.getLast? ≠ some a :=
    fun a ha h => ha (Option.some.inj (h.symm.trans hlast))
  rw [Comment.Closes, Comment.Opens, Comment.hasPair_append_of_last (hne '*' (by decide)),
    Comment.hasPair_append_of_last (hne '/' (by decide)), or_iff_right hopens]
  exact ⟨not_or.mpr ⟨hcloses, Comment.not_closes_commented s⟩, Comment.opens_commented s⟩

/-! ## Comments that close

Whether the comments of a file close where they should is said of reading: whoever reads a
comment from its first sign comes out behind its last one. Reading goes comment by comment,
so it comes down to the body of each. -/

namespace Piece

/-- **The comments of a file close where they should**: whoever reads one of them from its first
sign comes out behind its last one. -/
def CommentsClose (pieces : List Piece) : Prop :=
  ∀ before body after, pieces = before ++ comment body :: after →
    Comment.behind? (texts (comment body :: after)).toList = some (texts after).toList

/-- The body of a comment is balanced. -/
def IsBalanced : Piece → Prop
  | code _ => True
  | comment body => Comment.Balanced body

instance : DecidablePred IsBalanced
  | code _ => inferInstanceAs (Decidable True)
  | comment body => inferInstanceAs (Decidable (Comment.Balanced body))

/-- The body of every comment is balanced. -/
def AllBalanced (pieces : List Piece) : Prop := ∀ piece ∈ pieces, piece.IsBalanced

instance (pieces : List Piece) : Decidable (AllBalanced pieces) :=
  inferInstanceAs (Decidable (∀ piece ∈ pieces, _))

/-- **This is what it takes** for comments to close where they should: whatever follows a
comment, it ends where it should exactly if its body is balanced. -/
theorem commentsClose_iff {pieces : List Piece} : CommentsClose pieces ↔ AllBalanced pieces := by
  have hread : ∀ body after,
      Comment.behind? (texts (comment body :: after)).toList = some (texts after).toList
        ↔ (comment body).IsBalanced := by
    intro body after
    rw [texts, String.toList_append]
    exact Comment.behind?_text_append body _
  constructor
  · intro h piece hpiece
    cases piece with
    | code _ => trivial
    | comment body =>
      obtain ⟨before, after, hsplit⟩ := List.append_of_mem hpiece
      exact (hread body after).mp (h before body after hsplit)
  · intro h before body after hsplit
    refine (hread body after).mpr (h _ ?_)
    rw [hsplit]
    exact List.mem_append_right before List.mem_cons_self

/-- Without pieces there is nothing to close. -/
@[simp] theorem allBalanced_nil : AllBalanced [] := fun _ h => absurd h List.not_mem_nil

/-- Code is no comment, whatever stands in it. -/
@[simp] theorem allBalanced_code_cons (s : String) (pieces : List Piece) :
    AllBalanced (code s :: pieces) ↔ AllBalanced pieces := by
  simp [AllBalanced, IsBalanced]

/-- A comment is balanced, and so are the pieces behind it. -/
@[simp] theorem allBalanced_comment_cons (body : String) (pieces : List Piece) :
    AllBalanced (comment body :: pieces) ↔ Comment.Balanced body ∧ AllBalanced pieces := by
  simp [AllBalanced, IsBalanced]

/-- Pieces one after the other do not affect each other. -/
@[simp] theorem allBalanced_append (as bs : List Piece) :
    AllBalanced (as ++ bs) ↔ AllBalanced as ∧ AllBalanced bs := List.forall_mem_append

/-- The pieces of items are balanced if those of each item are. -/
@[simp] theorem allBalanced_flatMap {α : Type} (pieces : α → List Piece) (as : List α) :
    AllBalanced (as.flatMap pieces) ↔ ∀ a ∈ as, AllBalanced (pieces a) :=
  List.forall_mem_flatMap

/-- Pieces about a text whose comments suit every text without an opening sign. -/
theorem allBalanced_aboutText {pieces : String → List Piece}
    (h : ∀ s, AllBalanced (pieces s) ↔ ¬ Comment.Opens s) (s : Option String) :
    AllBalanced (aboutText s pieces) ↔ ∀ t, s = some t → ¬ Comment.Opens t := by
  rw [← forall_nonempty?, aboutText]
  cases nonempty? s with
  | none => simp
  | some t => simp [h]

end Piece

/-- The comment at the top of the files of a variant is closed where it should. -/
theorem allBalanced_bannerPieces {v : Variant} (hv : v ∈ Variant.all) (package : String) :
    Piece.AllBalanced (bannerPieces v.name package) := by
  have hall : ∀ v ∈ Variant.all, Comment.Balanced (docBody ""
      [" * This file was generated by " ++ v.name ++ ". Do not edit it by hand."]) := by
    decide +kernel
  unfold bannerPieces
  simp [hall v hv]

/-! ## The files of models

The conditions on a model are named, so that the statement about files can be read without
the templates. Values are asked of as one text, since they are written as one, with commas
between. -/

namespace ModelFile

open Client (Model Property)

/-- **A property keeps within its comments** if its description begins no comment and the values
allowed, which are written as they are, are balanced. -/
structure PropertyContained (v : Property) : Prop where
  description : ∀ d, v.description = some d → ¬ Comment.Opens d
  values : Comment.Balanced (Text.join ", " (v.constants.map (·.wireValue)))

/-- **A model keeps within its comments** if its description begins no comment, and the properties
keep within theirs if it is written as a data class. -/
structure Contained (m : Model) : Prop where
  description : ∀ d, m.description = some d → ¬ Comment.Opens d
  properties : m.IsDataClass → ∀ v ∈ m.views.all, PropertyContained v

/-- **The comments of a property** are balanced exactly if it keeps within them. There are
two: above it its description, which has no closing sign left, and the list of its values,
which stands as it is. -/
theorem allBalanced_propertyPieces (p : Profile) (v : Property) (behind : String) :
    Piece.AllBalanced (propertyPieces p v behind) ↔ PropertyContained v := by
  have hline : ∀ body, Piece.AllBalanced (linePieces body) ↔ Comment.Balanced body := by
    intro body
    simp [linePieces, Comment.balanced_blank]
  have hdescription := Piece.allBalanced_aboutText
    (fun d => (hline (commented d)).trans (Comment.balanced_commented d)) v.description
  have hvalues : Piece.AllBalanced (if v.isEnum then
        linePieces ("One of: " ++ Text.join ", " (v.constants.map (·.wireValue))) else [])
      ↔ Comment.Balanced (Text.join ", " (v.constants.map (·.wireValue))) := by
    split_ifs with henum
    · have hfront : ("One of: " : String) = "One of:" ++ " " := by decide
      rw [hline, hfront, Comment.balanced_append (by decide)]
    · have hnone : v.constants = [] := by simpa [Property.isEnum] using henum
      rw [hnone]
      exact iff_of_true Piece.allBalanced_nil (by decide)
  rw [propertyPieces, Piece.allBalanced_append, Piece.allBalanced_append, hdescription, hvalues]
  exact ⟨fun h => ⟨h.1.1, h.1.2⟩, fun h => ⟨⟨h.1, h.2⟩, by simp⟩⟩

/-- **The comments of a declaration** are those of the properties of a data class. -/
theorem allBalanced_declarationPieces (p : Profile) (m : Model) :
    Piece.AllBalanced (declarationPieces p m)
      ↔ (m.IsDataClass → ∀ v ∈ m.views.all, PropertyContained v) := by
  unfold declarationPieces
  split_ifs with hclass
  · have hitems : (∀ e ∈ withSeparators "," "" m.views.all, PropertyContained e.1)
        ↔ ∀ v ∈ m.views.all, PropertyContained v := by
      rw [← map_fst_withSeparators "," "" m.views.all, List.forall_mem_map]
      simp only [map_fst_withSeparators]
    simp only [Piece.allBalanced_append, Piece.allBalanced_flatMap, Piece.allBalanced_code_cons,
      Piece.allBalanced_nil, allBalanced_propertyPieces, hitems, hclass, true_and, and_true,
      true_imp_iff]
  · simp [hclass]

/-- **The comments in the file of a model** close where they should exactly if the model keeps
within them. -/
theorem commentsClose_pieces_iff {v : Variant} (hv : v ∈ Variant.all) {p : Profile}
    (hp : p.variant = v.name) (m : Model) :
    Piece.CommentsClose (pieces p m) ↔ Contained m := by
  have hindent : ("" : String).toList.all (· = ' ') = true := by decide
  have hline := spec_of_commentedLine " * " (by decide) (by decide) (by decide)
  have hdoc : ∀ d, Piece.AllBalanced [.comment (docBody "" [" * " ++ commented d]), .code "\n"]
      ↔ ¬ Comment.Opens d := by
    intro d
    have hcloses : ∀ l ∈ [" * " ++ commented d], ¬ Comment.Closes l := by
      simpa using (hline d).1
    simp [balanced_docBody_iff hindent hcloses, (hline d).2]
  rw [Piece.commentsClose_iff, pieces, hp]
  simp only [Piece.allBalanced_append, allBalanced_bannerPieces hv, Piece.allBalanced_code_cons,
    Piece.allBalanced_nil, Piece.allBalanced_aboutText hdoc, allBalanced_declarationPieces,
    true_and]
  exact ⟨fun h => ⟨h.1, h.2⟩, fun h => ⟨h.1, h.2⟩⟩

end ModelFile

/-! ## The files of APIs

The comment above an operation has a line for each of its arguments, beginning with its
name. The name cannot hold a sign, as no name that the generator makes has a slash. -/

namespace ApiFile

open Client (Argument Call Api)

/-- **An operation keeps within its comments** if none of its descriptions begins a comment, and
the names of cookies, which are written as they are by a service, are balanced. -/
structure Contained (p : Profile) (call : Call) : Prop where
  summary : ¬ Comment.Opens ((nonempty? call.summary).getD call.id)
  notes : ∀ notes, call.notes = some notes → ¬ Comment.Opens notes
  arguments : ∀ q ∈ call.arguments, ∀ d, q.description = some d → ¬ Comment.Opens d
  cookies : p.suspends = false → ∀ q ∈ call.arguments, q.kind = .cookie →
    Comment.Balanced q.wireName

/-- Dropping words leaves characters of the text. -/
theorem mem_of_mem_dropMinus {skip : Nat} {cs : List Char} {c : Char}
    (h : c ∈ dropMinus skip cs) : c ∈ cs := by
  induction skip, cs using dropMinus.induct with
  | case1 skip => exact h
  | case2 skip c' cs ih => exact List.mem_cons_of_mem c' (ih h)
  | case3 c' cs hstarts ih =>
    rw [dropMinus, if_pos hstarts] at h
    exact List.mem_cons_of_mem c' (ih h)
  | case4 c' cs hstarts ih =>
    rw [dropMinus, if_neg hstarts] at h
    rcases List.mem_cons.mp h with rfl | h
    · exact List.mem_cons_self
    · exact List.mem_cons_of_mem c' (ih h)

/-- The name of an argument has no slash if it is named for its name on the wire. -/
theorem slash_notMem_argumentName (p : Profile) {q : Argument}
    (h : q.name = Naming.variableName q.wireName) : '/' ∉ (argumentName p q).toList := by
  have hname : '/' ∉ q.name.toList := h ▸ (Naming.isPlain_variableName q.wireName).slash_notMem
  unfold argumentName
  split_ifs
  · rw [withoutMinus, String.toList_ofList]
    exact fun hmem => hname (mem_of_mem_dropMinus hmem)
  · exact hname

/-- The line about an argument ends no comment, and begins one if its description does so.
The description stands behind a blank, so no sign comes about where the two meet. -/
theorem spec_of_argumentLine {name : String} (hname : '/' ∉ name.toList)
    (description : Option String) :
    ¬ Comment.Closes ("     * @param " ++ name
        ++ ((nonempty? description).map (fun d => " " ++ commented d)).getD "")
      ∧ (¬ Comment.Opens ("     * @param " ++ name
          ++ ((nonempty? description).map (fun d => " " ++ commented d)).getD "")
        ↔ ∀ d, description = some d → ¬ Comment.Opens d) := by
  have hcloses : ¬ Comment.Closes ("     * @param " ++ name) := by
    rw [Comment.Closes, Comment.hasPair_append_of_last (by decide)]
    exact not_or.mpr ⟨by decide, Comment.not_hasPair_of_slash_notMem (.inr rfl) hname⟩
  have hopens : ¬ Comment.Opens ("     * @param " ++ name) := by
    rw [Comment.Opens, Comment.hasPair_append_of_last (by decide)]
    exact not_or.mpr ⟨by decide, Comment.not_hasPair_of_slash_notMem (.inl rfl) hname⟩
  rw [← forall_nonempty?]
  cases nonempty? description with
  | none =>
    rw [Option.map_none, Option.getD_none, String.append_empty]
    exact ⟨hcloses, iff_of_true hopens (fun _ h => absurd h.symm (Option.some_ne_none _))⟩
  | some d =>
    have hblank := spec_of_commentedLine " " (by decide) (by decide) (by decide) d
    have hhead : ∀ b : Char, b ≠ ' ' → (" " ++ commented d).toList.head? ≠ some b := by
      intro b hb h
      rw [String.toList_append] at h
      exact hb (Option.some.inj h).symm
    rw [Option.map_some, Option.getD_some]
    constructor
    · rw [Comment.Closes, Comment.hasPair_append_of_head (hhead '/' (by decide))]
      exact not_or.mpr ⟨hcloses, hblank.1⟩
    · rw [Comment.Opens, Comment.hasPair_append_of_head (hhead '*' (by decide)),
        or_iff_right hopens]
      exact (not_congr hblank.2).trans
        ⟨fun h d' hd' => Option.some.inj hd' ▸ h, fun h => h d rfl⟩

/-- **The comment above an operation** is closed where it should exactly if no text in it
begins a comment. No line of it ends one, and then balance is a matter of single lines. -/
theorem balanced_commentLines_iff {p : Profile} {call : Call}
    (hnames : ∀ q ∈ call.arguments, q.name = Naming.variableName q.wireName) :
    Comment.Balanced (docBody "    " (commentLines p call))
      ↔ ¬ Comment.Opens ((nonempty? call.summary).getD call.id)
        ∧ (∀ notes, call.notes = some notes → ¬ Comment.Opens notes)
        ∧ ∀ q ∈ call.arguments, ∀ d, q.description = some d → ¬ Comment.Opens d := by
  have hindent : ("    " : String).toList.all (· = ' ') = true := by decide
  have htext := spec_of_commentedLine "     * " (by decide) (by decide) (by decide)
  have hargument := fun q (hq : q ∈ call.arguments) =>
    spec_of_argumentLine (slash_notMem_argumentName p (hnames q hq)) q.description
  have hstar : ¬ Comment.Closes "     *" ∧ ¬ Comment.Opens "     *" := by decide
  have hcloses : ∀ l ∈ commentLines p call, ¬ Comment.Closes l := by
    simp only [commentLines, List.forall_mem_append, List.forall_mem_singleton,
      forall_mem_linesFor, List.forall_mem_cons, List.forall_mem_map]
    exact ⟨⟨(htext _).1, fun notes _ => ⟨hstar.1, (htext notes).1⟩⟩,
      fun q hq => (hargument q hq).1⟩
  rw [balanced_docBody_iff hindent hcloses, ← forall_nonempty? call.notes]
  simp only [commentLines, List.forall_mem_append, List.forall_mem_singleton,
    forall_mem_linesFor, List.forall_mem_cons, List.forall_mem_map, (htext _).2, hstar.2,
    not_false_eq_true, true_and]
  rw [and_assoc]
  refine and_congr_right' (and_congr (by simp) ?_)
  exact forall₂_congr (fun q hq => (hargument q hq).2)

/-- **The comments of an operation** are the one above it and, in a service, those of its
cookies. An operation that suspends writes its arguments without annotations, and so without
the comments that stand for those of cookies. -/
theorem allBalanced_functionPieces {p : Profile} {call : Call}
    (hnames : ∀ q ∈ call.arguments, q.name = Naming.variableName q.wireName) :
    Piece.AllBalanced (functionPieces p call) ↔ Contained p call := by
  have hannotation : ∀ q : Argument,
      Piece.AllBalanced (argumentPieces p call.isMultipart q)
        ↔ (q.kind = .cookie → Comment.Balanced q.wireName) := by
    intro q
    unfold argumentPieces annotationPieces
    split_ifs with hkind
    · simp [hkind, Comment.balanced_blank]
    · simp [hkind]
  have hcode : Piece.AllBalanced (if p.suspends then [.code (unlines (suspending p call))]
        else servicePieces p call)
      ↔ (p.suspends = false → ∀ q ∈ call.arguments, q.kind = .cookie →
        Comment.Balanced q.wireName) := by
    split_ifs with hsuspends
    · simp [hsuspends]
    · simp [servicePieces, hannotation, hsuspends]
  rw [functionPieces, Piece.allBalanced_append, hcode, Piece.allBalanced_code_cons,
    Piece.allBalanced_comment_cons, balanced_commentLines_iff hnames, Piece.allBalanced_code_cons,
    and_iff_left Piece.allBalanced_nil]
  constructor
  · rintro ⟨⟨hsummary, hnotes, harguments⟩, hcookies⟩
    exact ⟨hsummary, hnotes, harguments, hcookies⟩
  · exact fun h => ⟨⟨h.1, h.2, h.3⟩, h.4⟩

/-- **The comments in the file of an API** close where they should exactly if all operations keep
within theirs. -/
theorem commentsClose_pieces_iff {v : Variant} (hv : v ∈ Variant.all) {p : Profile}
    (hp : p.variant = v.name) {api : Api} (hnames : ∀ call ∈ api.calls, ∀ q ∈ call.arguments,
      q.name = Naming.variableName q.wireName) :
    Piece.CommentsClose (pieces p api) ↔ ∀ call ∈ api.calls, Contained p call := by
  rw [Piece.commentsClose_iff, pieces, hp]
  simp only [Piece.allBalanced_append, allBalanced_bannerPieces hv, Piece.allBalanced_code_cons,
    Piece.allBalanced_nil, Piece.allBalanced_flatMap, true_and, and_true]
  exact forall₂_congr (fun call hcall => allBalanced_functionPieces (hnames call hcall))

end ApiFile

/-! ## The files of a client

The converter names every argument for its name on the wire, which is the hypothesis on
names above. The rest holds of any model and any API. -/

namespace Variant

variable {v : Variant} {run : ResolvedRun} {p : Profile} {d : Document} {client : Client}

/-- **Which comments close where they should** in the files of models and of APIs. The closing
sign is broken up in descriptions, so none of them ends a comment, but one that begins a comment
leaves the comment around it open; the values of a property and the name of a cookie stand in
their comments as they are, which suits them exactly if they are balanced.

That the pieces make up the content of the file is part of the statement, as it is what ties
the comments spoken of to the comments written. The name of a variable is known to be plain,
which takes it out of the condition for an API. -/
theorem commentsClose_files_iff (hv : v ∈ all) (hp : v.profile run = .ok p)
    (h : d.toClient p.policy p.options = .ok client) :
    (∀ m ∈ Project.writtenModels client,
        Piece.texts (ModelFile.pieces p m) = (ModelFile.file p m).content
        ∧ (Piece.CommentsClose (ModelFile.pieces p m) ↔ ModelFile.Contained m))
      ∧ ∀ api ∈ client.apis,
        Piece.texts (ApiFile.pieces p api) = (ApiFile.file p api).content
        ∧ (Piece.CommentsClose (ApiFile.pieces p api)
          ↔ ∀ call ∈ api.calls, ApiFile.Contained p call) := by
  obtain ⟨-, -, -, -, hname, -⟩ := profile_eq_ok hp
  refine ⟨fun m _ => ⟨ModelFile.texts_pieces p m, ModelFile.commentsClose_pieces_iff hv hname m⟩,
    fun api hapi => ⟨ApiFile.texts_pieces p api,
      ApiFile.commentsClose_pieces_iff hv hname (fun call hcall q hq => ?_)⟩⟩
  exact Document.name_of_mem_arguments h hapi hcall hq

/-- A document that says a text in every place that gets into a comment. -/
def documentSaying (description value cookie : String) : Document where
  openapi := "3.0.3"
  info := { title := "Pets", description := none, version := "1" }
  servers := []
  paths := .ofEntries
    [("/pets", { (default : PathItem) with
        parameters := []
        get := some { Document.tagged ["pet"] with
          summary := some description
          description := some description
          parameters := [.inline ⟨cookie, .cookie, some description, false, none⟩] } })]
  components := some
    { schemas := .ofEntries [("Pet", .inline { Schema.ofType "object" with
        description := some description
        properties := [("kind", .inline { Schema.ofType "string" with
          description := some description
          enumValues := [.text value] })] })] }

/-- For the models and for the APIs of a document, whether the comments in their files close where
they should. -/
def closings (d : Document) : Option (List Bool × List Bool) :=
  (Variant.client.profile plainRun).toOption.bind (fun p =>
    (d.toClient p.policy p.options).toOption.map (fun c =>
      ((Project.writtenModels c).map (fun m => decide (Piece.AllBalanced (ModelFile.pieces p m))),
        c.apis.map (fun api => decide (Piece.AllBalanced (ApiFile.pieces p api))))))

/-- What the answers for a document are about: its models and APIs, in their order. -/
theorem exists_of_closings {d : Document} {models apis : List Bool}
    (h : closings d = some (models, apis)) :
    ∃ p c, Variant.client.profile plainRun = .ok p ∧ d.toClient p.policy p.options = .ok c
      ∧ (Project.writtenModels c).map
          (fun m => decide (Piece.AllBalanced (ModelFile.pieces p m))) = models
      ∧ c.apis.map (fun api => decide (Piece.AllBalanced (ApiFile.pieces p api))) = apis := by
  obtain ⟨p, hp, h⟩ := Option.bind_eq_some_iff.mp h
  obtain ⟨c, hc, h⟩ := Option.map_eq_some_iff.mp h
  obtain ⟨hmodels, hapis⟩ := Prod.mk.inj h
  exact ⟨p, c, toOption_eq_some.mp hp, toOption_eq_some.mp hc, hmodels, hapis⟩

/-- The statement at a document whose descriptions have a closing sign. It is broken up, so
all comments of the models close where they should. -/
theorem commentsClose_files_iff_of_ending :
    Variant.client ∈ all ∧ ∃ p c, Variant.client.profile plainRun = .ok p
      ∧ (documentSaying "Pets */ and more" "cat" "shop").toClient p.policy p.options = .ok c
      ∧ (∀ m ∈ Project.writtenModels c, Piece.AllBalanced (ModelFile.pieces p m))
      ∧ (∀ m ∈ Project.writtenModels c,
          Piece.texts (ModelFile.pieces p m) = (ModelFile.file p m).content
          ∧ (Piece.CommentsClose (ModelFile.pieces p m) ↔ ModelFile.Contained m))
      ∧ ∀ api ∈ c.apis, Piece.texts (ApiFile.pieces p api) = (ApiFile.file p api).content
          ∧ (Piece.CommentsClose (ApiFile.pieces p api)
            ↔ ∀ call ∈ api.calls, ApiFile.Contained p call) := by
  have hv : Variant.client ∈ all := List.mem_cons_self
  have hclosings : closings (documentSaying "Pets */ and more" "cat" "shop")
      = some ([true], [true]) := by
    decide +kernel
  obtain ⟨p, c, hp, hc, hmodels, -⟩ := exists_of_closings hclosings
  obtain ⟨m, hm, hbalanced⟩ := List.map_eq_singleton_iff.mp hmodels
  refine ⟨hv, p, c, hp, hc, ?_, commentsClose_files_iff hv hp hc⟩
  intro m' hm'
  rw [hm] at hm'
  rw [List.mem_singleton.mp hm']
  exact of_decide_eq_true hbalanced

/-- **A text of the document can end a comment, or leave one open**: a value ends the comment of a
property, a description leaves those of a model and of an operation open, and the name of a cookie
ends its own. -/
theorem exists_not_commentsClose :
    Variant.client ∈ all
      ∧ (∀ d ∈ [documentSaying "Pets" "*/" "shop", documentSaying "/pets/*" "cat" "shop"],
        ∃ p c, Variant.client.profile plainRun = .ok p ∧ d.toClient p.policy p.options = .ok c
          ∧ ∃ m ∈ Project.writtenModels c, ¬ Piece.CommentsClose (ModelFile.pieces p m))
      ∧ ∀ d ∈ [documentSaying "/pets/*" "cat" "shop", documentSaying "Pets" "cat" "*/"],
        ∃ p c, Variant.client.profile plainRun = .ok p ∧ d.toClient p.policy p.options = .ok c
          ∧ ∃ api ∈ c.apis, ¬ Piece.CommentsClose (ApiFile.pieces p api) := by
  have hmodel : ∀ d ∈ [documentSaying "Pets" "*/" "shop", documentSaying "/pets/*" "cat" "shop"],
      (closings d).map Prod.fst = some [false] := by
    decide +kernel
  have hapi : ∀ d ∈ [documentSaying "/pets/*" "cat" "shop", documentSaying "Pets" "cat" "*/"],
      (closings d).map Prod.snd = some [false] := by
    decide +kernel
  refine ⟨List.mem_cons_self, fun d hd => ?_, fun d hd => ?_⟩
  · obtain ⟨⟨models, apis⟩, hclosings, hfst⟩ := Option.map_eq_some_iff.mp (hmodel d hd)
    obtain ⟨p, c, hp, hc, hmodels, -⟩ := exists_of_closings hclosings
    obtain ⟨m, hm, hopen⟩ := List.map_eq_singleton_iff.mp (hmodels.trans hfst)
    refine ⟨p, c, hp, hc, m, hm ▸ List.mem_cons_self, fun hclose => ?_⟩
    exact of_decide_eq_false hopen (Piece.commentsClose_iff.mp hclose)
  · obtain ⟨⟨models, apis⟩, hclosings, hsnd⟩ := Option.map_eq_some_iff.mp (hapi d hd)
    obtain ⟨p, c, hp, hc, -, hapis⟩ := exists_of_closings hclosings
    obtain ⟨api, hmem, hopen⟩ := List.map_eq_singleton_iff.mp (hapis.trans hsnd)
    refine ⟨p, c, hp, hc, api, hmem ▸ List.mem_cons_self, fun hclose => ?_⟩
    exact of_decide_eq_false hopen (Piece.commentsClose_iff.mp hclose)

end Variant

end ClientGen.Kotlin
