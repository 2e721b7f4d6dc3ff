import ClientGen.Host.Session
import ClientGen.Path
import ClientGen.Proofs.Reference
import Mathlib.Data.List.Basic

/-!
# Where paths lead

Two paths are the same if their components are (`Path.same`), and so every path has many
spellings. An absolute path also leads somewhere without a look at the disk: its segments
are followed from the root, `..` being the way back (`Path.place?`). Where no path goes back, two
absolute paths are the same exactly if they lead to the same place
(`Path.same_iff_of_parentFree`); otherwise they need not be, as `/a` and `/a/b/..` show.

Joining a relative path adds its segments to the components of the directory
(`Path.components_join`), so a path that is joined to a directory lies below it, and a plain
name one step below (`Path.components_join_of_isName`).
-/

namespace ClientGen

namespace Text

/-- A text has pieces, be it empty or not. -/
theorem pieces_ne_nil (sep : Char) (cs : List Char) : pieces sep cs ≠ [] := by
  cases cs with
  | nil => simp [pieces]
  | cons c cs =>
    rw [pieces]
    split
    · simp
    · split <;> simp

/-- Without a separator there is one piece. -/
theorem pieces_of_notMem {sep : Char} {cs : List Char} (h : sep ∉ cs) : pieces sep cs = [cs] := by
  induction cs with
  | nil => rfl
  | cons c cs ih =>
    rw [List.mem_cons, not_or] at h
    rw [pieces, ih h.2, if_neg (Ne.symm h.1)]

/-- The same of a text: splitting it gives one piece at least. -/
theorem split_ne_nil (s : String) (sep : Char) : split s sep ≠ [] := by
  unfold split
  rw [Ne, List.map_eq_nil_iff]
  exact pieces_ne_nil sep s.toList

/-- The pieces on both sides of a separator. -/
theorem pieces_append (sep : Char) (x y : List Char) :
    pieces sep (x ++ sep :: y) = pieces sep x ++ pieces sep y := by
  induction x with
  | nil => simp [pieces]
  | cons c x ih =>
    rw [List.cons_append, pieces, pieces, ih]
    split
    · rfl
    · rcases hx : pieces sep x with _ | ⟨p, ps⟩
      · exact absurd hx (pieces_ne_nil sep x)
      · rfl

/-- A text that is joined by a slash is split there. -/
theorem split_append (a b : String) : split (a ++ "/" ++ b) '/' = split a '/' ++ split b '/' := by
  unfold split
  rw [← List.map_append, ← pieces_append, String.toList_append, String.toList_append,
    List.append_assoc]
  rfl

end Text

namespace Path

/-! ## Components

A path is split at slashes. Its components leave out what does not count, the empty segments
and `.`, but for a `.` in front, and keep `..` as it is: they say how a path is spelled and
not where it leads. -/

/-- A path is absolute exactly if it begins with a slash. -/
theorem isAbsolute_iff {path : String} : isAbsolute path = true ↔ ∃ rest, path = "/" ++ rest := by
  unfold isAbsolute Text.startsWith
  rw [List.isPrefixOf_iff_prefix]
  constructor
  · rintro ⟨rest, h⟩
    refine ⟨String.ofList rest, String.toList_inj.mp ?_⟩
    rw [← h, String.toList_append]
    exact congrArg ("/".toList ++ ·) String.toList_ofList.symm
  · rintro ⟨rest, rfl⟩
    rw [String.toList_append]
    exact List.prefix_append _ _

/-- What is added behind a path does not make it absolute. -/
theorem isAbsolute_append {a : String} (ha : a ≠ "") (b : String) :
    isAbsolute (a ++ b) = isAbsolute a := by
  unfold isAbsolute Text.startsWith
  rw [String.toList_append]
  cases h : a.toList with
  | nil => exact absurd (String.toList_eq_nil_iff.mp h) ha
  | cons c cs => rfl

/-- The components that the segments of a path make, `.` and empty ones left out. -/
def names (path : String) : List Component :=
  ((Text.split path '/').filter counts).map .segment

/-- The names of two paths joined by a slash. -/
theorem names_append (a b : String) : names (a ++ "/" ++ b) = names a ++ names b := by
  unfold names
  rw [Text.split_append, List.filter_append, List.map_append]

/-- The components behind the root. -/
theorem components_root (b : String) : components ("/" ++ b) = .root :: names b := by
  have hsplit : Text.split ("/" ++ b) '/' = "" :: Text.split b '/' := Text.split_append "" b
  unfold components headAndSegments
  rw [if_pos (isAbsolute_iff.mpr ⟨b, rfl⟩), hsplit]
  rfl

/-- The components behind a slash that is not the root. -/
theorem components_append {a : String} (ha : a ≠ "") (b : String) :
    components (a ++ "/" ++ b) = components a ++ names b := by
  obtain ⟨s, ss, hsegments⟩ := List.exists_cons_of_ne_nil (Text.split_ne_nil a '/')
  unfold components headAndSegments names
  rw [Text.split_append, String.append_assoc, isAbsolute_append ha, hsegments]
  by_cases habsolute : isAbsolute a = true
  · simp [habsolute]
  · by_cases hs : s = "."
    · simp [habsolute, hs]
    · simp [habsolute, hs, List.filter_cons]
      split_ifs <;> simp

/-- **The components of an absolute path** are the root and its names. -/
theorem components_of_isAbsolute {path : String} (h : isAbsolute path) :
    components path = .root :: names path := by
  obtain ⟨rest, rfl⟩ := isAbsolute_iff.mp h
  have hnames : names ("/" ++ rest) = names rest := names_append "" rest
  rw [components_root, hnames]

/-- **Joining a relative path adds its names** to the components of the directory. An
absolute path would replace the directory, which is why the hypothesis is needed. -/
theorem components_join {base path : String} (hbase : base ≠ "") (hpath : ¬ isAbsolute path) :
    components (join base path) = components base ++ names path := by
  have hempty : base.isEmpty = false := by simpa using hbase
  unfold join
  rw [hempty, Bool.or_false, if_neg hpath]
  split_ifs with hslash
  · obtain ⟨front, hfront⟩ := List.isSuffixOf_iff_suffix.mp hslash
    obtain rfl : base = String.ofList front ++ "/" := by
      rw [← String.toList_inj, String.toList_append, String.toList_ofList, hfront]
    generalize String.ofList front = a
    by_cases ha : a = ""
    · subst ha
      exact components_root path
    · have hnames : names "" = [] := by decide
      have hcomponents := components_append ha ""
      rw [hnames, String.append_empty, List.append_nil] at hcomponents
      rw [components_append ha, hcomponents]
  · exact components_append hbase path

/-! ## Plain names

A segment that counts and does not go back. Where a path is put together from plain names,
its components are these names. -/

/-- **A plain name**: a segment that leads one directory down. -/
def IsName (s : String) : Prop := '/' ∉ s.toList ∧ counts s ∧ s ≠ ".."

instance (s : String) : Decidable (IsName s) := inferInstanceAs (Decidable (_ ∧ _ ∧ _))

/-- A plain name is one segment. -/
theorem split_of_isName {s : String} (h : IsName s) : Text.split s '/' = [s] := by
  unfold Text.split
  rw [Text.pieces_of_notMem h.1, List.map_singleton, String.ofList_toList]

/-- A plain name begins with no slash. -/
theorem not_isAbsolute_of_isName {s : String} (h : IsName s) : ¬ isAbsolute s := by
  intro habsolute
  obtain ⟨rest, rfl⟩ := isAbsolute_iff.mp habsolute
  exact h.1 (by rw [String.toList_append]; exact List.mem_append_left _ (by decide))

/-- A plain name is one component. -/
theorem names_of_isName {s : String} (h : IsName s) : names s = [.segment s] := by
  rw [names, split_of_isName h, List.filter_cons, if_pos h.2.1]
  rfl

/-- A plain name is the next component. -/
theorem components_join_of_isName (base : String) {s : String} (h : IsName s) :
    components (join base s) = components base ++ [.segment s] := by
  by_cases hbase : base = ""
  · subst hbase
    have hhere : s ≠ "." := by
      rintro rfl
      exact absurd h.2.1 (by decide)
    have hjoin : join "" s = s := if_pos (Bool.or_true _)
    have hempty : components "" = [] := by decide
    rw [hjoin, hempty, ← names_of_isName h, names]
    unfold components headAndSegments
    simp [not_isAbsolute_of_isName h, split_of_isName h, hhere]
  · rw [components_join hbase (not_isAbsolute_of_isName h), names_of_isName h]

/-! ## Places

The place of a path is what a host without links would find there. It is defined for
absolute paths only, since a relative one leads somewhere only from a directory. -/

/-- **Where an absolute path leads** without a look at the disk: each segment is followed in
turn, `..` being the way back and the root its own way back. A relative path leads nowhere by
itself. -/
def place? (path : String) : Option Host.Place :=
  if isAbsolute path then some ((Text.split path '/').foldl Host.Session.descend []) else none

/-- **A path that never goes back**: no segment of it is `..`. -/
def IsParentFree (path : String) : Prop := ".." ∉ Text.split path '/'

instance (path : String) : Decidable (IsParentFree path) :=
  inferInstanceAs (Decidable (".." ∉ Text.split path '/'))

/-- Segments that do not go back are followed one after the other. -/
theorem foldl_descend {segments : List String} (h : ".." ∉ segments) (place : Host.Place) :
    segments.foldl Host.Session.descend place = place ++ segments.filter counts := by
  induction segments generalizing place with
  | nil => simp
  | cons s segments ih =>
    rw [List.mem_cons, not_or] at h
    rw [List.foldl_cons, ih h.2, List.filter_cons]
    unfold Host.Session.descend counts
    by_cases hempty : s = ""
    · simp [hempty]
    · by_cases hhere : s = "."
      · simp [hhere]
      · simp [hempty, hhere, Ne.symm h.1]

/-- An absolute path that never goes back leads down its segments. -/
theorem place?_of_parentFree {path : String} (habsolute : isAbsolute path)
    (h : IsParentFree path) : place? path = some ((Text.split path '/').filter counts) := by
  rw [place?, if_pos habsolute, foldl_descend h, List.nil_append]

/-- **Where neither path goes back, the same place is the same path.** Without that, two
spellings of one place can be different paths, and the comparison of components does not see
it. -/
theorem same_iff_of_parentFree {a b : String} (ha : isAbsolute a) (hb : isAbsolute b)
    (hafree : IsParentFree a) (hbfree : IsParentFree b) :
    same a b = true ↔ place? a = place? b := by
  have hinjective : Function.Injective Component.segment := fun _ _ => Component.segment.inj
  rw [same, decide_eq_true_iff, components_of_isAbsolute ha, components_of_isAbsolute hb,
    place?_of_parentFree ha hafree, place?_of_parentFree hb hbfree, List.cons_inj_right,
    Option.some_inj]
  exact hinjective.list_map.eq_iff

end Path

end ClientGen
