import ClientGen.Kotlin.Generation
import ClientGen.Proofs.Grouping
import ClientGen.Proofs.Identifiers
import ClientGen.Proofs.Places
import ClientGen.Proofs.Profiles
import Mathlib.Data.List.TakeWhile

/-!
# Which files stay inside the output directory

The path of a generated file is made from a folder of the run and from the name of a class, and
the name of a class from a name of the document. The folder is one of plain names where nothing
is set (`Kotlin.Variant.isConfined_of_profile`). A plain name of a class is one segment of a path,
so the files of APIs stay where they belong whatever the tags are.

A schema whose name begins like that of a type of the libraries passes its name through, and with
it any slashes. If a segment of it goes back, so does the path of its file. This is the only way
out (`Kotlin.Variant.generate_isParentFree_iff`), and it does lead out of the output directory
(`Kotlin.Variant.generate_leaves`).
-/

namespace ClientGen

/-! ## Segments

A path goes back if one of its segments is `..`, so it matters where slashes are. A file
adds an extension to its stem, and the extension goes to the last segment: with it, this one
cannot be `..` any more. -/

namespace Text

/-- What is put behind a text without a separator in it goes to the last piece. -/
theorem exists_pieces_append {sep : Char} {back : List Char} (hback : sep ∉ back)
    (cs : List Char) :
    ∃ front last, pieces sep cs = front ++ [last]
      ∧ pieces sep (cs ++ back) = front ++ [last ++ back] := by
  induction cs with
  | nil => exact ⟨[], [], rfl, pieces_of_notMem hback⟩
  | cons c cs ih =>
    obtain ⟨front, last, hcs, happend⟩ := ih
    rw [List.cons_append, pieces, pieces, hcs, happend]
    by_cases hc : c = sep
    · exact ⟨[] :: front, last, if_pos hc, if_pos hc⟩
    · rw [if_neg hc, if_neg hc]
      cases front with
      | nil => exact ⟨[], c :: last, rfl, rfl⟩
      | cons piece front => exact ⟨(c :: piece) :: front, last, rfl, rfl⟩

/-- Replacing a pattern by itself changes nothing. -/
theorem replaceFirst_self (s pattern : String) : replaceFirst s pattern pattern = s := by
  have hself : ∀ cs, replaceFirstIn pattern.toList pattern.toList cs = cs := by
    intro cs
    induction cs with
    | nil => rfl
    | cons c cs ih =>
      unfold replaceFirstIn
      split_ifs with hfront
      · obtain ⟨rest, hrest⟩ := List.isPrefixOf_iff_prefix.mp hfront
        rw [← hrest, List.drop_left]
      · rw [ih]
  rw [replaceFirst, hself, String.ofList_toList]

/-- The same of the segments of a path. -/
theorem exists_split_append {back : String} (hback : '/' ∉ back.toList) (s : String) :
    ∃ front last, split s '/' = front ++ [last]
      ∧ split (s ++ back) '/' = front ++ [last ++ back] := by
  obtain ⟨front, last, hs, happend⟩ := exists_pieces_append hback s.toList
  refine ⟨front.map String.ofList, String.ofList last, ?_, ?_⟩
  · rw [split, hs, List.map_append, List.map_singleton]
  · rw [split, String.toList_append, happend, List.map_append, List.map_singleton,
      String.ofList_append, String.ofList_toList]

end Text

namespace Path

/-- **A folder that leads down**: a relative path that never goes back. -/
def LeadsDown (folder : String) : Prop :=
  folder ≠ "" ∧ ¬ isAbsolute folder ∧ IsParentFree folder

instance (folder : String) : Decidable (LeadsDown folder) :=
  inferInstanceAs (Decidable (_ ∧ _ ∧ _))

/-- A path in two parts never goes back if neither of them does. -/
theorem isParentFree_append {a b : String} :
    IsParentFree (a ++ "/" ++ b) ↔ IsParentFree a ∧ IsParentFree b := by
  unfold IsParentFree
  rw [Text.split_append, List.mem_append, not_or]

/-- **A file in a folder goes back** exactly if a segment before the last one of its stem
does: the last one carries the extension, and is too long for `..` then. -/
theorem LeadsDown.file {folder stem extension : String} (h : LeadsDown folder)
    (hslash : '/' ∉ extension.toList) (hlength : 2 < extension.length) :
    ¬ isAbsolute (folder ++ "/" ++ stem ++ extension)
      ∧ (IsParentFree (folder ++ "/" ++ stem ++ extension)
        ↔ ".." ∉ (Text.split stem '/').dropLast) := by
  obtain ⟨hne, hrelative, hfree⟩ := h
  obtain ⟨front, last, hstem, hfile⟩ := Text.exists_split_append hslash stem
  have hlast : ".." ≠ last ++ extension := by
    intro h
    have hlong := congrArg String.length h
    rw [String.length_append] at hlong
    have htwo : "..".length = 2 := rfl
    omega
  have hpath : folder ++ "/" ++ stem ++ extension = folder ++ "/" ++ (stem ++ extension) :=
    String.append_assoc
  constructor
  · rw [hpath, String.append_assoc, isAbsolute_append hne]
    exact hrelative
  · rw [hpath, isParentFree_append, and_iff_right hfree, IsParentFree, hfile, hstem,
      List.dropLast_concat, List.mem_append, List.mem_singleton, or_iff_left hlast]

/-- **A relative path is followed from where the directory leads.** A directory that is
written with a slash at its end has an empty segment there, which leads nowhere. -/
theorem place?_join {output path : String} {place : Host.Place} (h : place? output = some place)
    (hpath : ¬ isAbsolute path) :
    place? (join output path) = some ((Text.split path '/').foldl Host.Session.descend place) := by
  obtain ⟨habsolute, hplace⟩ : isAbsolute output = true
      ∧ (Text.split output '/').foldl Host.Session.descend [] = place := by
    unfold place? at h
    split_ifs at h with habsolute
    exact ⟨habsolute, Option.some.inj h⟩
  have hne : output ≠ "" := by
    rintro rfl
    exact absurd habsolute (by decide)
  have hempty : output.isEmpty = false := by simpa using hne
  unfold place? join
  rw [hempty, Bool.or_false, if_neg hpath, ← hplace]
  split_ifs with hslash hjoined hjoined
  · -- an output directory with a slash at its end has an empty segment there
    obtain ⟨front, hfront⟩ := List.isSuffixOf_iff_suffix.mp hslash
    obtain rfl : output = String.ofList front ++ "/" := by
      rw [← String.toList_inj, String.toList_append, String.toList_ofList, hfront]
    have hend := Text.split_append (String.ofList front) ""
    rw [String.append_empty] at hend
    rw [hend, Text.split_append, List.foldl_append, List.foldl_append]
    rfl
  · exact absurd ((isAbsolute_append hne path).trans habsolute) hjoined
  · rw [Text.split_append, List.foldl_append]
  · refine absurd ?_ hjoined
    rw [String.append_assoc, isAbsolute_append hne, habsolute]

/-- So it stays below if it never goes back. -/
theorem place?_join_of_parentFree {output path : String} {place : Host.Place}
    (h : place? output = some place) (hpath : ¬ isAbsolute path) (hfree : IsParentFree path) :
    place? (join output path) = some (place ++ (Text.split path '/').filter counts) := by
  rw [place?_join h hpath, foldl_descend hfree]

end Path

/-! ## The file of a class

The stem of a file is the name of a class without backticks at its ends, and removing those
neither makes nor breaks a segment other than the last one. So only the name matters; and a
plain name has no slash. -/

namespace Kotlin

open Naming

/-- The stem of a file has no characters that the name of its class has not. -/
theorem mem_fileStem {className : String} {c : Char} (h : c ∈ (fileStem className).toList) :
    c ∈ className.toList := by
  rw [fileStem, String.toList_ofList, List.mem_reverse] at h
  exact (List.dropWhile_sublist _).subset
    (List.mem_reverse.mp ((List.dropWhile_sublist _).subset h))

/-- A name that passes through loses at most some characters other than slashes at its end. -/
theorem exists_of_passesThrough {name : String} (h : PassesThrough name) :
    ∃ back, name = fileStem name ++ back ∧ '/' ∉ back.toList := by
  -- no backtick is at the front, where the name of a package is
  have hfront : name.toList.dropWhile (· = '\x60') = name.toList := by
    rcases h with h | h <;>
    · obtain ⟨rest, hrest⟩ := List.isPrefixOf_iff_prefix.mp h
      rw [← hrest]
      rfl
  refine ⟨String.ofList (name.toList.reverse.takeWhile (· = '\x60')).reverse, ?_, ?_⟩
  · rw [← String.toList_inj, String.toList_append, fileStem, hfront, String.toList_ofList,
      String.toList_ofList, ← List.reverse_append, List.takeWhile_append_dropWhile,
      List.reverse_reverse]
  · rw [String.toList_ofList, List.mem_reverse]
    intro hmem
    exact absurd (List.mem_takeWhile_imp hmem) (by decide)

/-- **A name climbs** if it passes through and has a segment before its last one that goes
back. -/
def Climbs (name : String) : Prop :=
  PassesThrough name ∧ ".." ∈ (Text.split name '/').dropLast

instance (name : String) : Decidable (Climbs name) := inferInstanceAs (Decidable (_ ∧ _))

/-- A plain name is one segment. -/
theorem not_mem_of_isPlain {className : String} (h : IsPlain className) :
    ".." ∉ (Text.split (fileStem className) '/').dropLast := by
  rw [Text.split, Text.pieces_of_notMem (fun hmem => h.slash_notMem (mem_fileStem hmem))]
  exact List.not_mem_nil

/-- **The stem of the file of a model goes back** exactly if the name of its schema climbs.
If the name passes through it is that of the class, and otherwise the class has a plain
name. -/
theorem mem_fileStem_modelName_iff {before after : String} (hbefore : IsPlain before)
    (hafter : IsPlain after) (name : String) :
    ".." ∈ (Text.split (fileStem (modelName before after name)) '/').dropLast ↔ Climbs name := by
  by_cases hpass : PassesThrough name
  · obtain ⟨back, hname, hback⟩ := exists_of_passesThrough hpass
    obtain ⟨front, last, hstem, hsplit⟩ := Text.exists_split_append hback (fileStem name)
    rw [← hname] at hsplit
    rw [modelName_of_passesThrough hpass, Climbs, hstem, hsplit, List.dropLast_concat,
      List.dropLast_concat]
    exact (and_iff_right hpass).symm
  · exact ⟨fun hmem => absurd hmem (not_mem_of_isPlain (isPlain_modelName hbefore hafter hpass)),
      fun hclimbs => absurd hclimbs.1 hpass⟩

/-! ## The files of a client

What the files of a client need of the profile is put together in one notion, so that it is
asked of the profile once and not at every kind of file. -/

open ClientGen.Path (IsParentFree isAbsolute)

/-- **A profile is confined** if its folders lead down, and what it puts around the names of
classes is plain. -/
structure Profile.IsConfined (p : Profile) : Prop where
  folders : ∀ package ∈ [p.layout.package, p.layout.modelPackage, p.layout.apiPackage],
    Path.LeadsDown (packageFolder p.sourceFolder package)
  modelBefore : IsPlain p.options.style.modelBefore
  modelAfter : IsPlain p.options.style.modelAfter
  apiAfter : IsPlain p.options.style.apiAfter

/-- What the files of a client are: kind by kind, whatever kinds the switches leave. -/
theorem mem_files {p : Profile} {c : Client} {switches : Switches} {file : SourceFile}
    (h : file ∈ files p c switches) :
    (∃ m ∈ Project.writtenModels c, file = ModelFile.file p m ∨ file = Documentation.modelPage m)
      ∨ (∃ api ∈ c.apis, file = ApiFile.file p api ∨ file = Documentation.apiPage c.basePath api)
      ∨ file ∈ Project.files p c := by
  have hmap : ∀ {α : Type} {on : Bool} {l : List α} {f : α → SourceFile},
      file ∈ (if on then l.map f else []) → ∃ a ∈ l, file = f a := by
    intro α on l f h
    split_ifs at h
    · obtain ⟨a, ha, rfl⟩ := List.mem_map.mp h
      exact ⟨a, ha, rfl⟩
    · cases h
  unfold files at h
  simp only [List.mem_append] at h
  rcases h with (((h | h) | h) | h) | h
  · obtain ⟨m, hm, hfile⟩ := hmap h
    exact .inl ⟨m, hm, .inl hfile⟩
  · obtain ⟨m, hm, hfile⟩ := hmap h
    exact .inl ⟨m, hm, .inr hfile⟩
  · obtain ⟨api, hapi, hfile⟩ := hmap h
    exact .inr (.inl ⟨api, hapi, .inl hfile⟩)
  · obtain ⟨api, hapi, hfile⟩ := hmap h
    exact .inr (.inl ⟨api, hapi, .inr hfile⟩)
  · split_ifs at h
    · exact .inr (.inr h)
    · cases h

/-- The file of a class, or its page. -/
theorem spec_of_class {folder className path : String} (hfolder : Path.LeadsDown folder)
    (h : path = classFile folder className ∨ path = documentationFile className) :
    ¬ isAbsolute path
      ∧ (IsParentFree path ↔ ".." ∉ (Text.split (fileStem className) '/').dropLast) := by
  have hdocs : ("docs/" : String) = "docs" ++ "/" := by decide
  rcases h with rfl | rfl
  · exact hfolder.file (by decide) (by decide)
  · rw [documentationFile, hdocs]
    exact Path.LeadsDown.file (by decide) (by decide) (by decide)

section Confined

variable {p : Profile} {c : Client}

/-- The files of the project stay inside. Three of them have fixed names, and those of the
infrastructure are below the folder of the package, which leads down. -/
theorem Profile.IsConfined.of_mem_project (hp : p.IsConfined) {file : SourceFile}
    (h : file ∈ Project.files p c) : ¬ isAbsolute file.path ∧ IsParentFree file.path := by
  obtain ⟨hne, hrelative, hfree⟩ := hp.folders p.layout.package (by simp)
  have hbelow : ∀ name, IsParentFree name →
      ¬ isAbsolute (packageFolder p.sourceFolder p.layout.package ++ ("/" ++ name))
        ∧ IsParentFree (packageFolder p.sourceFolder p.layout.package ++ ("/" ++ name)) := by
    intro name hname
    rw [Path.isAbsolute_append hne, ← String.append_assoc, Path.isParentFree_append]
    exact ⟨hrelative, hfree, hname⟩
  have habstractions : (Project.abstractions p).path
      = packageFolder p.sourceFolder p.layout.package
        ++ ("/" ++ "infrastructure/ApiAbstractions.kt") :=
    String.append_assoc.trans (congrArg _ (by decide))
  have hserializer : (Project.serializer p).path
      = packageFolder p.sourceFolder p.layout.package ++ ("/" ++ "infrastructure/Serializer.kt") :=
    String.append_assoc.trans (congrArg _ (by decide))
  unfold Project.files at h
  simp only [List.mem_append, List.mem_cons, List.not_mem_nil, or_false] at h
  rcases h with (rfl | rfl | rfl) | h
  · exact (by decide : ¬ isAbsolute "README.md" ∧ IsParentFree "README.md")
  · exact (by decide : ¬ isAbsolute "build.gradle" ∧ IsParentFree "build.gradle")
  · exact (by decide : ¬ isAbsolute "settings.gradle" ∧ IsParentFree "settings.gradle")
  · split_ifs at h
    · simp only [List.mem_cons, List.not_mem_nil, or_false] at h
      rcases h with rfl | rfl
      · rw [habstractions]
        exact hbelow _ (by decide)
      · rw [hserializer]
        exact hbelow _ (by decide)
    · cases h

/-- The files of an API stay inside, whatever its tag. -/
theorem Profile.IsConfined.of_api (hp : p.IsConfined) {api : Client.Api}
    (hname : api.className = p.options.style.api api.tag) {file : SourceFile}
    (h : file = ApiFile.file p api ∨ file = Documentation.apiPage c.basePath api) :
    ¬ isAbsolute file.path ∧ IsParentFree file.path := by
  have hplain : IsPlain api.className := hname ▸ isPlain_apiName hp.apiAfter api.tag
  have hfolder := hp.folders p.layout.apiPackage (by simp)
  have hpath : file.path = classFile (packageFolder p.sourceFolder p.layout.apiPackage)
      api.className ∨ file.path = documentationFile api.className :=
    h.imp (congrArg SourceFile.path) (congrArg SourceFile.path)
  obtain ⟨hrelative, hiff⟩ := spec_of_class hfolder hpath
  exact ⟨hrelative, hiff.mpr (not_mem_of_isPlain hplain)⟩

/-- **The files of a model stay inside unless the name of its schema climbs.** -/
theorem Profile.IsConfined.of_model (hp : p.IsConfined) {m : Client.Model}
    (hname : m.className = p.options.style.model m.name) {file : SourceFile}
    (h : file = ModelFile.file p m ∨ file = Documentation.modelPage m) :
    ¬ isAbsolute file.path ∧ (IsParentFree file.path ↔ ¬ Climbs m.name) := by
  have hclimbs : ".." ∈ (Text.split (fileStem m.className) '/').dropLast ↔ Climbs m.name := by
    rw [hname]
    exact mem_fileStem_modelName_iff hp.modelBefore hp.modelAfter m.name
  have hfolder := hp.folders p.layout.modelPackage (by simp)
  have hpath : file.path = classFile (packageFolder p.sourceFolder p.layout.modelPackage)
      m.className ∨ file.path = documentationFile m.className :=
    h.imp (congrArg SourceFile.path) (congrArg SourceFile.path)
  obtain ⟨hrelative, hiff⟩ := spec_of_class hfolder hpath
  exact ⟨hrelative, hiff.trans (not_congr hclimbs)⟩

/-- **Which files of a client stay inside**: all but those of the models whose schemas have
names that climb. -/
theorem Profile.IsConfined.staysInside_iff (hp : p.IsConfined)
    (hmodels : ∀ m ∈ c.models, m.className = p.options.style.model m.name)
    (hapis : ∀ api ∈ c.apis, api.className = p.options.style.api api.tag) {switches : Switches}
    {file : SourceFile} (h : file ∈ files p c switches) :
    ¬ isAbsolute file.path
      ∧ (IsParentFree file.path ↔ ¬ ∃ m ∈ Project.writtenModels c, Climbs m.name
          ∧ (file = ModelFile.file p m ∨ file = Documentation.modelPage m)) := by
  have hmodel : ∀ m ∈ Project.writtenModels c,
      (file = ModelFile.file p m ∨ file = Documentation.modelPage m) →
        ¬ isAbsolute file.path ∧ (IsParentFree file.path ↔ ¬ Climbs m.name) :=
    fun m hm => hp.of_model (hmodels m (List.mem_filter.mp hm).1)
  -- a file that stays inside is not one of a climbing model, whatever else it is
  have hnot : IsParentFree file.path → ¬ ∃ m ∈ Project.writtenModels c, Climbs m.name
      ∧ (file = ModelFile.file p m ∨ file = Documentation.modelPage m) := by
    rintro hfree ⟨m, hm, hclimbs, hfile⟩
    exact (hmodel m hm hfile).2.mp hfree hclimbs
  rcases mem_files h with ⟨m, hm, hfile⟩ | ⟨api, hapi, hfile⟩ | hproject
  · obtain ⟨hrelative, hiff⟩ := hmodel m hm hfile
    exact ⟨hrelative, hnot, fun hnone => hiff.mpr (fun hclimbs => hnone ⟨m, hm, hclimbs, hfile⟩)⟩
  · obtain ⟨hrelative, hfree⟩ := hp.of_api (hapis api hapi) hfile
    exact ⟨hrelative, hnot, fun _ => hfree⟩
  · obtain ⟨hrelative, hfree⟩ := hp.of_mem_project hproject
    exact ⟨hrelative, hnot, fun _ => hfree⟩

end Confined

/-! ## Runs without settings

A setting can lead the folders anywhere, hence the restriction. Without settings the folders
are made of the packages of the variant, and those can be checked one by one. -/

namespace Variant

variable {v : Variant} {run : ResolvedRun} {p : Profile}

/-- Nothing is set to a text where nothing is set. -/
theorem declaredText?_empty (v : Variant) (key : String) : v.declaredText? .empty key = none := by
  unfold declaredText?
  split_ifs <;> rfl

/-- The packages of a run without settings. -/
theorem packages_withSettings_empty (v : Variant) (library : Option Library) :
    [((v.layoutFor library).withSettings .empty).package,
      ((v.layoutFor library).withSettings .empty).modelPackage,
      ((v.layoutFor library).withSettings .empty).apiPackage]
      = [defaultPackage, defaultPackage ++ "." ++ v.modelSegment, defaultPackage ++ ".api"] := by
  show [defaultPackage,
    Text.replaceFirst (defaultPackage ++ "." ++ v.modelSegment) defaultPackage defaultPackage,
    Text.replaceFirst (defaultPackage ++ ".api") defaultPackage defaultPackage] = _
  rw [Text.replaceFirst_self, Text.replaceFirst_self]

/-- The folders of the variants lead down. -/
theorem folders_of_mem_all : ∀ v ∈ all,
    ∀ package ∈ [defaultPackage, defaultPackage ++ "." ++ v.modelSegment, defaultPackage ++ ".api"],
      Path.LeadsDown (packageFolder defaultSourceFolder package) := by
  decide +kernel

/-- What the variants put behind names is bare. -/
theorem isBare_of_mem_all : ∀ v ∈ all, IsBare v.modelAfter ∧ IsBare v.apiAfter := by
  decide +kernel

/-- What a run without settings puts around names is bare. -/
theorem isBare_of_profile (hv : v ∈ all) (hrun : run.settings = .empty)
    (h : v.profile run = .ok p) : IsBare p.options.style.modelBefore
      ∧ IsBare p.options.style.modelAfter ∧ IsBare p.options.style.apiAfter := by
  obtain ⟨-, constants, -, -, -, -, -, hoptions, -⟩ := profile_eq_ok h
  rw [hoptions, hrun]
  refine ⟨?_, ?_, ?_⟩
  · show IsBare ((v.declaredText? .empty Key.modelBefore).getD "")
    rw [declaredText?_empty]
    decide
  · show IsBare ((v.declaredText? .empty Key.modelAfter).getD v.modelAfter)
    rw [declaredText?_empty]
    exact (isBare_of_mem_all v hv).1
  · show IsBare ((v.declaredText? .empty Key.apiAfter).getD v.apiAfter)
    rw [declaredText?_empty]
    exact (isBare_of_mem_all v hv).2

/-- **The profile of a run without settings is confined**, whichever library it is for. -/
theorem isConfined_of_profile (hv : v ∈ all) (hrun : run.settings = .empty)
    (h : v.profile run = .ok p) : p.IsConfined := by
  obtain ⟨hbefore, hafter, hapiAfter⟩ := isBare_of_profile hv hrun h
  obtain ⟨library, -, -, -, -, hlayout, -, -, -, hfolder⟩ := profile_eq_ok h
  rw [hrun] at hlayout hfolder
  refine ⟨?_, hbefore.isPlain, hafter.isPlain, hapiAfter.isPlain⟩
  rw [hlayout, hfolder, packages_withSettings_empty]
  exact folders_of_mem_all v hv

/-- **Which files stay inside the output directory** where nothing is set: all but those of the
models whose schemas have names that climb. So all do where no schema has such a name, whatever
else the names are and whatever the tags. A file that never goes back is written to a place
below the output directory, wherever this is.

Files are compared with those of the models one by one, so a file that is confined stays so
when another one is not. The last part leaves paths as texts: it says where they lead. -/
theorem generate_isParentFree_iff {d : Document} {switches : Switches} {written : List SourceFile}
    (hv : v ∈ all) (hrun : run.settings = .empty) (h : v.generate d run switches = .ok written) :
    ∃ p client, v.profile run = .ok p ∧ d.toClient p.policy p.options = .ok client
      ∧ (∀ file ∈ written, ¬ isAbsolute file.path
        ∧ (IsParentFree file.path ↔ ¬ ∃ m ∈ Project.writtenModels client, Climbs m.name
            ∧ (file = ModelFile.file p m ∨ file = Documentation.modelPage m)))
      ∧ ((∀ name ∈ d.componentsOrNone.inlineNames, ¬ Climbs name) →
          ∀ file ∈ written, IsParentFree file.path)
      ∧ ∀ file ∈ written, IsParentFree file.path → ∀ output place,
          Path.place? output = some place →
            ∃ below, Path.place? (Path.join output file.path) = some (place ++ below) := by
  obtain ⟨p, hp, h⟩ := except_bind_eq_ok.mp h
  obtain ⟨client, hclient, h⟩ := except_bind_eq_ok.mp h
  obtain rfl : files p client switches = written := Except.ok.inj h
  replace hclient := except_mapError_eq_ok.mp hclient
  have hfiles : ∀ file ∈ files p client switches, ¬ isAbsolute file.path
      ∧ (IsParentFree file.path ↔ ¬ ∃ m ∈ Project.writtenModels client, Climbs m.name
        ∧ (file = ModelFile.file p m ∨ file = Documentation.modelPage m)) :=
    fun file => (isConfined_of_profile hv hrun hp).staysInside_iff
      (fun _ hm => (Document.names_of_mem_models hclient hm).2)
      (fun _ => Document.className_of_mem_apis hclient)
  refine ⟨p, client, hp, hclient, hfiles, fun hnone file hfile => ?_,
    fun file hfile hfree output place hplace => ?_⟩
  · refine (hfiles file hfile).2.mpr ?_
    rintro ⟨m, hm, hclimbs, -⟩
    exact hnone m.name (Document.names_of_mem_models hclient (List.mem_filter.mp hm).1).1 hclimbs
  · exact ⟨_, Path.place?_join_of_parentFree hplace (hfiles file hfile).1 hfree⟩

/-- A run without settings. -/
def plainRun : ResolvedRun where
  input := "/project/api.json"
  output := "/project/build"
  generator := "kotlin-client-v2"
  library := none
  settings := .empty
  switches := .empty

/-- A document with a schema of a name. -/
def documentNaming (name : String) : Document where
  openapi := "3.0.3"
  info := { title := "Pets", description := none, version := "1" }
  servers := []
  paths := .ofEntries
    [("/pets", { (default : PathItem) with
        parameters := [], get := some (Document.tagged ["../../shops"]) })]
  components := some
    { schemas := .ofEntries [(name, .inline { Schema.ofType "object" with
        properties := [("name", .inline (.ofType "string"))] })] }

/-- Neither the tag nor a name that is no type of the libraries leads out. -/
theorem generate_isParentFree_of_pet :
    ∃ written, client.generate (documentNaming "../../pet") plainRun .empty = .ok written
      ∧ ∀ file ∈ written, ¬ isAbsolute file.path ∧ IsParentFree file.path := by
  have hwritten : (client.generate (documentNaming "../../pet") plainRun .empty).toOption.isSome
      = true := by
    decide +kernel
  obtain ⟨written, h⟩ := Option.isSome_iff_exists.mp hwritten
  obtain ⟨_, _, -, -, hfiles, hfree, -⟩ :=
    generate_isParentFree_iff List.mem_cons_self rfl (toOption_eq_some.mp h)
  exact ⟨written, toOption_eq_some.mp h,
    fun file hfile => ⟨(hfiles file hfile).1, hfree (by decide +kernel) file hfile⟩⟩

/-- **A schema can have a file outside the output directory**: it is written beside all that
there is, at the root. The prefix `kotlin.` is a segment of its own here, and is gone back
over like the rest. -/
theorem generate_leaves :
    client ∈ all ∧ plainRun.settings = .empty
      ∧ ∃ written, client.generate
          (documentNaming "kotlin./../../../../../../../../../../Evil") plainRun .empty
            = .ok written
        ∧ ∃ file ∈ written, ¬ IsParentFree file.path
          ∧ Path.place? plainRun.output = some ["project", "build"]
          ∧ Path.place? (Path.join plainRun.output file.path) = some ["Evil.kt"] := by
  have hpath : (client.generate
      (documentNaming "kotlin./../../../../../../../../../../Evil") plainRun .empty).toOption.bind
        (fun written => (written.map (·.path)).head?)
      = some ("src/main/kotlin/org/openapitools/client/model/kotlin."
          ++ "/../../../../../../../../../../Evil.kt") := by
    decide +kernel
  obtain ⟨written, h, hfirst⟩ := Option.bind_eq_some_iff.mp hpath
  obtain ⟨file, hfile, heq⟩ := List.mem_map.mp (List.mem_of_head? hfirst)
  refine ⟨List.mem_cons_self, rfl, written, toOption_eq_some.mp h, file, hfile, ?_⟩
  rw [heq]
  decide +kernel

end Variant

end Kotlin

end ClientGen
