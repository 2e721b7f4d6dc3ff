import ClientGen.Proofs.Confinement
import Mathlib.Data.List.Nodup

/-!
# Which files have the same path

A file has the path of its kind, made from a folder and from the stem of a class name. The folders
of the code of models and of APIs, the folder of the pages and the files of the project keep apart
(`Kotlin.Variant.keepApart_of_profile`), so two files of the same path are of the same kind, or
pages of which one is that of a model and one that of an API: both have their pages in one folder.

Within a kind, classes of different names have files of the same path only where their names have
the same stem. The stem is the name itself, unless it has passed through and ends with a backtick.
So the paths of a run are distinct exactly if no two names of models lose their difference with
their backticks, and no model has the name of an API where pages are written for both
(`Kotlin.Variant.nodup_paths_iff`).
-/

namespace ClientGen.Kotlin

open Naming

/-! ## Stems

The stem of a class name is the name without backticks around it. Naming puts backticks
around nothing but reserved words, and no class is named like one; so they are there only if
the name of the schema has brought them along. -/

/-- Dropping a character from the front leaves a list that does not begin with it. -/
theorem dropWhile_of_head? {c : Char} {cs : List Char} (h : cs.head? ≠ some c) :
    cs.dropWhile (· = c) = cs := by
  cases cs with
  | nil => rfl
  | cons d cs =>
    have hne : ¬ decide (d = c) = true := by simpa using h
    exact List.dropWhile_cons_of_neg hne

/-- **A name is its own stem** unless it has a backtick at one of its ends. -/
theorem fileStem_eq_self {className : String} (hfront : className.toList.head? ≠ some '\x60')
    (hback : className.toList.getLast? ≠ some '\x60') : fileStem className = className := by
  rw [List.getLast?_eq_head?_reverse] at hback
  rw [fileStem, dropWhile_of_head? hfront, dropWhile_of_head? hback, List.reverse_reverse,
    String.ofList_toList]

/-- A bare name is its own stem. -/
theorem fileStem_of_isBare {className : String} (h : IsBare className) :
    fileStem className = className :=
  fileStem_eq_self (fun hhead => h.backtick_notMem (List.mem_of_head? hhead))
    (fun hlast => h.backtick_notMem (List.mem_of_getLast? hlast))

/-- **Only a name that passes through** and ends with a backtick is not its own stem. -/
theorem fileStem_modelName {before after : String} (hbefore : IsBare before)
    (hafter : IsBare after) (name : String) :
    fileStem (modelName before after name) = modelName before after name
      ∨ (PassesThrough name ∧ name.toList.getLast? = some '\x60') := by
  by_cases hpass : PassesThrough name
  · rw [modelName_of_passesThrough hpass]
    by_cases hlast : name.toList.getLast? = some '\x60'
    · exact .inr ⟨hpass, hlast⟩
    · refine .inl (fileStem_eq_self ?_ hlast)
      rcases hpass with h | h <;>
      · obtain ⟨rest, hrest⟩ := List.isPrefixOf_iff_prefix.mp h
        rw [← hrest]
        exact fun hhead => absurd (Option.some.inj hhead) (by decide)
  · exact .inl (fileStem_of_isBare (isBare_modelName hbefore hafter hpass))

/-! ## Paths

To compare paths, texts must be taken apart again. It is enough that no folder is in
another: two texts that one path begins with are such that one of them begins with the
other. -/

/-- A folder that has files with the names of classes. -/
inductive Folder where
  | models
  | apis
  /-- The pages of models and of APIs. -/
  | pages
deriving DecidableEq, Repr

namespace Folder

/-- What is asked of every folder can be checked. -/
instance {P : Folder → Prop} [DecidablePred P] : Decidable (∀ f, P f) :=
  decidable_of_iff (P models ∧ P apis ∧ P pages)
    ⟨fun ⟨hmodels, hapis, hpages⟩ f => match f with
      | models => hmodels
      | apis => hapis
      | pages => hpages,
      fun h => ⟨h models, h apis, h pages⟩⟩

/-- How the paths in a folder begin, for the folders of the code. -/
def front (modelFolder apiFolder : String) : Folder → String
  | models => modelFolder ++ "/"
  | apis => apiFolder ++ "/"
  | pages => "docs/"

/-- How they end. -/
def extension : Folder → String
  | pages => ".md"
  | _ => ".kt"

end Folder

/-- The path of a stem in a folder. -/
def pathOf (modelFolder apiFolder : String) (place : Folder × String) : String :=
  place.1.front modelFolder apiFolder ++ place.2 ++ place.1.extension

/-- The paths that the files of a project may have. -/
def projectPaths (infrastructure : String) : List String :=
  ["README.md", "build.gradle", "settings.gradle", infrastructure ++ "/ApiAbstractions.kt",
   infrastructure ++ "/Serializer.kt"]

/-- **A path begins with a text.** -/
def IsIn (front path : String) : Prop := front.toList <+: path.toList

instance (front path : String) : Decidable (IsIn front path) :=
  inferInstanceAs (Decidable (_ <+: _))

/-- **Folders keep apart** if none of them is in another, and the files of the project are distinct
and in none of them. -/
structure KeepApart (modelFolder apiFolder infrastructure : String) : Prop where
  folders : ∀ f f' : Folder, f ≠ f' →
    ¬ IsIn (f.front modelFolder apiFolder) (f'.front modelFolder apiFolder)
  project : ∀ path ∈ projectPaths infrastructure, ∀ f : Folder,
    ¬ IsIn (f.front modelFolder apiFolder) path
  distinct : (projectPaths infrastructure).Nodup

instance (modelFolder apiFolder infrastructure : String) :
    Decidable (KeepApart modelFolder apiFolder infrastructure) :=
  decidable_of_iff
    ((∀ f f' : Folder, f ≠ f' →
        ¬ IsIn (f.front modelFolder apiFolder) (f'.front modelFolder apiFolder))
      ∧ (∀ path ∈ projectPaths infrastructure, ∀ f : Folder,
        ¬ IsIn (f.front modelFolder apiFolder) path)
      ∧ (projectPaths infrastructure).Nodup)
    ⟨fun ⟨hfolders, hproject, hdistinct⟩ => ⟨hfolders, hproject, hdistinct⟩,
      fun h => ⟨h.folders, h.project, h.distinct⟩⟩

section KeepApart

variable {modelFolder apiFolder infrastructure : String}

/-- A path begins like its folder. -/
theorem isIn_pathOf (modelFolder apiFolder : String) (place : Folder × String) :
    IsIn (place.1.front modelFolder apiFolder) (pathOf modelFolder apiFolder place) := by
  rw [IsIn, pathOf, String.append_assoc, String.toList_append]
  exact List.prefix_append _ _

/-- **The folder and the stem can be read off a path** where the folders keep apart. In one
folder the stems are between the same texts; two different folders cannot be at the front of
one path. -/
theorem KeepApart.pathOf_injective (h : KeepApart modelFolder apiFolder infrastructure) :
    Function.Injective (pathOf modelFolder apiFolder) := by
  rintro ⟨f, a⟩ ⟨f', b⟩ heq
  by_cases hf : f = f'
  · subst hf
    have hstems : a.toList = b.toList := by
      have hlists := congrArg String.toList heq
      simpa [pathOf] using hlists
    rw [String.toList_inj.mp hstems]
  · -- one of two texts that a path begins with is in the other
    have hfront := isIn_pathOf modelFolder apiFolder (f, a)
    rw [heq] at hfront
    have hfront' := isIn_pathOf modelFolder apiFolder (f', b)
    rcases List.prefix_or_prefix_of_prefix hfront hfront' with hin | hin
    · exact absurd hin (h.folders f f' hf)
    · exact absurd hin (h.folders f' f (Ne.symm hf))

/-- The places of classes in a folder, if they are written. -/
def placesIf (on : Bool) (f : Folder) (classNames : List String) : List (Folder × String) :=
  if on then classNames.map (fun name => (f, fileStem name)) else []

/-- The places of classes are those of their stems. -/
theorem mem_placesIf {on : Bool} {f : Folder} {names : List String} {place : Folder × String} :
    place ∈ placesIf on f names
      ↔ on = true ∧ place.1 = f ∧ ∃ name ∈ names, fileStem name = place.2 := by
  obtain ⟨f', stem⟩ := place
  unfold placesIf
  cases on with
  | false => simp
  | true =>
    simp only [if_pos, List.mem_map, Prod.mk.injEq, true_and]
    constructor
    · rintro ⟨name, hname, rfl, rfl⟩
      exact ⟨rfl, name, hname, rfl⟩
    · rintro ⟨rfl, name, hname, rfl⟩
      exact ⟨name, hname, rfl, rfl⟩

/-- **Classes of different names have different places** exactly if no two of their names
have the same stem. Where the kind is switched off there is nothing to ask. -/
theorem nodup_placesIf {on : Bool} {f : Folder} {names : List String} (hnames : names.Nodup) :
    (placesIf on f names).Nodup
      ↔ (on = true → ∀ a ∈ names, ∀ b ∈ names, fileStem a = fileStem b → a = b) := by
  unfold placesIf
  cases on with
  | false => simp
  | true =>
    rw [if_pos rfl, List.nodup_map_iff_inj_on hnames]
    simp

/-- Places in different folders are different. -/
theorem disjoint_placesIf {on on' : Bool} {f f' : Folder} (hf : f ≠ f')
    {names names' : List String} : (placesIf on f names).Disjoint (placesIf on' f' names') :=
  fun _ h h' => hf ((mem_placesIf.mp h).2.1.symm.trans (mem_placesIf.mp h').2.1)

/-- Places in one folder are different exactly if no names of both lists have the same stem. -/
theorem disjoint_placesIf_self {on on' : Bool} {f : Folder} {names names' : List String} :
    (placesIf on f names).Disjoint (placesIf on' f names')
      ↔ (on = true → on' = true → ∀ a ∈ names, ∀ b ∈ names', fileStem a ≠ fileStem b) := by
  constructor
  · intro h hon hon' a ha b hb heq
    have hplace : (f, fileStem a) ∈ placesIf on f names :=
      mem_placesIf.mpr ⟨hon, rfl, a, ha, rfl⟩
    exact h hplace (mem_placesIf.mpr ⟨hon', rfl, b, hb, heq.symm⟩)
  · intro h place hplace hplace'
    obtain ⟨hon, -, a, ha, hstem⟩ := mem_placesIf.mp hplace
    obtain ⟨hon', -, b, hb, hstem'⟩ := mem_placesIf.mp hplace'
    exact h hon hon' a ha b hb (hstem.trans hstem'.symm)

end KeepApart

/-! ## The files of a client

A client has files of four kinds with the names of classes, each under a switch of its own,
and the files of the project. Their paths are those of places; so the question is when the
places are distinct, and it is answered kind by kind. -/

section Files

variable {p : Profile} {c : Client} {switches : Switches}

/-- **Where the files of a client are** that have the names of classes, kind by kind. -/
def places (p : Profile) (c : Client) (switches : Switches) : List (Folder × String) :=
  placesIf (switches.isOn FileClass.models.key) .models
      ((Project.writtenModels c).map (·.className))
    ++ placesIf (switches.isOn FileClass.modelDocs.key) .pages
      ((Project.writtenModels c).map (·.className))
    ++ placesIf (p.layout.writesApis && switches.isOn FileClass.apis.key) .apis
      (c.apis.map (·.className))
    ++ placesIf (p.layout.writesApis && switches.isOn FileClass.apiDocs.key) .pages
      (c.apis.map (·.className))

/-- The paths of the files of a client are those of these places, and those of the project.
The four kinds of files are alike: each is there or not, and then has one file for each
class. -/
theorem map_path_files (p : Profile) (c : Client) (switches : Switches) :
    (files p c switches).map (·.path)
      = (places p c switches).map (pathOf (packageFolder p.sourceFolder p.layout.modelPackage)
          (packageFolder p.sourceFolder p.layout.apiPackage))
        ++ (if switches.isOn FileClass.supportingFiles.key then
            (Project.files p c).map (·.path) else []) := by
  have hmap : ∀ {α : Type} (on : Bool) (as : List α) (file : α → SourceFile) (f : Folder)
      (name : α → String), (∀ a, (file a).path
        = pathOf (packageFolder p.sourceFolder p.layout.modelPackage)
          (packageFolder p.sourceFolder p.layout.apiPackage) (f, fileStem (name a))) →
      (if on then as.map file else []).map (·.path)
        = (placesIf on f (as.map name)).map (pathOf
          (packageFolder p.sourceFolder p.layout.modelPackage)
          (packageFolder p.sourceFolder p.layout.apiPackage)) := by
    intro α on as file f name hfile
    unfold placesIf
    cases on with
    | false => rfl
    | true =>
      rw [if_pos rfl, if_pos rfl, List.map_map, List.map_map, List.map_map]
      exact List.map_congr_left (fun a _ => hfile a)
  unfold files places
  simp only [List.map_append]
  rw [hmap _ _ _ .models (·.className) (fun _ => rfl),
    hmap _ _ _ .pages (·.className) (fun _ => rfl), hmap _ _ _ .apis (·.className) (fun _ => rfl),
    hmap _ _ _ .pages (·.className) (fun _ => rfl), apply_ite (List.map _)]
  rfl

/-- The files of a project have some of these paths, each once. -/
theorem sublist_projectPaths :
    (if switches.isOn FileClass.supportingFiles.key then
      (Project.files p c).map (·.path) else []).Sublist
        (projectPaths (Project.infrastructureFolder p)) := by
  unfold Project.files
  split_ifs
  · exact List.Sublist.refl _
  · exact List.sublist_append_left ["README.md", "build.gradle", "settings.gradle"] _
  · exact List.nil_sublist _

/-- **The paths of a client are distinct exactly if the places are**, where the folders keep
apart. -/
theorem nodup_map_path_files
    (hp : KeepApart (packageFolder p.sourceFolder p.layout.modelPackage)
      (packageFolder p.sourceFolder p.layout.apiPackage) (Project.infrastructureFolder p)) :
    ((files p c switches).map (·.path)).Nodup ↔ (places p c switches).Nodup := by
  rw [map_path_files, List.nodup_append', List.nodup_map_iff hp.pathOf_injective]
  refine and_iff_left ⟨hp.distinct.sublist sublist_projectPaths, fun path hpath hproject => ?_⟩
  obtain ⟨place, -, rfl⟩ := List.mem_map.mp hpath
  exact hp.project _ (sublist_projectPaths.subset hproject) place.1 (isIn_pathOf _ _ place)

/-- **When the places of a client are distinct**, if its classes have different names and
those of its APIs are their own stems. Of the pairs of kinds, all but one are in different
folders; what is left are the models among themselves, and the pages of models beside those
of APIs. -/
theorem nodup_places_iff (hmodels : ((Project.writtenModels c).map (·.className)).Nodup)
    (hapis : (c.apis.map (·.className)).Nodup)
    (hstems : ∀ api ∈ c.apis, fileStem api.className = api.className) :
    (places p c switches).Nodup
      ↔ (switches.isOn FileClass.models.key = true ∨ switches.isOn FileClass.modelDocs.key = true →
          ∀ m ∈ Project.writtenModels c, ∀ m' ∈ Project.writtenModels c,
            fileStem m.className = fileStem m'.className → m.className = m'.className)
        ∧ (p.layout.writesApis = true → switches.isOn FileClass.modelDocs.key = true →
          switches.isOn FileClass.apiDocs.key = true →
          ∀ m ∈ Project.writtenModels c, ∀ api ∈ c.apis,
            fileStem m.className ≠ api.className) := by
  have hinj : ∀ a ∈ c.apis.map (·.className), ∀ b ∈ c.apis.map (·.className),
      fileStem a = fileStem b → a = b := by
    intro a ha b hb heq
    obtain ⟨api, hapi, rfl⟩ := List.mem_map.mp ha
    obtain ⟨api', hapi', rfl⟩ := List.mem_map.mp hb
    rwa [hstems api hapi, hstems api' hapi'] at heq
  have hapiPlaces : ∀ on f, (placesIf on f (c.apis.map (·.className))).Nodup :=
    fun on f => (nodup_placesIf hapis).mpr (fun _ => hinj)
  have hmodelsPages : Folder.models ≠ .pages := by decide
  have hmodelsApis : Folder.models ≠ .apis := by decide
  have hpagesApis : Folder.pages ≠ .apis := by decide
  -- only the pages of models and those of APIs are in one folder
  have hcommon : (∀ m ∈ Project.writtenModels c, ∀ api ∈ c.apis,
        fileStem m.className ≠ fileStem api.className)
      ↔ ∀ m ∈ Project.writtenModels c, ∀ api ∈ c.apis, fileStem m.className ≠ api.className :=
    forall₂_congr (fun m _ => forall₂_congr (fun api hapi => by rw [hstems api hapi]))
  unfold places
  simp only [List.nodup_append', List.disjoint_append_left, nodup_placesIf hmodels, hapiPlaces,
    disjoint_placesIf hmodelsPages, disjoint_placesIf hmodelsApis, disjoint_placesIf hpagesApis,
    disjoint_placesIf hpagesApis.symm, disjoint_placesIf_self, List.forall_mem_map, hcommon,
    Bool.and_eq_true, and_true, true_and, or_imp]
  exact and_congr_right' ⟨fun h hwrites hmodelDocs hapiDocs => h hmodelDocs ⟨hwrites, hapiDocs⟩,
    fun h hmodelDocs hapis => h hapis.1 hmodelDocs hapis.2⟩

end Files

/-! ## Runs without settings

Folders can be set to anything, even to one another. A run without settings has those of its
variant, and for these the conditions can be checked. -/

namespace Variant

variable {v : Variant} {run : ResolvedRun} {p : Profile} {d : Document} {client : Client}

/-- The folders of the variants keep apart, which is checked for each of them. -/
theorem keepApart_of_mem_all : ∀ v ∈ all,
    KeepApart (packageFolder defaultSourceFolder (defaultPackage ++ "." ++ v.modelSegment))
      (packageFolder defaultSourceFolder (defaultPackage ++ ".api"))
      (packageFolder defaultSourceFolder defaultPackage ++ "/infrastructure") := by
  decide +kernel

/-- **The folders of a run without settings keep apart**, whichever library it is for. -/
theorem keepApart_of_profile (hv : v ∈ all) (hrun : run.settings = .empty)
    (h : v.profile run = .ok p) :
    KeepApart (packageFolder p.sourceFolder p.layout.modelPackage)
      (packageFolder p.sourceFolder p.layout.apiPackage) (Project.infrastructureFolder p) := by
  obtain ⟨library, -, -, -, -, hlayout, -, -, -, hsource⟩ := profile_eq_ok h
  rw [hrun] at hlayout hsource
  have hpackages := packages_withSettings_empty v library
  rw [← hlayout] at hpackages
  simp only [List.cons.injEq, and_true] at hpackages
  obtain ⟨hpackage, hmodel, hapi⟩ := hpackages
  have hsource' : p.sourceFolder = defaultSourceFolder := hsource
  rw [Project.infrastructureFolder, hsource', hpackage, hmodel, hapi]
  exact keepApart_of_mem_all v hv

/-- **When the files of a run have distinct paths**, where nothing is set and classes of one kind
have distinct names: no two names of models may lose their difference with their backticks, and
no model may have the name of an API if pages are written for both. Only the name of a schema that
passes through can lose backticks.

The paths are taken for any switches, since these turn off kinds of files and with them
conditions. What is assumed of the class names is that no two models, and no two APIs, have
the same one. -/
theorem nodup_paths_iff (hv : v ∈ all) (hrun : run.settings = .empty) (hp : v.profile run = .ok p)
    (h : d.toClient p.policy p.options = .ok client)
    (hmodels : ((Project.writtenModels client).map (·.className)).Nodup)
    (hapis : (client.apis.map (·.className)).Nodup) :
    (∀ switches : Switches, ((files p client switches).map (·.path)).Nodup
      ↔ (switches.isOn FileClass.models.key = true ∨ switches.isOn FileClass.modelDocs.key = true →
          ∀ m ∈ Project.writtenModels client, ∀ m' ∈ Project.writtenModels client,
            fileStem m.className = fileStem m'.className → m.className = m'.className)
        ∧ (p.layout.writesApis = true → switches.isOn FileClass.modelDocs.key = true →
          switches.isOn FileClass.apiDocs.key = true →
          ∀ m ∈ Project.writtenModels client, ∀ api ∈ client.apis,
            fileStem m.className ≠ api.className))
      ∧ ∀ m ∈ Project.writtenModels client, fileStem m.className = m.className
        ∨ (PassesThrough m.name ∧ m.name.toList.getLast? = some '\x60') := by
  obtain ⟨hbefore, hafter, hapiAfter⟩ := isBare_of_profile hv hrun hp
  have hstems : ∀ api ∈ client.apis, fileStem api.className = api.className := by
    intro api hapi
    rw [Document.className_of_mem_apis h hapi]
    exact fileStem_of_isBare (isBare_apiName hapiAfter api.tag)
  constructor
  · intro switches
    rw [nodup_map_path_files (keepApart_of_profile hv hrun hp)]
    exact nodup_places_iff hmodels hapis hstems
  · intro m hm
    rw [(Document.names_of_mem_models h (List.mem_filter.mp hm).1).2]
    exact fileStem_modelName hbefore hafter m.name

/-- A document with an operation of a tag and with schemas of some names. -/
def documentListing (tag : String) (names : List String) : Document where
  openapi := "3.0.3"
  info := { title := "Pets", description := none, version := "1" }
  servers := []
  paths := .ofEntries
    [("/pets", { (default : PathItem) with
        parameters := [], get := some (Document.tagged [tag]) })]
  components := some
    { schemas := .ofEntries (names.map (fun name => (name, .inline { Schema.ofType "object" with
        properties := [("name", .inline (.ofType "string"))] }))) }

/-- The names of the classes of models and of APIs of a document, and the paths of its files. -/
def namesAndPaths (d : Document) : Option (List String × List String × List String) :=
  (Variant.client.profile plainRun).toOption.bind (fun p =>
    (d.toClient p.policy p.options).toOption.map (fun c =>
      ((Project.writtenModels c).map (·.className), c.apis.map (·.className),
        (files p c .empty).map (·.path))))

/-- What is computed for a document, said of the client that it becomes. -/
theorem exists_of_namesAndPaths {d : Document} {models apis paths : List String}
    (h : namesAndPaths d = some (models, apis, paths)) :
    ∃ p c, Variant.client.profile plainRun = .ok p ∧ d.toClient p.policy p.options = .ok c
      ∧ (Project.writtenModels c).map (·.className) = models ∧ c.apis.map (·.className) = apis
      ∧ (files p c .empty).map (·.path) = paths := by
  obtain ⟨p, hp, h⟩ := Option.bind_eq_some_iff.mp h
  obtain ⟨c, hc, h⟩ := Option.map_eq_some_iff.mp h
  obtain ⟨hmodels, h⟩ := Prod.mk.inj h
  obtain ⟨hapis, hpaths⟩ := Prod.mk.inj h
  exact ⟨p, c, toOption_eq_some.mp hp, toOption_eq_some.mp hc, hmodels, hapis, hpaths⟩

/-- A name that passes through and ends with a backtick: its files have none, and are apart
from the others all the same. -/
theorem nodup_paths_iff_of_pets :
    Variant.client ∈ all ∧ plainRun.settings = .empty
      ∧ ∃ p c, Variant.client.profile plainRun = .ok p
        ∧ (documentListing "pet" ["Pet", "kotlin.Pet\x60"]).toClient p.policy p.options = .ok c
        ∧ ((Project.writtenModels c).map (·.className)).Nodup ∧ (c.apis.map (·.className)).Nodup
        ∧ (files p c .empty).map (·.path)
          = ["src/main/kotlin/org/openapitools/client/model/Pet.kt",
            "src/main/kotlin/org/openapitools/client/model/kotlin.Pet.kt",
            "docs/Pet.md", "docs/kotlin.Pet.md",
            "src/main/kotlin/org/openapitools/client/api/PetApi.kt", "docs/PetApi.md",
            "README.md", "build.gradle", "settings.gradle"]
        ∧ (∀ switches : Switches, ((files p c switches).map (·.path)).Nodup
          ↔ (switches.isOn FileClass.models.key = true
              ∨ switches.isOn FileClass.modelDocs.key = true →
              ∀ m ∈ Project.writtenModels c, ∀ m' ∈ Project.writtenModels c,
                fileStem m.className = fileStem m'.className → m.className = m'.className)
            ∧ (p.layout.writesApis = true → switches.isOn FileClass.modelDocs.key = true →
              switches.isOn FileClass.apiDocs.key = true →
              ∀ m ∈ Project.writtenModels c, ∀ api ∈ c.apis,
                fileStem m.className ≠ api.className))
        ∧ ∀ m ∈ Project.writtenModels c, fileStem m.className = m.className
          ∨ (PassesThrough m.name ∧ m.name.toList.getLast? = some '\x60') := by
  have hpaths : namesAndPaths (documentListing "pet" ["Pet", "kotlin.Pet\x60"])
      = some (["Pet", "kotlin.Pet\x60"], ["PetApi"],
          ["src/main/kotlin/org/openapitools/client/model/Pet.kt",
            "src/main/kotlin/org/openapitools/client/model/kotlin.Pet.kt",
            "docs/Pet.md", "docs/kotlin.Pet.md",
            "src/main/kotlin/org/openapitools/client/api/PetApi.kt", "docs/PetApi.md",
            "README.md", "build.gradle", "settings.gradle"]) := by
    decide +kernel
  obtain ⟨p, c, hp, hc, hmodels, hapis, hpaths⟩ := exists_of_namesAndPaths hpaths
  have hv : Variant.client ∈ all := List.mem_cons_self
  have hmodels' : ((Project.writtenModels c).map (·.className)).Nodup := by
    rw [hmodels]
    decide
  have hapis' : (c.apis.map (·.className)).Nodup := by
    rw [hapis]
    decide
  exact ⟨hv, rfl, p, c, hp, hc, hmodels', hapis', hpaths,
    nodup_paths_iff hv rfl hp hc hmodels' hapis'⟩

/-- **Two files of a run can have the same path** although classes of one kind have distinct
names: the page of a model and that of an API, or the files of two models. The one that is
written later is then all that is left. -/
theorem exists_not_nodup_paths :
    Variant.client ∈ all ∧ plainRun.settings = .empty
      ∧ ∀ d ∈ [documentListing "pet" ["PetApi"],
          documentListing "pet" ["kotlin.Pet", "kotlin.Pet\x60"]],
        ∃ p c, Variant.client.profile plainRun = .ok p ∧ d.toClient p.policy p.options = .ok c
          ∧ ((Project.writtenModels c).map (·.className)).Nodup
          ∧ (c.apis.map (·.className)).Nodup
          ∧ ¬ ((files p c .empty).map (·.path)).Nodup := by
  have hall : ∀ d ∈ [documentListing "pet" ["PetApi"],
      documentListing "pet" ["kotlin.Pet", "kotlin.Pet\x60"]],
      (namesAndPaths d).map (fun found =>
        decide (found.1.Nodup ∧ found.2.1.Nodup ∧ ¬ found.2.2.Nodup)) = some true := by
    decide +kernel
  refine ⟨List.mem_cons_self, rfl, fun d hd => ?_⟩
  obtain ⟨⟨models, apis, paths⟩, hfound, hdistinct⟩ := Option.map_eq_some_iff.mp (hall d hd)
  obtain ⟨p, c, hp, hc, rfl, rfl, rfl⟩ := exists_of_namesAndPaths hfound
  exact ⟨p, c, hp, hc, of_decide_eq_true hdistinct⟩

end Variant

end ClientGen.Kotlin
