import ClientGen.Proofs.Profiles
import ClientGen.Proofs.Switches

/-!
# The settings that a profile hands on are settled

A variant reads about twenty settings and writes some of them back: a flag for each library, the
library itself, flags that were given as texts, the packages. All that it writes is a list of
entries with distinct keys (`Kotlin.Variant.writes`), and the settings handed on are the given
ones with these entries written (`Kotlin.Variant.settingsFor_eq`). What it reads is of two kinds.
Most keys it reads are none that it writes; a flag is written as the flag that was read. So the
settings handed on are read as the given ones were (`Kotlin.Variant.readAlike_settingsFor`), and
reading them once more writes what is there already.

The packages, the artifact and the library are the exception: they are written as what they have
been settled to, from then on they are given, and what is given is taken as it is
(`Kotlin.Layout.withSettings_eq`, `Kotlin.Variant.choose_settled`). So a profile is that of the
settings that it hands on (`Kotlin.Variant.profile_settles`).
-/

namespace ClientGen

/-! ## Writing what is there

An ordered map is left alone by writing what it holds, entry by entry and in the same order.
This is the law of maps on which everything else here rests. -/

namespace Entries

variable {α : Type}

/-- Writing an entry that is there leaves the entries as they are, each in its place. -/
theorem put_of_find? {es : Entries α} {key : String} {value : α} (h : es.find? key = some value) :
    es.put key value = es := by
  induction es with
  | nil => cases h
  | cons e es ih =>
    obtain ⟨k, v⟩ := e
    rw [find?] at h
    rw [put]
    split_ifs at h ⊢ with hk
    · cases h
      rfl
    · rw [ih h]

end Entries

namespace OrderedMap

variable {α : Type} {m : OrderedMap α} {es : Entries α}

/-- Two lists of entries are written one after the other. -/
theorem putAll_append (m : OrderedMap α) (es fs : Entries α) :
    m.putAll (es ++ fs) = (m.putAll es).putAll fs :=
  List.foldl_append

/-- **Writing what is there changes nothing.** -/
theorem putAll_of_forall_find? (h : ∀ e ∈ es, m.find? e.1 = some e.2) : m.putAll es = m := by
  induction es with
  | nil => rfl
  | cons e es ih =>
    have hput : m.put e.1 e.2 = m :=
      eq_of_entries (Entries.put_of_find? (h e List.mem_cons_self))
    show (m.put e.1 e.2).putAll es = m
    rw [hput]
    exact ih (fun f hf => h f (.tail e hf))

/-- What is written is there. -/
theorem find?_putAll_of_mem (hes : es.keys.Nodup) {e : String × α} (he : e ∈ es) :
    (m.putAll es).find? e.1 = some e.2 := by
  rw [find?_putAll hes, (Entries.find?_eq_some_iff hes).mpr he, Option.some_or]

/-- Elsewhere nothing changes. -/
theorem find?_putAll_of_notMem (hes : es.keys.Nodup) {key : String} (hkey : key ∉ es.keys) :
    (m.putAll es).find? key = m.find? key := by
  rw [find?_putAll hes, Entries.find?_eq_none hkey, Option.none_or]

end OrderedMap

/-! ## Flags

A flag may be given as a flag or as a text, and is written as a flag once it has been read.
To settle flags is to go through their keys and write those that are set. -/

namespace Settings

variable {settings settings' : Settings} {key : String}

/-- The entry that settles a flag, if the flag is set. -/
def settledFlag? (settings : Settings) (key : String) : Option (String × Setting) :=
  (settings.flagOf? key).map (fun b => (key, .flag b))

/-- A flag depends on what is written under its key. -/
theorem flagOf?_congr (h : settings'.find? key = settings.find? key) :
    settings'.flagOf? key = settings.flagOf? key := by
  rw [flagOf?, h]
  rfl

/-- A flag is read as the flag that it is. -/
theorem flagOf?_of_find? {b : Bool} (h : settings.find? key = some (.flag b)) :
    settings.flagOf? key = some b := by
  rw [flagOf?, h]
  rfl

/-- **Settling flags is writing their entries.** -/
theorem foldl_settleFlag {flags : List String} (h : flags.Nodup) (settings : Settings) :
    flags.foldl settleFlag settings = settings.putAll (flags.filterMap settings.settledFlag?) := by
  induction flags generalizing settings with
  | nil => rfl
  | cons key flags ih =>
    obtain ⟨hkey, hflags⟩ := List.nodup_cons.mp h
    rw [List.foldl_cons, ih hflags, List.filterMap_cons, settleFlag, settledFlag?]
    cases settings.flagOf? key with
    | none => rfl
    | some b =>
      -- The other flags are read as before.
      have hothers : flags.filterMap (settledFlag? (settings.put key (.flag b)))
          = flags.filterMap settings.settledFlag? := by
        refine List.filterMap_congr (fun other hother => congrArg (Option.map _) ?_)
        have hne : key ≠ other := fun heq => hkey (heq ▸ hother)
        have hfind : (settings.put key (.flag b)).find? other = settings.find? other :=
          Entries.find?_put_of_ne settings.entries (.flag b) hne
        exact flagOf?_congr hfind
      exact congrArg (OrderedMap.putAll _) hothers

/-- Only flags that are asked for are settled, in their order. -/
theorem keys_settledFlags_sublist (settings : Settings) (flags : List String) :
    (Entries.keys (flags.filterMap settings.settledFlag?)).Sublist flags := by
  induction flags with
  | nil => exact .refl []
  | cons key flags ih =>
    rw [List.filterMap_cons, settledFlag?]
    cases settings.flagOf? key with
    | none => exact ih.cons key
    | some b => exact ih.cons_cons key

end Settings

namespace Kotlin

/-! ## What a variant writes

The entries in their order, group by group, and the keys of each group. That all these keys
are different is decided once, for the list of all keys that any variant may write
(`Kotlin.Variant.nodup_writtenKeys`); what one variant writes is a sublist of it. -/

/-- The entries for the libraries: a flag for each, and the chosen one. -/
def libraryEntries (libraries : List Library) (chosen : Option Library) : Entries Setting :=
  libraries.map (fun l => (l.name, .flag (chosen = some l)))
    ++ chosen.toList.map (fun l => (Key.library, .text l.name))

/-- The entries for the representation of dates. -/
def dateEntries : Option DateLibrary → Entries Setting
  | some .java8 => [(DateLibrary.java8.name, .flag true)]
  | some .threetenbp => [(DateLibrary.threetenbp.name, .flag true)]
  | _ => []

/-- The entries for the type of collections. -/
def collectionEntries : Option CollectionType → Entries Setting
  | some .list => [(Key.isList, .flag true)]
  | _ => []

/-- The entries for a layout. -/
def layoutEntries (l : Layout) (sourceFolder : String) : Entries Setting :=
  [(Key.package, .text l.package), (Key.apiPackage, .text l.apiPackage),
   (Key.modelPackage, .text l.modelPackage), (Key.artifact, .text l.artifact),
   (Key.sourceFolder, .text sourceFolder)]

namespace Variant

/-- The entries for the types that are chosen. -/
def typeEntries (v : Variant) (given : Settings) : Entries Setting :=
  dateEntries (v.dates? given) ++ collectionEntries (v.collections? given)

/-- The flags that a variant settles. -/
def settledFlags (v : Variant) : List String := declaredFlags.filter v.declares ++ commonFlags

/-- **All that a variant writes** into the settings that it is given. -/
def writes (v : Variant) (given : Settings) (l : Layout) (sourceFolder : String) :
    Entries Setting :=
  libraryEntries v.libraries l.library
    ++ (v.typeEntries given ++ v.settledFlags.filterMap given.settledFlag?
      ++ layoutEntries l sourceFolder)

/-- The keys that are written for the libraries. -/
def libraryKeys : List String := Library.all.map Library.name ++ [Key.library]

/-- The keys that are written for types. -/
def typeKeys : List String := [DateLibrary.java8.name, DateLibrary.threetenbp.name, Key.isList]

/-- The flags that any variant settles. -/
def flagKeys : List String := declaredFlags ++ commonFlags

/-- The keys of a layout. -/
def layoutKeys : List String :=
  [Key.package, Key.apiPackage, Key.modelPackage, Key.artifact, Key.sourceFolder]

/-- All keys that may be written, in their order. -/
def writtenKeys : List String := libraryKeys ++ (typeKeys ++ flagKeys ++ layoutKeys)

/-- **No key is written twice**, by whichever variant. -/
theorem nodup_writtenKeys : writtenKeys.Nodup := by decide

variable {v : Variant} {given given' : Settings} {l : Layout} {library : Option Library}
variable {sourceFolder : String}

/-- What is written for types has keys for types. -/
theorem keys_typeEntries_sublist : (v.typeEntries given).keys.Sublist typeKeys := by
  have hdates : ∀ dates, (Entries.keys (dateEntries dates)).Sublist
      [DateLibrary.java8.name, DateLibrary.threetenbp.name] := by
    rintro (_ | _ | _ | _ | _) <;> decide
  have hcollections : ∀ collections, (Entries.keys (collectionEntries collections)).Sublist
      [Key.isList] := by
    rintro (_ | _ | _) <;> decide
  rw [typeEntries, Entries.keys, List.map_append]
  exact (hdates _).append (hcollections _)

/-- A variant settles flags that it declares, and the common ones. -/
theorem settledFlags_sublist : v.settledFlags.Sublist flagKeys :=
  List.Sublist.append List.filter_sublist (.refl _)

/-- What is written apart from the libraries. -/
theorem keys_otherEntries_sublist :
    (Entries.keys (v.typeEntries given ++ v.settledFlags.filterMap given.settledFlag?
      ++ layoutEntries l sourceFolder)).Sublist (typeKeys ++ flagKeys ++ layoutKeys) := by
  rw [Entries.keys, List.map_append, List.map_append]
  refine .append (.append ?_ ?_) (.refl _)
  · exact keys_typeEntries_sublist
  · exact (Settings.keys_settledFlags_sublist given _).trans settledFlags_sublist

section Writing

variable (hv : v.libraries.Sublist Library.all)
include hv

/-- What is written for libraries has their names for keys, and the key of the library. The
libraries of a variant are listed in the order of all libraries, and this is used only here. -/
theorem keys_libraryEntries_sublist :
    (Entries.keys (libraryEntries v.libraries library)).Sublist libraryKeys := by
  rw [Entries.keys, libraryEntries, List.map_append, List.map_map, List.map_map]
  refine List.Sublist.append (hv.map Library.name) ?_
  cases library with
  | none => exact List.nil_sublist _
  | some l => exact .refl _

/-- All that is written has keys that may be written, in their order. -/
theorem keys_writes_sublist : (v.writes given l sourceFolder).keys.Sublist writtenKeys := by
  rw [writes, Entries.keys, List.map_append]
  exact (keys_libraryEntries_sublist hv).append keys_otherEntries_sublist

/-- So no variant writes a key twice. -/
theorem nodup_keys_writes : (v.writes given l sourceFolder).keys.Nodup :=
  nodup_writtenKeys.sublist (keys_writes_sublist hv)

/-- What is written before flags are settled. -/
theorem keys_frontEntries_sublist :
    (Entries.keys (libraryEntries v.libraries library ++ v.typeEntries given)).Sublist
      (libraryKeys ++ typeKeys) := by
  rw [Entries.keys, List.map_append]
  exact (keys_libraryEntries_sublist hv).append keys_typeEntries_sublist

/-- **The settings handed on are the given ones with what is written.** The program goes
through the libraries, the types, the flags and the layout one after the other. Flags are
the one group that is read from settings that have been written to already, so the keys
written before them must be no flags. -/
theorem settingsFor_eq :
    v.settingsFor given l sourceFolder = given.putAll (v.writes given l sourceFolder) := by
  have hlibraries : ∀ settings : Settings, Settings.withLibraries settings v.libraries l.library
      = settings.putAll (libraryEntries v.libraries l.library) := by
    intro settings
    have hflagged : v.libraries.foldl
        (fun settings library => settings.put library.name (.flag (l.library = some library)))
          settings
        = settings.putAll
          (v.libraries.map (fun library => (library.name, .flag (l.library = some library)))) := by
      rw [OrderedMap.putAll, List.foldl_map]
    rw [libraryEntries, OrderedMap.putAll_append, ← hflagged]
    unfold Settings.withLibraries
    cases l.library <;> rfl
  have hdates : ∀ (settings : Settings) dates, Settings.withDates settings dates
      = settings.putAll (dateEntries dates) := by
    rintro settings (_ | _ | _ | _ | _) <;> rfl
  have hcollections : ∀ (settings : Settings) collections,
      Settings.withCollections settings collections
        = settings.putAll (collectionEntries collections) := by
    rintro settings (_ | _ | _) <;> rfl
  have hfront : Settings.withCollections (Settings.withDates
      (Settings.withLibraries given v.libraries l.library) (v.dates? given)) (v.collections? given)
        = given.putAll (libraryEntries v.libraries l.library ++ v.typeEntries given) := by
    rw [hlibraries, hdates, hcollections, typeEntries, OrderedMap.putAll_append,
      OrderedMap.putAll_append]
  have hnodup : v.settledFlags.Nodup :=
    (by decide : flagKeys.Nodup).sublist settledFlags_sublist
  -- No flag is written in front, so they are read as they are given.
  have hread : v.settledFlags.filterMap (Settings.settledFlag?
      (given.putAll (libraryEntries v.libraries l.library ++ v.typeEntries given)))
        = v.settledFlags.filterMap given.settledFlag? := by
    refine List.filterMap_congr (fun key hkey => congrArg (Option.map _) ?_)
    have hsublist := @keys_frontEntries_sublist v given l.library hv
    refine Settings.flagOf?_congr (OrderedMap.find?_putAll_of_notMem ?_ (fun hmem => ?_))
    · exact (by decide : (libraryKeys ++ typeKeys).Nodup).sublist hsublist
    · exact (by decide : ∀ key ∈ flagKeys, key ∉ libraryKeys ++ typeKeys) key
        (settledFlags_sublist.subset hkey) (hsublist.subset hmem)
  calc v.settingsFor given l sourceFolder
      = ((given.putAll (libraryEntries v.libraries l.library ++ v.typeEntries given)).putAll
          (v.settledFlags.filterMap given.settledFlag?)).putAll (layoutEntries l sourceFolder) := by
        unfold settingsFor
        dsimp only
        rw [hfront, ← settledFlags, Settings.foldl_settleFlag hnodup, hread]
        rfl
    _ = given.putAll (v.writes given l sourceFolder) := by
        simp only [writes, OrderedMap.putAll_append]

/-- What is written is handed on. -/
theorem find?_settingsFor_of_mem {e : String × Setting}
    (he : e ∈ v.writes given l sourceFolder) :
    (v.settingsFor given l sourceFolder).find? e.1 = some e.2 := by
  rw [settingsFor_eq hv]
  exact OrderedMap.find?_putAll_of_mem (nodup_keys_writes hv) he

/-- The texts of the layout are handed on. -/
theorem text?_settingsFor_layout :
    (v.settingsFor given l sourceFolder).text? Key.package = some l.package
    ∧ (v.settingsFor given l sourceFolder).text? Key.apiPackage = some l.apiPackage
    ∧ (v.settingsFor given l sourceFolder).text? Key.modelPackage = some l.modelPackage
    ∧ (v.settingsFor given l sourceFolder).text? Key.artifact = some l.artifact
    ∧ (v.settingsFor given l sourceFolder).text? Key.sourceFolder = some sourceFolder := by
  have htext : ∀ {key text : String}, (key, Setting.text text) ∈ layoutEntries l sourceFolder →
      (v.settingsFor given l sourceFolder).text? key = some text := by
    intro key text he
    have hfind : (v.settingsFor given l sourceFolder).find? key = some (.text text) :=
      find?_settingsFor_of_mem hv (List.mem_append_right _ (List.mem_append_right _ he))
    rw [Settings.text?, hfind]
    rfl
  refine ⟨htext ?_, htext ?_, htext ?_, htext ?_, htext ?_⟩ <;> simp [layoutEntries]

end Writing

/-! ## What a variant reads

Each function that reads settings has one lemma: it gives the same on settings that are read
alike. The keys that it asks for are none that is written, or are those of flags. -/

/-- **Settings are read alike** as others: what is written under no key is the same, and so are
the flags. -/
structure ReadAlike (given given' : Settings) : Prop where
  unwritten : ∀ key ∉ writtenKeys, given'.find? key = given.find? key
  flags : ∀ key ∈ flagKeys, given'.flagOf? key = given.flagOf? key

/-- What is written as a flag is what the flag was read as. -/
theorem flagOf?_of_mem_writes (hv : v.libraries.Sublist Library.all) {key : String}
    {value : Setting} (hkey : key ∈ flagKeys) (h : (key, value) ∈ v.writes given l sourceFolder) :
    ∃ b, given.flagOf? key = some b ∧ value = .flag b := by
  obtain ⟨hlibrary, htype, hlayout⟩ := (by decide : ∀ key ∈ flagKeys,
    key ∉ libraryKeys ∧ key ∉ typeKeys ∧ key ∉ layoutKeys) key hkey
  rcases List.mem_append.mp h with h | h
  · exact absurd ((keys_libraryEntries_sublist hv).subset (List.mem_map_of_mem h)) hlibrary
  rcases List.mem_append.mp h with h | h
  · rcases List.mem_append.mp h with h | h
    · exact absurd (keys_typeEntries_sublist.subset (List.mem_map_of_mem h)) htype
    · obtain ⟨flag, -, hflag⟩ := List.mem_filterMap.mp h
      obtain ⟨b, hb, heq⟩ := Option.map_eq_some_iff.mp hflag
      cases heq
      exact ⟨b, hb, rfl⟩
  · exact absurd (List.mem_map_of_mem (f := Prod.fst) h) hlayout

/-- **The settings handed on are read as the given ones.** A key that is not written has
what it had; a flag that is written has what it was read as; and a flag that is not written
was not set. -/
theorem readAlike_settingsFor (hv : v.libraries.Sublist Library.all) :
    ReadAlike given (v.settingsFor given l sourceFolder) := by
  rw [settingsFor_eq hv]
  constructor
  · intro key hkey
    exact OrderedMap.find?_putAll_of_notMem (nodup_keys_writes hv)
      (fun hmem => hkey ((keys_writes_sublist hv).subset hmem))
  · intro key hkey
    cases hfind : (v.writes given l sourceFolder).find? key with
    | none =>
      refine Settings.flagOf?_congr ?_
      rw [OrderedMap.find?_putAll (nodup_keys_writes hv), hfind, Option.none_or]
    | some value =>
      have hmem := Entries.mem_of_find?_eq_some hfind
      obtain ⟨b, hb, rfl⟩ := flagOf?_of_mem_writes hv hkey hmem
      rw [hb]
      exact Settings.flagOf?_of_find? (OrderedMap.find?_putAll_of_mem (nodup_keys_writes hv) hmem)

namespace ReadAlike

variable (h : ReadAlike given given')
include h

/-- A text is read alike under a key that is not written. -/
theorem text? {key : String} (hkey : key ∉ writtenKeys) : given'.text? key = given.text? key := by
  rw [Settings.text?, h.unwritten key hkey]
  rfl

/-- A text that the variant declares is read alike; any other is none. -/
theorem declaredText? {key : String} (hkey : key ∉ writtenKeys) :
    v.declaredText? given' key = v.declaredText? given key := by
  rw [Variant.declaredText?, h.text? hkey]
  rfl

/-- A flag that the variant declares is read alike. -/
theorem declaredFlag? {key : String} (hkey : key ∈ flagKeys) :
    v.declaredFlag? given' key = v.declaredFlag? given key := by
  rw [Variant.declaredFlag?, h.flags key hkey]
  rfl

/-- The representation of dates is read alike: it is asked for under a key that is not
written. -/
theorem dates? : v.dates? given' = v.dates? given := by
  rw [Variant.dates?, h.text? (by decide)]
  rfl

/-- The type of collections is read alike. -/
theorem collections? : v.collections? given' = v.collections? given := by
  rw [Variant.collections?, h.declaredText? (by decide)]
  rfl

/-- The case of constants is read alike. -/
theorem constants : v.constants given' = v.constants given := by
  rw [Variant.constants, h.declaredText? (by decide)]
  rfl

/-- Whether the date of requests is acceptable is answered alike. -/
theorem checkRequestDate : v.checkRequestDate given' = v.checkRequestDate given := by
  rw [Variant.checkRequestDate, h.text? (by decide)]
  rfl

/-- **The options of the conversion are read alike.** -/
theorem options (constants : Naming.ConstantCase) :
    v.options given' constants = v.options given constants := by
  have hstyle : v.style given' constants = v.style given constants := by
    rw [style, style, h.declaredText? (by decide), h.declaredText? (by decide),
      h.declaredText? (by decide)]
  have htypes : v.types given' = v.types given := by
    rw [types, types, h.dates?, h.collections?]
  rw [Variant.options, Variant.options, hstyle, htypes, h.declaredFlag? (by decide),
    h.declaredFlag? (by decide), h.declaredFlag? (by decide), h.declaredFlag? (by decide),
    h.unwritten _ (by decide)]

/-- So the same is written. -/
theorem writes : v.writes given' l sourceFolder = v.writes given l sourceFolder := by
  have hflags : v.settledFlags.filterMap given'.settledFlag?
      = v.settledFlags.filterMap given.settledFlag? := by
    refine List.filterMap_congr (fun key hkey => congrArg (Option.map _) (h.flags key ?_))
    exact settledFlags_sublist.subset hkey
  rw [Variant.writes, Variant.writes, hflags, typeEntries, typeEntries, h.dates?, h.collections?]

end ReadAlike

end Variant

/-! ## What is given is taken as it is

Packages, the artifact and the library have a default that depends on other settings. Once
they are written they are given, and the default is not asked for. -/

/-- **Packages and an artifact that are given** are those of the layout. -/
theorem Layout.withSettings_eq {l : Layout} {given settings : Settings}
    (hpackage : settings.text? Key.package = some (l.withSettings given).package)
    (hapiPackage : settings.text? Key.apiPackage = some (l.withSettings given).apiPackage)
    (hmodelPackage : settings.text? Key.modelPackage = some (l.withSettings given).modelPackage)
    (hartifact : settings.text? Key.artifact = some (l.withSettings given).artifact) :
    l.withSettings settings = l.withSettings given := by
  rw [withSettings]
  dsimp only
  rw [hpackage, hapiPackage, hmodelPackage, hartifact]
  rfl

/-- Libraries are told apart by their names. -/
theorem Library.name_injective : Function.Injective Library.name := by
  rintro (_ | _ | _ | _ | _) (_ | _ | _ | _ | _) h <;> first | rfl | exact absurd h (by decide)

/-- No library is called like the key of the library. -/
theorem Library.name_ne_library (l : Library) : l.name ≠ Key.library := by
  cases l <;> decide

namespace Variant

variable {v : Variant} {given : Settings} {run : ResolvedRun} {p : Profile}
variable {library : Option Library} {requested : Option String}

/-- A library is found by its name. -/
theorem library?_name {l : Library} (hl : l ∈ v.libraries) : v.library? l.name = some l := by
  rw [library?]
  cases h : v.libraries.find? (fun library => library.name = l.name) with
  | none => exact absurd (decide_eq_true rfl) (List.find?_eq_none.mp h l hl)
  | some found =>
    have hname : found.name = l.name := by simpa using List.find?_some h
    rw [Library.name_injective hname]

/-- The library that is chosen is one of the variant's. -/
theorem mem_libraries_of_choose (hv : ∀ l ∈ v.defaultLibrary, l ∈ v.libraries) {l : Library}
    (h : v.choose requested = .ok (some l)) : l ∈ v.libraries := by
  cases requested with
  | none => exact hv l (Except.ok.inj h)
  | some name =>
    rw [choose] at h
    cases hfound : v.library? name with
    | none =>
      rw [hfound] at h
      cases h
    | some found =>
      rw [hfound] at h
      cases h
      exact List.mem_of_find?_eq_some hfound

/-- The library of a layout is written, if it has one. If not, no other entry has this key:
the libraries themselves are written under their names, and none is called so. -/
theorem find?_writes_library (hv : v.libraries.Sublist Library.all) {l : Layout}
    {sourceFolder : String} :
    (v.writes given l sourceFolder).find? Key.library
      = l.library.map (fun library => .text library.name) := by
  cases hlibrary : l.library with
  | some library =>
    refine (Entries.find?_eq_some_iff (nodup_keys_writes hv)).mpr (List.mem_append_left _ ?_)
    rw [libraryEntries, hlibrary]
    exact List.mem_append_right _ (List.mem_singleton.mpr rfl)
  | none =>
    refine Entries.find?_eq_none (fun hmem => ?_)
    rw [writes, hlibrary, Entries.keys, List.map_append] at hmem
    rcases List.mem_append.mp hmem with hmem | hmem
    · rw [libraryEntries, Option.toList_none, List.map_nil, List.append_nil, List.map_map] at hmem
      obtain ⟨other, -, hname⟩ := List.mem_map.mp hmem
      exact Library.name_ne_library other hname
    · exact (by decide : Key.library ∉ typeKeys ++ flagKeys ++ layoutKeys)
        (keys_otherEntries_sublist.subset hmem)

/-- **The library is chosen again**: the choice is written, and a request that names none is
one that still names none if there is no choice. -/
theorem choose_settled (hv : v.libraries.Sublist Library.all)
    (hdefault : ∀ l ∈ v.defaultLibrary, l ∈ v.libraries) {named : Option String} {l : Layout}
    {sourceFolder : String}
    (h : v.choose (named.orElse (fun _ => given.text? Key.library)) = .ok l.library) :
    v.choose (named.orElse
      (fun _ => (v.settingsFor given l sourceFolder).text? Key.library)) = .ok l.library := by
  cases named with
  | some name => exact h
  | none =>
    change v.choose (given.text? Key.library) = .ok l.library at h
    show v.choose ((v.settingsFor given l sourceFolder).text? Key.library) = .ok l.library
    rw [settingsFor_eq hv, Settings.text?, OrderedMap.find?_putAll (nodup_keys_writes hv),
      find?_writes_library hv]
    cases hlibrary : l.library with
    | some library =>
      rw [hlibrary] at h
      show v.choose (some library.name) = _
      rw [choose, library?_name (mem_libraries_of_choose hdefault h)]
    | none =>
      rw [hlibrary] at h
      exact h

/-- **Handing on settings once more** changes nothing. -/
theorem settingsFor_settingsFor (hv : v.libraries.Sublist Library.all) {l : Layout}
    {sourceFolder : String} :
    v.settingsFor (v.settingsFor given l sourceFolder) l sourceFolder
      = v.settingsFor given l sourceFolder := by
  have hwrites : v.writes (v.settingsFor given l sourceFolder) l sourceFolder
      = v.writes given l sourceFolder := (readAlike_settingsFor hv).writes
  rw [settingsFor_eq hv, hwrites]
  exact OrderedMap.putAll_of_forall_find? (fun _ he => find?_settingsFor_of_mem hv he)

/-- The profile of the settings that a profile hands on is that profile. Its layout is the
same because what has been settled is given now, and the rest because the settings are read
alike. -/
theorem profileOf_settings (hv : v.libraries.Sublist Library.all)
    (constants : Naming.ConstantCase) :
    v.profileOf (v.profileOf given library constants).settings library constants
      = v.profileOf given library constants := by
  let layout := (v.layoutFor library).withSettings given
  let sourceFolder := (given.text? Key.sourceFolder).getD defaultSourceFolder
  let settled := v.settingsFor given layout sourceFolder
  have hread : ReadAlike given settled := readAlike_settingsFor hv
  obtain ⟨hpackage, hapiPackage, hmodelPackage, hartifact, hfolder⟩ :=
    @text?_settingsFor_layout v given layout sourceFolder hv
  have hlayout : (v.layoutFor library).withSettings settled = layout :=
    Layout.withSettings_eq hpackage hapiPackage hmodelPackage hartifact
  have hsourceFolder :
      (settled.text? Key.sourceFolder).getD defaultSourceFolder = sourceFolder := by
    show ((v.settingsFor given layout sourceFolder).text? Key.sourceFolder).getD _ = _
    rw [hfolder, Option.getD_some]
  have hoptions : v.options settled constants = v.options given constants :=
    hread.options constants
  have hinfrastructure : v.declaredFlag? settled Key.infrastructure
      = v.declaredFlag? given Key.infrastructure := hread.declaredFlag? (by decide)
  show v.profileOf settled library constants = v.profileOf given library constants
  rw [profileOf, hlayout, hsourceFolder, hoptions, hinfrastructure,
    show v.settingsFor settled layout sourceFolder = settled from settingsFor_settingsFor hv]
  rfl

/-! ## Normal profiles

The conditions on a variant are properties of the list of variants, which is finite, and are
decided for each member. -/

/-- What the variants have in common: their libraries are listed in the order of all libraries,
the one chosen without being asked for is one of them, and no policy is that of several
platforms unless the library is. -/
theorem common_of_mem_all : ∀ v ∈ all,
    v.libraries.Sublist Library.all ∧ (∀ l ∈ v.defaultLibrary, l ∈ v.libraries)
      ∧ v.policy.putsPathFirst = false ∧ v.policy.binaryType = none := by
  decide +kernel

/-- **A profile is settled.** It is the profile of the settings that it hands on, entry by entry
and in the same order. Of the flags for the libraries of the variant, the one of the chosen
library is on and all others are off; on several platforms and only there, path parameters come
first and binary parameters are streamed; API classes are written if the variant has them and
models are no entities.

The settings that are handed on are read as the given ones, but for the packages, the artifact and
the library, which are read as what they have been settled to. The rest is how a profile is made of
what has been read. -/
theorem profile_settles (hv : v ∈ all) (h : v.profile run = .ok p) :
    v.profile { run with settings := p.settings } = .ok p
    ∧ v.choose (run.library.orElse (fun _ => run.settings.text? Key.library)) = .ok p.layout.library
    ∧ (∀ l ∈ v.libraries, p.settings.find? l.name = some (.flag (p.layout.library = some l)))
    ∧ (p.policy.putsPathFirst = true ↔ p.layout.library = some .multiplatform)
    ∧ p.policy.binaryType
      = (if p.layout.library = some .multiplatform then some streamType else none)
    ∧ (p.layout.writesApis = true ↔ v.writesApis = true ∧ p.layout.entityPackage = none) := by
  obtain ⟨hlibraries, hdefault, hpathFirst, hbinary⟩ := common_of_mem_all v hv
  obtain ⟨library, constants, hchosen, hconstants, hcheck, rfl⟩ := profile_eq_ok_iff.mp h
  have hread : ReadAlike run.settings (v.profileOf run.settings library constants).settings :=
    readAlike_settingsFor hlibraries
  refine ⟨profile_eq_ok_iff.mpr ⟨library, constants, ?_, ?_, ?_, ?_⟩, hchosen, ?_, ?_, ?_, ?_⟩
  · exact choose_settled hlibraries hdefault (l := (v.layoutFor library).withSettings run.settings)
      hchosen
  · exact hread.constants.trans hconstants
  · exact hread.checkRequestDate.trans hcheck
  · exact (profileOf_settings hlibraries constants).symm
  · intro l hl
    refine find?_settingsFor_of_mem hlibraries (e := (l.name, _)) ?_
    exact List.mem_append_left _ (List.mem_append_left _ (List.mem_map_of_mem hl))
  · show (v.policyFor library).putsPathFirst = true ↔ library = some .multiplatform
    unfold policyFor
    split_ifs with hlibrary <;> simp [hlibrary, hpathFirst]
  · show (v.policyFor library).binaryType = if library = some .multiplatform then _ else _
    unfold policyFor
    split_ifs with hlibrary
    · rfl
    · exact hbinary
  · show (v.writesApis && (v.entityPackageFor library).isNone) = true
      ↔ v.writesApis = true ∧ v.entityPackageFor library = none
    rw [Bool.and_eq_true, Option.isNone_iff_eq_none]

/-- A run that sets a package and a library, and flags as texts and as what is no flag. -/
def mixedRun : ResolvedRun where
  input := "/project/api.json"
  output := "/project/build"
  generator := "kotlin-client-v2"
  library := none
  settings := .ofEntries
    [(Key.package, .text "org.shop"), (Library.room.name, .text "true"),
      (Key.emptyClasses, .text "TRUE"), (Key.library, .text Library.multiplatform.name),
      (Key.infrastructure, .list []), (Key.collectionType, .text "list")]
  switches := .empty

/-- The profile of this run keeps what was given in its place and appends what it writes,
and a second profile of these settings is the same. -/
theorem profile_settles_of_mixed :
    client ∈ all ∧ ∃ p, client.profile mixedRun = .ok p
      ∧ p.layout.apiPackage = "org.shop.api"
      ∧ p.settings.entries.keys
        = [Key.package, Library.room.name, Key.emptyClasses, Key.library, Key.infrastructure,
          Key.collectionType, Library.multiplatform.name, Library.okhttp4.name,
          Library.retrofit2.name, Library.room2.name, DateLibrary.java8.name, Key.isList,
          Key.apiPackage, Key.modelPackage, Key.artifact, Key.sourceFolder]
      ∧ client.profile { mixedRun with settings := p.settings } = .ok p
      ∧ p.policy.putsPathFirst = true := by
  have hprofile : (client.profile mixedRun).toOption.map (fun p =>
      (p.layout.apiPackage, p.settings.entries.keys, p.layout.library))
      = some ("org.shop.api", [Key.package, Library.room.name, Key.emptyClasses, Key.library,
          Key.infrastructure, Key.collectionType, Library.multiplatform.name,
          Library.okhttp4.name, Library.retrofit2.name, Library.room2.name,
          DateLibrary.java8.name, Key.isList, Key.apiPackage, Key.modelPackage, Key.artifact,
          Key.sourceFolder], some .multiplatform) := by
    decide +kernel
  obtain ⟨p, hp, hmixed⟩ := Option.map_eq_some_iff.mp hprofile
  obtain ⟨hpackage, hmixed⟩ := Prod.mk.inj hmixed
  obtain ⟨hkeys, hlibrary⟩ := Prod.mk.inj hmixed
  rw [toOption_eq_some] at hp
  have hv : client ∈ all := by decide +kernel
  obtain ⟨hsettled, -, -, hpathFirst, -, -⟩ := profile_settles hv hp
  exact ⟨hv, p, hp, hpackage, hkeys, hsettled, hpathFirst.mpr hlibrary⟩

end Variant

end Kotlin

end ClientGen
