import ClientGen.Kotlin.Variant
import ClientGen.Run.Resolution

/-!
# Profiles

A profile is what a variant makes of a run: the layout, the policy and the
options of the conversion, and the settings as they are handed on. A setting is
read only if the variant declares it, apart from the packages, the artifact and
the two flags for paths and headers, which every variant reads.

The settings handed on are normal: flags that were written as texts are flags,
the library and the representation of dates are flags under their own names,
and the packages are filled in.
-/

namespace ClientGen.Kotlin

/-- **What a variant makes of a run.** -/
structure Profile where
  variant : String
  layout : Layout
  policy : ConversionPolicy
  options : ConversionOptions
  /-- Whether the infrastructure is generated. -/
  infrastructure : Bool
  sourceFolder : String
  /-- The settings handed on. -/
  settings : Settings
deriving Inhabited

namespace Variant

/-- The text of a setting, if it is declared and set to one. -/
def declaredText? (v : Variant) (given : Settings) (key : String) : Option String :=
  if v.declares key then given.text? key else none

/-- The flag of a setting, if it is declared and set. -/
def declaredFlag? (v : Variant) (given : Settings) (key : String) : Option Bool :=
  if v.declares key then given.flagOf? key else none

/-- The representation of dates; an unknown one is none. -/
def dates? (v : Variant) (given : Settings) : Option DateLibrary :=
  if v.declares Key.dateLibrary then
    match given.text? Key.dateLibrary with
    | some value => DateLibrary.ofName? value
    | none => some .java8
  else none

/-- The type of collections, if it is chosen. -/
def collections? (v : Variant) (given : Settings) : Option CollectionType :=
  (v.declaredText? given Key.collectionType).bind CollectionType.ofName?

/-- The types that a run gets. -/
def types (v : Variant) (given : Settings) : TypeMapping :=
  let dated := match v.dates? given with
    | some dates => TypeMapping.standard.withDates dates
    | none => .standard
  match v.collections? given with
  | some collections => dated.withCollections collections
  | none => dated

end Variant

/-- **The case of constants of an option value.** -/
def constantCase (value : String) : Except GeneratorError Naming.ConstantCase :=
  match Naming.ConstantCase.ofName? value with
  | some case_ => .ok case_
  | none => .error (.invalidSetting Key.constantCase value
      (Text.join ", " (Naming.ConstantCase.all.map Naming.ConstantCase.name)))

namespace Variant

/-- The case of constants of a run. -/
def constants (v : Variant) (given : Settings) : Except GeneratorError Naming.ConstantCase :=
  match v.declaredText? given Key.constantCase with
  | some value => constantCase value
  | none => .ok .camel

/-- Checks how dates are written in requests. -/
def checkRequestDate (v : Variant) (given : Settings) : Except GeneratorError Unit :=
  match v.declaration? Key.requestDate, given.text? Key.requestDate with
  | some d, some value =>
    if d.accepts value then .ok () else .error (.invalidSetting d.key value d.allowed)
  | _, _ => .ok ()

/-- The naming of a run. -/
def style (v : Variant) (given : Settings) (constants : Naming.ConstantCase) :
    Naming.Style where
  modelBefore := (v.declaredText? given Key.modelBefore).getD ""
  modelAfter := (v.declaredText? given Key.modelAfter).getD v.modelAfter
  apiAfter := (v.declaredText? given Key.apiAfter).getD v.apiAfter
  constants := constants

/-- The options of the conversion of a run. -/
def options (v : Variant) (given : Settings) (constants : Naming.ConstantCase) :
    ConversionOptions where
  keepsEmpty := (v.declaredFlag? given Key.emptyClasses).getD false
  loosensComposedItems := (v.declaredFlag? given Key.composedArray).getD true
  relaxesAlternatives := (v.declaredFlag? given Key.composedVars).getD false
  primitiveAliases := (v.declaredFlag? given Key.primitiveAlias).getD false
  removes := if v.declares Key.removedParameters then
      ((given.find? Key.removedParameters).map Setting.texts).getD []
    else []
  style := v.style given constants
  types := v.types given

end Variant

/-- **The layout with the packages that settings name.** A package of its own takes
the packages of models and APIs along, unless they are named as well. -/
def Layout.withSettings (l : Layout) (given : Settings) : Layout :=
  let package := (given.text? Key.package).getD l.package
  let moved (name : String) : String := Text.replaceFirst name l.package package
  { l with
    package
    apiPackage := (given.text? Key.apiPackage).getD (moved l.apiPackage)
    modelPackage := (given.text? Key.modelPackage).getD (moved l.modelPackage)
    artifact := (given.text? Key.artifact).getD l.artifact }

namespace Settings

/-- A flag for every library, which tells whether it is the chosen one. -/
def withLibraries (settings : Settings) (libraries : List Library) (chosen : Option Library) :
    Settings :=
  let flagged := libraries.foldl
    (fun settings l => settings.put l.name (.flag (chosen = some l))) settings
  match chosen with
  | some l => ClientGen.Settings.putText flagged Key.library l.name
  | none => flagged

/-- A flag for the representation of dates, if it needs one. -/
def withDates (settings : Settings) : Option DateLibrary → Settings
  | some .java8 => settings.put DateLibrary.java8.name (.flag true)
  | some .threetenbp => settings.put DateLibrary.threetenbp.name (.flag true)
  | _ => settings

/-- A flag for lists, if collections are lists. -/
def withCollections (settings : Settings) : Option CollectionType → Settings
  | some .list => settings.put Key.isList (.flag true)
  | _ => settings

/-- The packages, the artifact and the source folder filled in. -/
def withLayout (settings : Settings) (l : Layout) (sourceFolder : String) : Settings :=
  [(Key.package, l.package), (Key.apiPackage, l.apiPackage), (Key.modelPackage, l.modelPackage),
   (Key.artifact, l.artifact), (Key.sourceFolder, sourceFolder)].foldl
    (fun settings e => ClientGen.Settings.putText settings e.1 e.2) settings

end Settings

/-- The flags that are settled if they are declared. -/
def declaredFlags : List String :=
  [Key.emptyClasses, Key.composedArray, Key.composedVars, Key.primitiveAlias,
   Key.infrastructure]

/-- The flags that are settled for every variant. -/
def commonFlags : List String := [Key.dropsMinus, Key.dropsSlash]

/-- **The settings handed on** for a layout. -/
def Variant.settingsFor (v : Variant) (given : Settings) (l : Layout) (sourceFolder : String) :
    Settings :=
  let settings := Settings.withLibraries given v.libraries l.library
  let settings := Settings.withDates settings (v.dates? given)
  let settings := Settings.withCollections settings (v.collections? given)
  let flags := declaredFlags.filter v.declares ++ commonFlags
  let settings := flags.foldl ClientGen.Settings.settleFlag settings
  Settings.withLayout settings l sourceFolder

/-- **The profile of a run.** -/
def Variant.profile (v : Variant) (run : ResolvedRun) : Except GeneratorError Profile := do
  let given := run.settings
  let layout ← v.select (run.library.orElse (fun _ => given.text? Key.library))
  let constants ← v.constants given
  v.checkRequestDate given
  let sourceFolder := (given.text? Key.sourceFolder).getD defaultSourceFolder
  let layout := layout.withSettings given
  return {
    variant := v.name
    layout
    policy := v.policyFor layout.library
    options := v.options given constants
    infrastructure := (v.declaredFlag? given Key.infrastructure).getD v.infrastructure
    sourceFolder
    settings := v.settingsFor given layout sourceFolder }

namespace Profile

/-- Whether the code is for several platforms. -/
def isMultiplatform (p : Profile) : Bool := p.layout.library = some .multiplatform

/-- Whether requests are made by suspending functions. -/
def suspends (p : Profile) : Bool :=
  p.isMultiplatform || p.layout.library = some .okhttp4

/-- Whether the word for a minus sign is dropped from header parameters. -/
def dropsMinus (p : Profile) : Bool := p.settings.isOn Key.dropsMinus

/-- Whether the slash in front of a path is dropped. -/
def dropsSlash (p : Profile) : Bool := p.settings.isOn Key.dropsSlash

/-- Whether the library for dates is needed. -/
def needsThreeten (p : Profile) : Bool := p.settings.isOn DateLibrary.threetenbp.name

end Profile

end ClientGen.Kotlin
