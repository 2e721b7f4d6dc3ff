import ClientGen.Kotlin.ApiFile
import ClientGen.Kotlin.ModelFile
import ClientGen.Kotlin.Project
import ClientGen.Run.Switches

/-!
# Generating

A generator takes a document, a resolved run and the switches that are set, and
gives the files of the run or says why not. That is a `Generator`; the variants
are generators of Kotlin.
-/

namespace ClientGen.Kotlin

/-- **A generator.** -/
abbrev Generator := Document → ResolvedRun → Switches → Except GeneratorError (List SourceFile)

/-- **The files of a client**: models, their pages, APIs, their pages, and the
project, as far as they are switched on. -/
def files (p : Profile) (c : Client) (switches : Switches) : List SourceFile :=
  let models := Project.writtenModels c
  let isOn (k : FileClass) : Bool := switches.isOn k.key
  (if isOn .models then models.map (ModelFile.file p) else [])
    ++ (if isOn .modelDocs then models.map Documentation.modelPage else [])
    ++ (if p.layout.writesApis && isOn .apis then c.apis.map (ApiFile.file p) else [])
    ++ (if p.layout.writesApis && isOn .apiDocs then
        c.apis.map (Documentation.apiPage c.basePath) else [])
    ++ (if isOn .supportingFiles then Project.files p c else [])

/-- **The generator of a variant.** -/
def Variant.generate (v : Variant) : Generator := fun d run switches => do
  let p ← v.profile run
  let c ← (d.toClient p.policy p.options).mapError .conversion
  return files p c switches

/-- The generator of a name. -/
def generatorNamed (name : String) : Except GeneratorError Generator :=
  (Variant.named name).map Variant.generate

end ClientGen.Kotlin
