import ClientGen.Conversion.Types

/-!
# From a schema to a model

An array or a map becomes a class that extends its container type, a primitive
schema an enumeration or another name of its type, and everything else a class
with properties.

The properties of a composition come from its members: what the first referenced
member of `allOf` contributes is inherited; what any other member contributes
is the model's own, before its own properties if the member is one of `allOf`
and behind them if it is an alternative. Of several own properties with one
wire name the first counts, and none counts that is inherited already.
-/

namespace ClientGen.Converter

open Client (Property Model)

/-- **The property of a schema** under a wire name. Description and write access
are those of a referenced schema; a default or an enumeration counts only where
it is given inline. -/
def property (k : Converter) (wireName : String) (part : RefOr Schema) (required : Bool) :
    Property :=
  let dataType := k.partType part
  let target? := (k.components.resolve part).toOption
  let isContainer := part.inline?.any Schema.isContainer
  { name := Naming.variableName wireName
    wireName
    dataType
    elementType := if isContainer then k.elementType part else dataType
    description := target?.bind (·.description)
    defaultText := (part.inline?.bind (·.defaultValue)).map valueText
    required
    readOnly := (target?.bind (·.readOnly)).getD false
    isContainer
    constants := (part.inline?.map (fun s => k.constants s.enumValues dataType)).getD [] }

/-- The properties that a schema declares itself. -/
def ownProperties (k : Converter) (s : Schema) : List Property :=
  s.properties.map (fun p => k.property p.1 p.2 (s.isRequired p.1))

/-- How many levels of composition are followed. -/
def compositionLevels : Nat := 17

/-- **What a member of a composition contributes**: its members in `allOf` first,
then its own properties. A member that leads nowhere contributes nothing. -/
def contribution (k : Converter) : Nat → RefOr Schema → List Property
  | 0, _ => []
  | levels + 1, member =>
    match k.components.resolve member with
    | .error _ => []
    | .ok s => s.allOf.flatMap (k.contribution levels) ++ k.ownProperties s

/-- The properties of a member of the composition at hand. -/
def memberProperties (k : Converter) (member : RefOr Schema) : List Property :=
  k.contribution compositionLevels member

/-- The classes of the members that are references. -/
def parentNames (k : Converter) (members : List (RefOr Schema)) : List String :=
  members.filterMap (fun m => m.path?.map (fun path => k.style.model (Reference.shortName path)))

/-- Splits the members of `allOf` at the first reference: the members before it,
the reference, and the members behind it. -/
def splitAtParent : List (RefOr Schema) →
    List (RefOr Schema) × Option (RefOr Schema) × List (RefOr Schema)
  | [] => ([], none, [])
  | .ref path :: members => ([], some (.ref path), members)
  | .inline s :: members =>
    let (before, parent, behind) := splitAtParent members
    (.inline s :: before, parent, behind)

/-- Keeps the first property of each wire name, and none whose name is among
`seen`. -/
def firstOfEachName : List String → List Property → List Property
  | _, [] => []
  | seen, p :: ps =>
    if seen.contains p.wireName then firstOfEachName seen ps
    else p :: firstOfEachName (p.wireName :: seen) ps

/-- The properties that a schema inherits. -/
def inheritedProperties (k : Converter) (s : Schema) : List Property :=
  match (splitAtParent s.allOf).2.1 with
  | some parent => (k.memberProperties parent).map (fun p => { p with inherited := true })
  | none => []

/-- All properties that are not inherited, repeated names included. -/
def collectedProperties (k : Converter) (s : Schema) : List Property :=
  -- The parent is left out: what it contributes is inherited.
  let (before, _, behind) := splitAtParent s.allOf
  (before ++ behind).flatMap k.memberProperties ++ k.ownProperties s
    ++ (s.oneOf ++ s.anyOf).flatMap k.memberProperties

/-- The views of the properties of a schema. -/
def views (k : Converter) (s : Schema) : Client.Views :=
  let inherited := k.inheritedProperties s
  let own := firstOfEachName (inherited.map (·.wireName)) (k.collectedProperties s)
  Client.Views.refresh { inherited, own, all := inherited ++ own }

/-- A class with properties. Without any, or with alternatives, it may stand for
an untyped object. -/
def classModel (k : Converter) (base : Model) (s : Schema) : Model :=
  let views := k.views s
  let model := { base with
    views
    parent := (k.parentNames s.allOf).head?
    allOf := k.parentNames s.allOf
    oneOf := s.oneOf.map k.partType
    anyOf := s.anyOf.map k.partType }
  if model.hasAlternatives || (s.properties.isEmpty && views.all.isEmpty) then
    { model with dataType := some k.anyType }
  else model

/-- **The model of a schema** under its name. -/
def model (k : Converter) (name : String) (s : Schema) : Model :=
  let base : Model := { name, className := k.style.model name, description := s.description }
  match s.kind with
  | .array => { base with isArray := true, parent := some (k.schemaType s) }
  | .map => { base with isMap := true, parent := some (k.schemaType s) }
  | .primitive =>
    let dataType := k.types.primitive s
    if s.enumValues.isEmpty then { base with isAlias := true, dataType := some dataType }
    else { base with isEnum := true, constants := k.constants s.enumValues dataType,
                     dataType := some dataType }
  | .composed => k.classModel base s
  | .object => k.classModel base s

end ClientGen.Converter
