/-!
# Models of the client

A model is what one component schema becomes: a data class, an enumeration, or
another name for a type. Its properties appear in several views. The property's
own declarations are `own`; `all` also holds the inherited ones, and four views
are selections of `own` (`Views.refresh`). An adjustment of a model has to
change every view it touches, and refresh the selections.
-/

namespace ClientGen.Client

/-- One constant of an enumeration. -/
structure Constant where
  /-- The name in the generated code. -/
  name : String
  /-- The value on the wire. -/
  wireValue : String
  /-- Whether the value is a text. -/
  isText : Bool
deriving DecidableEq, Repr, Inhabited

/-- **A property of a model.** -/
structure Property where
  /-- The identifier in the generated code. -/
  name : String
  /-- The name on the wire. -/
  wireName : String
  dataType : String
  /-- The type of the innermost elements of a container; of any other property
  its type. -/
  elementType : String
  description : Option String := none
  /-- The default value, as text. -/
  defaultText : Option String := none
  required : Bool := false
  readOnly : Bool := false
  /-- Whether the property comes from the parent. -/
  inherited : Bool := false
  isContainer : Bool := false
  /-- The values allowed; any value, if there are none. -/
  constants : List Constant := []
  /-- The wire name as it stands inside a string literal, once it is settled. -/
  literal : Option String := none
deriving DecidableEq, Repr, Inhabited

/-- Whether only certain values are allowed. -/
def Property.isEnum (p : Property) : Bool := !p.constants.isEmpty

/-- **The views of the properties of a model.** -/
structure Views where
  own : List Property := []
  all : List Property := []
  required : List Property := []
  optional : List Property := []
  readOnly : List Property := []
  readWrite : List Property := []
  inherited : List Property := []
deriving DecidableEq, Repr, Inhabited

namespace Views

/-- **Selects the derived views anew** from the own properties. -/
def refresh (v : Views) : Views :=
  { v with
    required := v.own.filter (·.required)
    optional := v.own.filter (fun p => !p.required)
    readOnly := v.own.filter (·.readOnly)
    readWrite := v.own.filter (fun p => !p.readOnly) }

/-- The properties of all views, one view after the other. -/
def listed (v : Views) : List Property :=
  v.own ++ v.all ++ v.required ++ v.optional ++ v.readOnly ++ v.readWrite ++ v.inherited

/-- Applies a function to every property of every view. -/
def map (f : Property → Property) (v : Views) : Views where
  own := v.own.map f
  all := v.all.map f
  required := v.required.map f
  optional := v.optional.map f
  readOnly := v.readOnly.map f
  readWrite := v.readWrite.map f
  inherited := v.inherited.map f

/-- The number of entries of all views. -/
def count (v : Views) : Nat := v.listed.length

/-- Mapping the views maps their list. -/
theorem listed_map (f : Property → Property) (v : Views) :
    (v.map f).listed = v.listed.map f := by
  simp [listed, map]

end Views

/-- **A model.** -/
structure Model where
  /-- The name of the schema. -/
  name : String
  /-- The name of the class. -/
  className : String
  description : Option String := none
  views : Views := {}
  /-- The class inherited from, or the container type that is extended. -/
  parent : Option String := none
  /-- The classes of the members of `allOf` that are references. -/
  allOf : List String := []
  /-- The types of the members of `oneOf`. -/
  oneOf : List String := []
  /-- The types of the members of `anyOf`. -/
  anyOf : List String := []
  /-- The type that the model is another name for. -/
  dataType : Option String := none
  /-- Whether the model is another name of a primitive type. -/
  isAlias : Bool := false
  isArray : Bool := false
  isMap : Bool := false
  isEnum : Bool := false
  constants : List Constant := []
  /-- Whether the model is to be written as a type alias. -/
  writtenAsAlias : Bool := false
deriving DecidableEq, Repr, Inhabited

namespace Model

/-- Whether the model chooses among other types. -/
def hasAlternatives (m : Model) : Bool := !m.oneOf.isEmpty || !m.anyOf.isEmpty

/-- Replaces inheritance by one list of properties, for a model that has members
to inherit from. -/
def flatten? (m : Model) : Option Model :=
  if m.allOf.isEmpty then none
  else
    let all := m.views.all.map (fun p => { p with inherited := false })
    some { m with
      parent := none
      views := { m.views with inherited := [], all, own := all }.refresh }

/-- Makes every property of a model with alternatives optional. -/
def relax? (m : Model) : Option Model :=
  if m.hasAlternatives then
    some { m with views := (m.views.map (fun p => { p with required := false })).refresh }
  else none

/-- **Marks a model to be written as a type alias**: one without properties,
unless empty classes are allowed, and one that renames a primitive type, if
those are wanted. The alias is of the model's data type, or else of its
parent. -/
def alias? (keepsEmpty primitiveAliases : Bool) (m : Model) : Option Model :=
  if (!keepsEmpty && m.views.count = 0) || (primitiveAliases && m.isAlias) then
    some { m with
      writtenAsAlias := true
      dataType := m.dataType.orElse (fun _ => m.parent)
      isAlias := m.isAlias && !primitiveAliases }
  else none

/-- A wire name as it stands inside a string literal: a dollar sign would begin a
template there, so a backslash goes before it. -/
def literalOf (wireName : String) : String :=
  String.ofList (wireName.toList.flatMap (fun c => if c = '$' then ['\\', '$'] else [c]))

/-- Settles the literal of every property. -/
def withLiterals (m : Model) : Model :=
  { m with views := m.views.map (fun p => { p with literal := some (literalOf p.wireName) }) }

end Model

/-- Which adjustments the models of a run get. -/
structure ModelAdjustment where
  flattens : Bool := false
  relaxes : Bool := false
  marksAliases : Bool := false
  keepsEmpty : Bool := false
  primitiveAliases : Bool := false
  escapesLiterals : Bool := false
deriving DecidableEq, Repr, Inhabited

namespace ModelAdjustment

/-- An adjustment, where it is made and has something to do. -/
def step (made : Bool) (change? : Model → Option Model) (m : Model) : Model :=
  if made then (change? m).getD m else m

/-- **The adjustments of a model**, in their order. -/
def apply (a : ModelAdjustment) (m : Model) : Model :=
  let m := step a.flattens Model.flatten? m
  let m := step a.relaxes Model.relax? m
  let m := step a.marksAliases (Model.alias? a.keepsEmpty a.primitiveAliases) m
  step a.escapesLiterals (fun m => some m.withLiterals) m

end ModelAdjustment

end ClientGen.Client
