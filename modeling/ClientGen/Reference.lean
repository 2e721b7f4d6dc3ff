import ClientGen.Document.Basic
import ClientGen.Text.Search

/-!
# Following references

A reference is a text of the form `#/components/<section>/<name>`. A reference
to a schema is followed through as many further references as there are; one
to a parameter, a request body or a response leads to a definition at once or
nowhere.

Nothing is inlined ahead of use: whoever needs a target asks for it and keeps
working with the reference otherwise, so that generated code can still name
the model referred to.
-/

namespace ClientGen

/-- Why a reference leads nowhere. -/
inductive ReferenceError where
  /-- The chain of references never ends. -/
  | circular (path : String)
  /-- The text is not of the form of a reference. -/
  | malformed (path : String)
  /-- The reference is to another section. -/
  | wrongSection (expected actual path : String)
  /-- Nothing has the name. -/
  | notFound (path : String)
deriving DecidableEq, Repr, Inhabited

/-- The text of a reference error. -/
def ReferenceError.message : ReferenceError → String
  | .circular path => "circular reference detected: " ++ path
  | .malformed path => "invalid reference format: " ++ path
  | .wrongSection expected actual path =>
    "invalid reference format: expected section '" ++ expected ++ "', got '" ++ actual
      ++ "' in " ++ path
  | .notFound path => "reference target not found: " ++ path

namespace Reference

/-- The sections of the components. -/
inductive Section where
  | schemas
  | parameters
  | requestBodies
  | responses
deriving DecidableEq, Repr

/-- The name of a section in a reference. -/
def Section.name : Section → String
  | .schemas => "schemas"
  | .parameters => "parameters"
  | .requestBodies => "requestBodies"
  | .responses => "responses"

/-- What every reference begins with. -/
def front : String := "#/components/"

/-- **The name a reference has in a section**: everything after the section. -/
def nameIn (area : Section) (path : String) : Except ReferenceError String :=
  match Text.afterFront? path front with
  | none => .error (.malformed path)
  | some rest =>
    match Text.splitFirst? '/' rest.toList with
    | none => .error (.malformed path)
    | some (actual, name) =>
      if String.ofList actual = area.name then .ok (String.ofList name)
      else .error (.wrongSection area.name (String.ofList actual) path)

/-- The name at the end of a reference: what follows its last slash. Generated
code calls the target by it. -/
def shortName (path : String) : String := String.ofList (Text.afterLast '/' path.toList)

end Reference

namespace Components

/-- **Follows a chain of references to schemas.** `visited` holds the references
followed so far; one that returns makes the chain circular. The errors of a
chain that ends nowhere name the reference it started from. -/
def chase (c : Components) (origin : String) : Nat → List String → String →
    Except ReferenceError Schema
  | 0, _, _ => .error (.circular origin)
  | steps + 1, visited, current =>
    if visited.contains current then .error (.circular origin)
    else do
      let name ← Reference.nameIn .schemas current
      match c.schemas.find? name with
      | some (.inline schema) => .ok schema
      | some (.ref next) => c.chase origin steps (current :: visited) next
      | none => .error (.notFound origin)

/-- **The schema a reference leads to.** No chain is longer than one step more
than there are schemas. -/
def schemaAt (c : Components) (path : String) : Except ReferenceError Schema :=
  c.chase path (c.schemas.size + 1) [] path

/-- The schema that a part is or refers to. -/
def resolve (c : Components) : RefOr Schema → Except ReferenceError Schema
  | .inline schema => .ok schema
  | .ref path => c.schemaAt path

/-- The definition that a reference of a section leads to in one step. -/
def definitionAt {α : Type} (area : Reference.Section) (definitions : OrderedMap (RefOr α)) :
    RefOr α → Except ReferenceError α
  | .inline value => .ok value
  | .ref path => do
    match definitions.find? (← Reference.nameIn area path) with
    | some (.inline value) => .ok value
    | _ => .error (.notFound path)

/-- The parameter that is given or referred to. -/
def parameter (c : Components) : RefOr Parameter → Except ReferenceError Parameter :=
  definitionAt .parameters c.parameters

/-- The request body that is given or referred to. -/
def requestBody (c : Components) : RefOr RequestBody → Except ReferenceError RequestBody :=
  definitionAt .requestBodies c.requestBodies

/-- The response that is given or referred to. -/
def response (c : Components) : RefOr Response → Except ReferenceError Response :=
  definitionAt .responses c.responses

end Components

/-- The components of a document; none are there if it lists none. -/
def Document.componentsOrNone (d : Document) : Components := d.components.getD {}

end ClientGen
