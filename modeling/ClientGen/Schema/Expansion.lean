import ClientGen.Reference
import ClientGen.Schema.Shape

/-!
# Item references to containers, put inline

An array whose items are a reference to another array or to a map would lose
the inner type: the reference is only known by name. `expandItems?` puts the
container in the place of the reference, and goes on inside it as long as its
own items are such references again.

References may go in circles. One call follows each reference at most once
(`visited`), and since only the names of the components lead anywhere, the
number of components bounds the number of expansions.
-/

namespace ClientGen

namespace Schema

mutual

/-- **Puts a target in the place of the reference** at which the arrays nested in
a schema end, if it has one and `target` accepts it. -/
def expandWith? (target : String → Option Schema) : Schema → Option Schema
  | ⟨facets, properties, additional, items, allOf, oneOf, anyOf⟩ =>
    let s : Schema := ⟨facets, properties, additional, items, allOf, oneOf, anyOf⟩
    if s.isArray then
      (expandItemsWith? target items).map (fun part => { s with items := some part })
    else none

/-- `expandWith?` on the items of an array. -/
def expandItemsWith? (target : String → Option Schema) :
    Option (RefOr Schema) → Option (RefOr Schema)
  | none => none
  | some part => expandPartWith? target part

/-- `expandWith?` on one part. -/
def expandPartWith? (target : String → Option Schema) : RefOr Schema → Option (RefOr Schema)
  | .ref path => (target path).map .inline
  | .inline s => (expandWith? target s).map .inline

end

end Schema

namespace Components

/-- The container that a reference leads to, if it leads to one. -/
def containerAt? (c : Components) (path : String) : Option Schema :=
  match c.schemaAt path with
  | .ok target => if target.isContainer then some target else none
  | .error _ => none

/-- **Expands the item references of a schema**, at most `steps` of them and none
that was followed before. Nothing is returned where nothing changes. -/
def expandFrom? (c : Components) : Nat → List String → Schema → Option Schema
  | 0, _, _ => none
  | steps + 1, visited, s =>
    s.expandWith? (fun path =>
      if visited.contains path then none
      else (c.containerAt? path).map (fun target =>
        (c.expandFrom? steps (path :: visited) target).getD target))

/-- **Expands the item references of a schema**, each at most once. -/
def expandItems? (c : Components) (s : Schema) : Option Schema :=
  c.expandFrom? (c.schemas.size + 1) [] s

end Components

end ClientGen
