import ClientGen.Naming.Identifier
import ClientGen.Text.Search

/-!
# The names of generated declarations

Each kind of declaration has its own way from a name of the document to a name
of the generated code: classes are in Pascal case with the run's prefix and
suffix, variables in camel case, API classes carry `Api` and a suffix, and
constants of an enumeration follow the naming mode that the run selects –
except those of a numeric type, whose literal stays traceable.
-/

namespace ClientGen.Naming

/-- How the constants of an enumeration are cased. -/
inductive ConstantCase where
  /-- The value as the document writes it. -/
  | asWritten
  | camel
  | pascal
  | snake
  | upper
deriving DecidableEq, Repr, Inhabited

/-- The modes in the order in which they are offered. -/
def ConstantCase.all : List ConstantCase := [.asWritten, .camel, .pascal, .snake, .upper]

/-- The option value that selects a mode. -/
def ConstantCase.name : ConstantCase → String
  | .asWritten => "original"
  | .camel => "camelCase"
  | .pascal => "PascalCase"
  | .snake => "snake_case"
  | .upper => "UPPERCASE"

/-- The mode that an option value selects, in exactly this spelling. -/
def ConstantCase.ofName? (name : String) : Option ConstantCase :=
  ConstantCase.all.find? (fun c => c.name = name)

/-- The types whose enumeration constants are named from the numeric literal. -/
def numericTypes : List String :=
  ["kotlin.Short", "kotlin.Int", "kotlin.Long", "kotlin.Float", "kotlin.Double"]

/-- The spelling of one character of a numeric literal. -/
def numericSpelling : Char → List Char
  | '-' => "MINUS_".toList
  | '+' => "PLUS_".toList
  | '.' => "_DOT_".toList
  | c => [c]

/-- **The constant of a numeric literal**: `NUMBER`, then the literal with its
signs and point spelled out, so `-1.5` is `NUMBERMINUS_1_DOT_5`. -/
def numericConstant (literal : String) : String :=
  String.ofList ("NUMBER".toList ++ literal.toList.flatMap numericSpelling)

/-- The first letter in upper case, the others untouched. -/
def titled (s : String) : String :=
  match s.toList with
  | [] => ""
  | c :: cs => String.ofList (c.toUpper :: cs)

/-- **The class name of a schema.** A type of the target language's own
libraries passes through; in all other names the points are dropped before
anything else. -/
def modelName (before after name : String) : String :=
  if Text.startsWith name "kotlin." || Text.startsWith name "java." then name
  else
    let cased := recase Text.pascalCase (sanitize (Text.replace name "." ""))
    before ++ titled (escapeReserved cased) ++ after

/-- **The identifier of a property or parameter.** -/
def variableName (name : String) : String :=
  escapeReserved (recase Text.camelCase (sanitize name))

/-- **The class name of an API group.** -/
def apiName (after tag : String) : String :=
  recase Text.pascalCase (sanitize tag) ++ "Api" ++ after

/-- **The constant of an enumeration value.** -/
def constantName (mode : ConstantCase) (value dataType : String) : String :=
  if numericTypes.contains dataType then numericConstant value
  else if value.isEmpty then "EMPTY"
  else
    let name := sanitize value
    escapeReserved <| match mode with
      | .asWritten => value
      | .camel => recase Text.camelCase name
      | .pascal => recase Text.pascalCase name
      | .snake => recase Text.snakeCase name
      | .upper => name.toUpper

/-- The naming settings of one run. -/
structure Style where
  /-- Put before every class name of a model. -/
  modelBefore : String := ""
  /-- Put after every class name of a model. -/
  modelAfter : String := ""
  /-- Put after every class name of an API group. -/
  apiAfter : String := ""
  /-- The case of enumeration constants. -/
  constants : ConstantCase := .camel
deriving DecidableEq, Repr, Inhabited

namespace Style

/-- The class name of a schema under these settings. -/
def model (style : Style) (name : String) : String :=
  modelName style.modelBefore style.modelAfter name

/-- The class name of an API group under these settings. -/
def api (style : Style) (tag : String) : String := apiName style.apiAfter tag

/-- The constant of an enumeration value under these settings. -/
def constant (style : Style) (value dataType : String) : String :=
  constantName style.constants value dataType

end Style

end ClientGen.Naming
