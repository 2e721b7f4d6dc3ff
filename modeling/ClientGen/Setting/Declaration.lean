import ClientGen.Setting.Basic

/-!
# Declared settings

A generator declares the settings that it reads: what each is for, what it is
unless given, and which values it may have.
-/

namespace ClientGen

/-- **A declared setting.** -/
structure Declaration where
  key : String
  description : String
  /-- The value unless one is given. -/
  fallback : Option String := none
  /-- The accepted values with their descriptions; any value, if there are none. -/
  values : List (String × String) := []
deriving DecidableEq, Repr, Inhabited

namespace Declaration

/-- A setting that is a flag. -/
def ofFlag (key description : String) (fallback : Bool) : Declaration :=
  { key, description, fallback := some (if fallback then "true" else "false") }

/-- The accepted values. -/
def valueNames (d : Declaration) : List String := d.values.map Prod.fst

/-- Whether a value is accepted. -/
def accepts (d : Declaration) (value : String) : Bool :=
  d.values.isEmpty || d.valueNames.contains value

/-- The accepted values as one text. -/
def allowed (d : Declaration) : String := Text.join ", " d.valueNames

/-- The accepted values as a setting. -/
def allowedSetting (d : Declaration) : Setting := .list (d.valueNames.map .text)

/-- The line that describes the setting. -/
def line (d : Declaration) : String :=
  d.key ++ ": " ++ d.description
    ++ (match d.fallback with
      | some value => " [default: " ++ value ++ "]"
      | none => "")
    ++ (if d.values.isEmpty then "" else " (one of: " ++ d.allowed ++ ")")

end Declaration

end ClientGen
