import ClientGen.Decimal.Shortest
import ClientGen.Text.Search
import ClientGen.Tree.Basic

/-!
# Settings

A configuration sets keys to values: flags, numbers, texts, and lists of these.
No key has a type of its own, so each reader of a key says how it takes the
value – as a flag, as a text, as the texts of a list – and what it does with a
value of another kind. A flag may be written as a text; `settleFlag` replaces
such a text by the flag it spells.
-/

namespace ClientGen

/-- **The value of a setting.** -/
inductive Setting where
  | flag (b : Bool)
  | number (x : Decimal.Binary64)
  | text (s : String)
  | list (items : List Setting)
deriving Repr, Inhabited

/-- Settings by key, in the order in which they were made. -/
abbrev Settings := OrderedMap Setting

namespace Setting

mutual

/-- **Reads a setting.** Nothing stands for `null`, and there are no records. -/
def read? : Tree → Option Setting
  | .scalar (.bool b) => some (.flag b)
  | .scalar (.natural n) => some (.number (.ofInt n))
  | .scalar (.negative n) => some (.number (.ofInt (-(n : Int))))
  | .scalar (.float x) => some (.number x)
  | .scalar (.text s) => some (.text s)
  | .list items => (readAll? items).map .list
  | _ => none

/-- Reads a list of settings. -/
def readAll? : List Tree → Option (List Setting)
  | [] => some []
  | t :: ts => do return (← read? t) :: (← readAll? ts)

end

/-- The text, if the value is one. -/
def text? : Setting → Option String
  | .text s => some s
  | _ => none

/-- The flag that a value is or spells, in any case of letters. -/
def flag? : Setting → Option Bool
  | .flag b => some b
  | .text s =>
    if Text.sameIgnoringCase s "true" then some true
    else if Text.sameIgnoringCase s "false" then some false
    else none
  | _ => none

/-- The texts of a list; any other value has none. -/
def texts : Setting → List String
  | .list items => items.filterMap text?
  | _ => []

/-- Numbers of settings are written positionally, whatever their size. -/
def numberLayout : Decimal.Layout where
  tie := .up
  plainFrom := none
  plainTo := none
  pointZero := false

mutual

/-- **The text of a value.** -/
def display : Setting → String
  | .flag b => if b then "true" else "false"
  | .number x => numberLayout.text x
  | .text s => s
  | .list items => "[" ++ Text.join ", " (displays items) ++ "]"

/-- The texts of the items of a list. -/
def displays : List Setting → List String
  | [] => []
  | s :: ss => display s :: displays ss

end

/-- Whether a value counts as true: it is neither false, zero nor empty. -/
def isTruthy : Setting → Bool
  | .flag b => b
  | .number x => !x.isZero
  | .text s => !s.isEmpty
  | .list items => !items.isEmpty

end Setting

namespace Settings

/-- The text that a key is set to, if it is set to one. -/
def text? (settings : Settings) (key : String) : Option String :=
  (settings.find? key).bind Setting.text?

/-- Whether a key is set to something that counts as true. -/
def isOn (settings : Settings) (key : String) : Bool :=
  (settings.find? key).any Setting.isTruthy

/-- The flag that a key is set to; a value that is no flag counts as false. -/
def flagOf? (settings : Settings) (key : String) : Option Bool :=
  (settings.find? key).map (fun value => value.flag?.getD false)

/-- **Replaces the value of a key by its flag**, if it has a value. -/
def settleFlag (settings : Settings) (key : String) : Settings :=
  match settings.flagOf? key with
  | some b => settings.put key (.flag b)
  | none => settings

/-- Sets a key to a text. -/
def putText (settings : Settings) (key value : String) : Settings :=
  settings.put key (.text value)

end Settings

end ClientGen
