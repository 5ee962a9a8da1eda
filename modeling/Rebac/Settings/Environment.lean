import Rebac.Number.Reading
import Rebac.Settings.Tree

set_option autoImplicit false

/-!
# Settings from the environment

Variables whose names begin with `FGA_` in any case of letters. The rest of the name in small
letters is a key in which two underscores stand for a point. A value is read as a truth value, a
whole number or a double if it is the text of one.
-/
namespace Rebac.Settings.Environment

/-- A letter made small. Beyond ASCII only the Kelvin sign becomes an ASCII letter; no other
letter stands in the name of a setting, however it is written. -/
def lower (c : Char) : Char := if c = '\u212a' then 'k' else c.toLower

def opening : List Char := ['f', 'g', 'a', '_']

def nest : List Char → List Char
  | '_' :: '_' :: rest => '.' :: nest rest
  | c :: rest => c :: nest rest
  | [] => []

def key? (name : String) : Option String :=
  let name := name.toList.map lower
  if opening.isPrefixOf name then some (String.ofList (nest (name.drop opening.length))) else none

def guess (text : String) : Json :=
  let cs := text.toList
  let word := cs.map Char.toLower
  if word = ['t', 'r', 'u', 'e'] then .bool true
  else if word = ['f', 'a', 'l', 's', 'e'] then .bool false
  else match Number.readInt64? cs with
    | some n => .int n
    | none =>
      match Number.readDouble? cs with
      | some x => .float x
      | none => .string text

def origin : Option String := some "the environment"

def layer (vars : List (String × String)) : List (String × Tree) :=
  vars.filterMap fun v => (key? v.1).map fun key => (key, .leaf (guess v.2) origin)

end Rebac.Settings.Environment
