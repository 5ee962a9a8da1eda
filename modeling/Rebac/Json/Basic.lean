import Rebac.Number.Shortest
import Rebac.Text.Quoted

set_option autoImplicit false

/-!
# JSON values

Whole numbers and floating-point numbers are different values, as `1` and `1.0` are. The members
of an object stand in ascending order of their names, each name once: `Members.insert` keeps this
form, and `Members.ofList` brings any list into it, the last of equal names winning.
-/
namespace Rebac

inductive Json where
  | null
  | bool (b : Bool)
  | int (n : Int)
  | float (x : Double)
  | string (s : String)
  | array (items : List Json)
  | object (members : List (String × Json))
  deriving Inhabited

abbrev Members := List (String × Json)

namespace Members

def insert (name : String) (value : Json) : Members → Members
  | [] => [(name, value)]
  | (k, v) :: rest =>
    if name < k then (name, value) :: (k, v) :: rest
    else if name = k then (name, value) :: rest
    else (k, v) :: insert name value rest

def find? (name : String) : Members → Option Json
  | [] => none
  | (k, v) :: rest => if k = name then some v else find? name rest

def ofList (pairs : List (String × Json)) : Members :=
  pairs.foldl (fun acc pair => insert pair.1 pair.2 acc) []

end Members

namespace Json

def ofMembers (pairs : List (String × Json)) : Json := .object (Members.ofList pairs)

def ofPresent (pairs : List (String × Option Json)) : Json :=
  ofMembers (pairs.filterMap fun pair => pair.2.map fun v => (pair.1, v))

def member? (name : String) : Json → Option Json
  | .object members => Members.find? name members
  | _ => none

/-- The member of a name, with `null` taken for none. -/
def field? (name : String) (j : Json) : Option Json :=
  match j.member? name with
  | some .null => none
  | other => other

def orNull : Option Json → Json
  | some j => j
  | none => .null

def ofText? (s : Option String) : Json := orNull (s.map .string)

def describe : Json → String
  | .null => "null"
  | .bool b => "boolean `" ++ (if b then "true" else "false") ++ "`"
  | .int n => "integer `" ++ toString n ++ "`"
  | .float x => "floating point `" ++ x.toPointed ++ "`"
  | .string s => "string " ++ Text.quote s
  | .array _ => "sequence"
  | .object _ => "map"

mutual

def equalBy (f : Double → Double → Bool) : Json → Json → Bool
  | .null, .null => true
  | .bool a, .bool b => a == b
  | .int a, .int b => a == b
  | .float a, .float b => f a b
  | .string a, .string b => a == b
  | .array a, .array b => equalItems f a b
  | .object a, .object b => equalMembers f a b
  | _, _ => false

def equalItems (f : Double → Double → Bool) : List Json → List Json → Bool
  | [], [] => true
  | a :: as, b :: bs => equalBy f a b && equalItems f as bs
  | _, _ => false

def equalMembers (f : Double → Double → Bool) : Members → Members → Bool
  | [], [] => true
  | (k, a) :: as, (l, b) :: bs => k == l && equalBy f a b && equalMembers f as bs
  | _, _ => false

end

mutual

theorem equalBy_iff (a b : Json) : equalBy (· == ·) a b = true ↔ a = b := by
  cases a <;> cases b <;> simp [equalBy, equalItems_iff, equalMembers_iff]

theorem equalItems_iff (as bs : List Json) : equalItems (· == ·) as bs = true ↔ as = bs := by
  cases as <;> cases bs <;> simp [equalItems, equalBy_iff, equalItems_iff]

theorem equalMembers_iff (as bs : Members) :
    equalMembers (· == ·) as bs = true ↔ as = bs := by
  match as, bs with
  | [], [] => simp [equalMembers]
  | [], _ :: _ => simp [equalMembers]
  | _ :: _, [] => simp [equalMembers]
  | (k, a) :: as, (l, b) :: bs =>
    simp [equalMembers, equalBy_iff, equalMembers_iff]

end

instance : DecidableEq Json := fun a b => decidable_of_iff _ (equalBy_iff a b)

/-- Equality of values: both floating-point zeros are one number. -/
def same (a b : Json) : Bool := equalBy Double.same a b

end Json

end Rebac
