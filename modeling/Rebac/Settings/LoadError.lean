import Rebac.Json.Basic

set_option autoImplicit false

/-! # What can be wrong with loaded settings -/

namespace Rebac.Settings

inductive Found where
  | nothing
  | flag (b : Bool)
  | whole (n : Int)
  | large (n : Nat)
  | real (x : Double)
  | text (s : String)
  | list
  | table
  deriving DecidableEq, Repr

namespace Found

def ofJson : Json → Found
  | .null => .nothing
  | .bool b => .flag b
  | .int n => .whole n
  | .float x => .real x
  | .string s => .text s
  | .array _ => .list
  | .object _ => .table

def describe : Found → String
  | .nothing => "unit value"
  | .flag b => "boolean `" ++ (if b then "true" else "false") ++ "`"
  | .whole n => "64-bit integer `" ++ toString n ++ "`"
  | .large n => "64-bit unsigned integer `" ++ toString n ++ "`"
  | .real x => "floating point `" ++ x.toPlain ++ "`"
  | .text s => "string " ++ Text.quote s
  | .list => "sequence"
  | .table => "map"

def describeShape : Found → String
  | .whole n => "integer `" ++ toString n ++ "`"
  | .large n => "integer `" ++ toString n ++ "`"
  | .real x => "floating point `" ++ x.toPointed ++ "`"
  | found => found.describe

end Found

inductive LoadError where
  | missing (key : String)
  | wrongType (found : Found) (expected key : String) (origin : Option String)
  | wrongShape (found : Found) (expected key : String)
  | noFile (name : String)
  | unknownFormat (name : String)
  | unreadable
  deriving DecidableEq, Repr

def LoadError.message : LoadError → String
  | .missing key => "missing configuration field " ++ Text.quote key
  | .wrongType found expected key origin =>
    "invalid type: " ++ found.describe ++ ", expected " ++ expected ++ " for key `" ++ key ++ "`" ++
      (match origin with
       | some origin => " in " ++ origin
       | none => "")
  | .wrongShape found expected key =>
    "invalid type: " ++ found.describeShape ++ ", expected " ++ expected ++ " for key `" ++ key ++ "`"
  | .noFile name => "configuration file \"" ++ name ++ "\" not found"
  | .unknownFormat name =>
    "configuration file \"" ++ name ++ "\" is not of a supported file format"
  | .unreadable => "the file cannot be read"

abbrev Loaded (α : Type) := Except LoadError α

end Rebac.Settings
