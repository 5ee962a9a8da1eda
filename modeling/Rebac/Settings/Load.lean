import Rebac.Json.Reader
import Rebac.Settings.Decode
import Rebac.Settings.Environment
import Rebac.Toml.Document

set_option autoImplicit false

/-!
# Loading settings

Settings are loaded from the environment alone, or from a file with the environment over it. The
extension of a file says its format. Which formats there are is left open: `Formats` has a reader
for each extension that is known.
-/
namespace Rebac.Settings

structure File where
  name : String
  extension : String
  content : Option String
  deriving DecidableEq, Repr

/-- How the texts of files are read: for each extension that is known, a reader of the members of a
document. -/
abbrev Formats := String → Option (String → Option Members)

mutual

/-- A value as settings have it: whole numbers have 64 bits with a sign, and greater ones are
doubles. -/
def narrow : Json → Json
  | .int n => if n < Nat.pow 2 63 then .int n else .float (.ofInt n)
  | .array items => .array (narrowItems items)
  | .object members => .object (narrowMembers members)
  | j => j

def narrowItems : List Json → List Json
  | [] => []
  | j :: rest => narrow j :: narrowItems rest

def narrowMembers : List (String × Json) → List (String × Json)
  | [] => []
  | (name, j) :: rest => (name, narrow j) :: narrowMembers rest

end

def readJson (content : String) : Option Members :=
  match Json.read (Text.Utf8.encode content.toList) with
  | .ok (.object members) => some members
  | _ => none

def commonFormats : Formats := fun extension =>
  if extension = "toml" then some Toml.read
  else if extension = "json" then some readJson
  else none

def withoutMark (content : String) : String :=
  match content.toList with
  | '\ufeff' :: rest => String.ofList rest
  | cs => String.ofList cs

section

variable (formats : Formats)

def File.layer (f : File) : Loaded (List (String × Tree)) :=
  match f.content with
  | none => .error (.noFile f.name)
  | some content =>
    match formats f.extension with
    | none => .error (.unknownFormat f.name)
    | some read =>
      match read (withoutMark content) with
      | none => .error .unreadable
      | some members => .ok (Tree.ofMembers f.name (narrowMembers members))

def ofFile (f : File) (vars : List (String × String)) : Loaded Settings := do
  let values ← f.layer formats
  ofTree ((Tree.empty.layer values).layer (Environment.layer vars))

end

def ofEnvironment (vars : List (String × String)) : Loaded Settings :=
  ofTree (Tree.empty.layer (Environment.layer vars))

end Rebac.Settings
