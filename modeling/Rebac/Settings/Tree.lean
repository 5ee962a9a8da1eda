import Rebac.Json.Basic
import Rebac.Number.Reading
import Rebac.Text.Pieces

set_option autoImplicit false

/-!
# Layers of settings

Settings from several places are brought together in one `Tree`. A layer that is laid over a tree
replaces single values and lists and keeps what it does not mention; a table grows by the entries
of a table laid over it. The keys of a layer are paths into the tree, such as `a.b` and `a[0]`.
-/
namespace Rebac.Settings

/-- A step into a tree. A place below zero counts from the end of a list. -/
inductive Step where
  | name (name : String)
  | place (index : Int)
  deriving DecidableEq, Repr

inductive Tree where
  | leaf (value : Json) (origin : Option String)
  | table (entries : List (String × Tree)) (origin : Option String)
  | list (items : List Tree) (origin : Option String)
  deriving Inhabited

namespace Tree

abbrev Entries := List (String × Tree)

def unset : Tree := .leaf .null none

def empty : Tree := .table [] none

def origin : Tree → Option String
  | .leaf _ origin => origin
  | .table _ origin => origin
  | .list _ origin => origin

def entries : Tree → Entries
  | .table es _ => es
  | _ => []

def child? (t : Tree) (name : String) : Option Tree := t.entries.lookup name

def find? (t : Tree) (path : List String) : Option Tree := path.foldlM child? t

def withEntries (change : Entries → Entries) : Tree → Tree
  | .table es origin => .table (change es) origin
  | _ => .table (change []) none

def withItems (change : List Tree → List Tree) : Tree → Tree
  | .list ts origin => .list (change ts) origin
  | _ => .list (change []) none

def modify (name : String) (change : Tree → Tree) : Entries → Entries
  | [] => [(name, change unset)]
  | (k, t) :: rest => if k = name then (k, change t) :: rest else (k, t) :: modify name change rest

/-- Changes the item at a place. A list that is too short for it is filled up with unset items, at
its end or at its front. -/
def modifyAt (index : Int) (change : Tree → Tree) (ts : List Tree) : List Tree :=
  let missing (count : Nat) : List Tree := List.replicate (count - ts.length) unset
  match index with
  | .ofNat n => (ts ++ missing (n + 1)).modify n change
  | .negSucc n => (missing (n + 1) ++ ts).modify (ts.length - (n + 1)) change

mutual

def overlay (base : Tree) : Tree → Tree
  | .table es _ => base.withEntries (overlayAll es)
  | top => top

def overlayAll : List (String × Tree) → Entries → Entries
  | [], base => base
  | (name, top) :: rest, base => overlayAll rest (modify name (fun old => overlay old top) base)

end

/-- Lays a tree over what stands at a path. What is on the way gives place to tables and lists. -/
def put (top : Tree) : List Step → Tree → Tree
  | [], base => overlay base top
  | .name name :: path, base => base.withEntries (modify name (put top path))
  | .place index :: path, base => base.withItems (modifyAt index (put top path))

mutual

def ofJson (origin : String) : Json → Tree
  | .object members => .table (ofMembers origin members) (some origin)
  | .array items => .list (ofItems origin items) (some origin)
  | j => .leaf j (some origin)

def ofItems (origin : String) : List Json → List Tree
  | [] => []
  | j :: rest => ofJson origin j :: ofItems origin rest

def ofMembers (origin : String) : List (String × Json) → List (String × Tree)
  | [] => []
  | (name, j) :: rest => (name, ofJson origin j) :: ofMembers origin rest

end

/-! ## Keys -/

def isNameChar (c : Char) : Bool := c.isAlphanum || c = '_' || c = '-'

def isBlank (c : Char) : Bool := c = ' ' || c = '\t'

def readIndex? (cs : List Char) : Option Int :=
  let cs := cs.dropWhile isBlank
  let number := cs.takeWhile fun c => !isBlank c
  if number.head? ≠ some '+' ∧ (cs.dropWhile fun c => !isBlank c).all isBlank then
    Number.readInt64? number
  else none

def readPlace? : List Char → Option Step
  | '[' :: cs => (readIndex? cs).map .place
  | _ => none

def readPlaces? (cs : List Char) : Option (List Step) :=
  let pieces := Text.piecesAt (· = ']') cs
  if pieces.getLast? = some [] then pieces.dropLast.mapM readPlace? else none

def readPart? (cs : List Char) : Option (List Step) :=
  match cs.takeWhile isNameChar with
  | [] => none
  | name => (readPlaces? (cs.dropWhile isNameChar)).map (.name (String.ofList name) :: ·)

/-- The path that a key of a layer names: parts with points between them. Any other key is one
name. -/
def pathOf (key : List Char) : List Step :=
  match (Text.piecesAt (· = '.') key).mapM readPart? with
  | some parts => parts.flatten
  | none => [.name (String.ofList key)]

def layer (base : Tree) (values : List (String × Tree)) : Tree :=
  values.foldl (fun t v => put v.2 (pathOf v.1.toList) t) base

end Tree

end Rebac.Settings
