import Rebac.Toml.Value

set_option autoImplicit false

/-!
# TOML documents

A document is a list of lines: keys with their values, and headers that say which table the keys
below belong to, or open another table of a list. No key is given twice, no table has two headers,
and a key leads only through tables of keys.
-/
namespace Rebac.Toml

inductive TableKind where
  | implied
  | headed
  | dotted
  | listed
  deriving DecidableEq, Repr

structure Draft where
  root : Members := []
  tables : List (List String × TableKind) := []
  current : List String := []

namespace Draft

def kind? (d : Draft) (path : List String) : Option TableKind := d.tables.lookup path

def beginnings (path : List String) : List (List String) :=
  (List.range (path.length - 1)).map fun n => path.take (n + 1)

/-- Whether a header may lead through what is at the beginnings of its path. -/
def isPassable (d : Draft) (path : List String) : Bool :=
  (beginnings path).all fun way => (findIn way d.root).isNone || (d.kind? way).isSome

def withHeader (d : Draft) (path : List String) (kind : TableKind) : List (List String × TableKind) :=
  let fresh := (beginnings path).filter fun way => (findIn way d.root).isNone
  (path, kind) :: fresh.map (fun way => (way, .implied)) ++ d.tables.filter fun t => t.1 ≠ path

def openTable? (d : Draft) (path : List String) : Option Draft :=
  let tables := d.withHeader path .headed
  if !d.isPassable path then none
  else if (findIn path d.root).isNone then
    some { root := putIn (.object []) path d.root, tables, current := path }
  else if d.kind? path = some .implied then some { d with tables, current := path }
  else none

/-- Opens the next table of a list. What was known within the one before it counts no more. -/
def openItem? (d : Draft) (path : List String) : Option Draft :=
  if !d.isPassable path then none
  else match findIn path d.root with
    | none =>
      some { root := putIn (.array [.object []]) path d.root, tables := d.withHeader path .listed
             current := path }
    | some (.array items) =>
      if d.kind? path = some .listed then
        some { root := putIn (.array (items ++ [.object []])) path d.root
               tables := (path, .listed) :: d.tables.filter fun t => !path.isPrefixOf t.1
               current := path }
      else none
    | some _ => none

def define? (d : Draft) (key : List String) (value : Json) : Option Draft :=
  let path := d.current ++ key
  let own := (beginnings path).filter fun way => d.current.length < way.length
  let isOpen (way : List String) : Bool :=
    way.length ≤ d.current.length || d.kind? way = some .dotted
  (Toml.define? isOpen path value d.root).map fun root =>
    { d with root, tables := own.map (fun way => (way, .dotted)) ++ d.tables }

end Draft

def endLine? (cs : List Char) : Option (List Char) := do
  let rest ← skipComment cs
  match rest with
  | [] => some []
  | rest => newline? rest

def readStatement (d : Draft) (cs : List Char) : Option (Draft × List Char) :=
  match cs with
  | '[' :: '[' :: rest => do
    let (path, rest) ← readKey (rest.length + 1) rest
    match rest with
    | ']' :: ']' :: rest => return (← d.openItem? path, ← endLine? rest)
    | _ => none
  | '[' :: rest => do
    let (path, rest) ← readKey (rest.length + 1) rest
    match rest with
    | ']' :: rest => return (← d.openTable? path, ← endLine? rest)
    | _ => none
  | cs => do
    let (key, rest) ← readKey (cs.length + 1) cs
    match rest with
    | '=' :: rest =>
      let (value, rest) ← readValue (rest.length + 1) (skipBlanks rest)
      return (← d.define? key value, ← endLine? rest)
    | _ => none

def readLines : Nat → Draft → List Char → Option Draft
  | 0, _, _ => none
  | fuel + 1, d, cs => do
    match ← skipLines (cs.length + 1) cs with
    | [] => return d
    | rest =>
      let (d, rest) ← readStatement d rest
      readLines fuel d rest

def read (text : String) : Option Members :=
  (readLines (text.length + 1) {} text.toList).map Draft.root

end Rebac.Toml
