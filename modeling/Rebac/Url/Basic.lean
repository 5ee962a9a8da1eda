import Rebac.Text.Blank
import Rebac.Url.Host

set_option autoImplicit false

/-!
# URLs

`Url.split` takes a text apart into the parts of a URL as they are written, and `Url.parse` reads
each part: the host is checked, dots in the path are followed, and what may not stand in a part is
escaped. Spaces and controls around the text, and tabs and line ends in it, do not count.
-/
namespace Rebac

/-- A URL with all parts in their normal form. A URL without a host has an opaque path, or one
that begins with a slash. -/
structure Url where
  scheme : String
  username : String
  password : String
  host : Option Url.Host
  port : Option Nat
  path : String
  query : Option String
  fragment : Option String
  deriving DecidableEq

namespace Url

/-- The parts of a URL as they are written. There is an authority if it may hold a host. -/
structure Parts where
  scheme : List Char
  authority : Option (List Char)
  path : List Char
  query : Option (List Char)
  fragment : Option (List Char)
  deriving DecidableEq

def isEdge (c : Char) : Bool := c.toNat ≤ 0x20

def isBreak (c : Char) : Bool := c = '\t' || c = '\n' || c = '\r'

def clean (cs : List Char) : List Char :=
  (Text.trimWhile isEdge cs).filter fun c => !isBreak c

/-- Schemes whose URLs have a host, with the port that goes without saying. -/
def specialPorts : List (String × Nat) :=
  [("http", 80), ("https", 443), ("ws", 80), ("wss", 443), ("ftp", 21)]

def isSpecial (scheme : List Char) : Bool :=
  (specialPorts.lookup (String.ofList scheme)).isSome || scheme = ['f', 'i', 'l', 'e']

def isSlash (special : Bool) (c : Char) : Bool := c = '/' || (special && c = '\\')

def splitScheme? (cs : List Char) : Option (List Char × List Char) :=
  match cs with
  | [] => none
  | c :: _ =>
    if c.isAlpha then
      let scheme := cs.takeWhile fun c => c.isAlphanum || c = '+' || c = '-' || c = '.'
      match cs.drop scheme.length with
      | ':' :: rest => some (scheme.map Char.toLower, rest)
      | _ => none
    else none

def breakAt (p : Char → Bool) (cs : List Char) : List Char × List Char :=
  (cs.takeWhile fun c => !p c, cs.dropWhile fun c => !p c)

def splitTail (cs : List Char) : List Char × Option (List Char) × Option (List Char) :=
  let (path, rest) := breakAt (fun c => c = '?' || c = '#') cs
  match rest with
  | '?' :: rest =>
    match breakAt (· = '#') rest with
    | (query, _ :: fragment) => (path, some query, some fragment)
    | (query, []) => (path, some query, none)
  | _ :: fragment => (path, none, some fragment)
  | [] => (path, none, none)

/-- Where the authority of a URL begins, if it has one: behind all slashes in a URL of a known
scheme, and behind exactly two in others. The host of a file may be left out with its slashes. -/
def authorityStart? (scheme rest : List Char) : Option (List Char) :=
  if scheme = ['f', 'i', 'l', 'e'] then
    match rest with
    | a :: b :: rest => if isSlash true a && isSlash true b then some rest else none
    | _ => none
  else if isSpecial scheme then some (rest.dropWhile (isSlash true))
  else match rest with
    | '/' :: '/' :: rest => some rest
    | _ => none

def split? (cs : List Char) : Option Parts := do
  let (scheme, rest) ← splitScheme? (clean cs)
  match authorityStart? scheme rest with
  | some rest =>
    let ends (c : Char) : Bool := isSlash (isSpecial scheme) c || c = '?' || c = '#'
    let (authority, rest) := breakAt ends rest
    let (path, query, fragment) := splitTail rest
    return ⟨scheme, some authority, path, query, fragment⟩
  | none =>
    let (path, query, fragment) := splitTail rest
    return ⟨scheme, none, path, query, fragment⟩

def splitUser (authority : List Char) : Option (List Char) × List Char :=
  let (host, rest) := breakAt (· = '@') authority.reverse
  match rest with
  | _ :: user => (some user.reverse, host.reverse)
  | [] => (none, authority)

def splitPort (inside : Bool) : List Char → List Char × Option (List Char)
  | [] => ([], none)
  | c :: rest =>
    if c = ':' && !inside then ([], some rest)
    else
      let inside := if c = '[' then true else if c = ']' then false else inside
      let (host, port) := splitPort inside rest
      (c :: host, port)

def readPort (scheme port : List Char) : Except Error (Option Nat) :=
  if port = [] then .ok none
  else match Number.numberIn? 10 port with
    | none => .error .invalidPort
    | some n =>
      if 65535 < n then .error .invalidPort
      else if specialPorts.lookup (String.ofList scheme) = some n then .ok none
      else .ok (some n)

structure Authority where
  username : String
  password : String
  host : Option Host
  port : Option Nat
  deriving DecidableEq

/-- Reads an authority. A URL of a known scheme needs a host, and so does any with a name or a
port. -/
def readAuthority (scheme authority : List Char) : Except Error Authority := do
  let (user, address) := splitUser authority
  let (name, secret) := breakAt (· = ':') (user.getD [])
  let username := String.ofList (percentEncode userSet name)
  let password := String.ofList (percentEncode userSet (secret.drop 1))
  let (host, port) := splitPort false address
  if scheme = ['f', 'i', 'l', 'e'] then
    if authority = [] then return ⟨"", "", none, none⟩
    else
      let host ← Host.parse authority
      return ⟨"", "", if host = .domain "localhost" then none else some host, none⟩
  else if isSpecial scheme then
    if host = [] then throw .emptyHost
    let host ← Host.parse host
    let port ← readPort scheme (port.getD [])
    return ⟨username, password, some host, port⟩
  else
    if host = [] && (port.isSome || username ≠ "" || password ≠ "") then throw .emptyHost
    let host ← if host = [] then pure none else (Host.parseOpaque host).map some
    let port ← readPort scheme (port.getD [])
    return ⟨username, password, host, port⟩

/-! ## Paths -/

def isSingleDot (segment : List Char) : Bool :=
  let s := String.ofList (segment.map Char.toLower)
  s = "." || s = "%2e"

def isDoubleDot (segment : List Char) : Bool :=
  let s := String.ofList (segment.map Char.toLower)
  s = ".." || s = ".%2e" || s = "%2e." || s = "%2e%2e"

/-- Follows dots: `acc` holds the segments before, last first. A path that ends in dots ends in a
slash. -/
def followDots (acc : List (List Char)) : List (List Char) → List (List Char)
  | [] => acc.reverse
  | segment :: rest =>
    if isDoubleDot segment then
      let acc := acc.drop 1
      if rest.isEmpty then ([] :: acc).reverse else followDots acc rest
    else if isSingleDot segment then
      if rest.isEmpty then ([] :: acc).reverse else followDots acc rest
    else followDots (percentEncode pathSet segment :: acc) rest

def normalPath (special : Bool) (path : List Char) : List Char :=
  (followDots [] (Text.piecesAt (isSlash special) (path.drop 1))).flatMap fun segment => '/' :: segment

def readPath (parts : Parts) : List Char :=
  let special := isSpecial parts.scheme
  match parts.path with
  | [] => if special then ['/'] else []
  | c :: rest =>
    if isSlash special c then normalPath special (c :: rest)
    else if parts.authority.isSome ∨ special then normalPath special ('/' :: c :: rest)
    else percentEncode [] (c :: rest)

def ofParts (parts : Parts) : Except Error Url := do
  let authority ← match parts.authority with
    | some authority => readAuthority parts.scheme authority
    | none => pure ⟨"", "", none, none⟩
  return {
    scheme := String.ofList parts.scheme
    username := authority.username
    password := authority.password
    host := authority.host
    port := authority.port
    path := String.ofList (readPath parts)
    query := parts.query.map fun cs =>
      String.ofList (percentEncode (querySet (isSpecial parts.scheme)) cs)
    fragment := parts.fragment.map fun cs => String.ofList (percentEncode fragmentSet cs) }

def parse (text : String) : Except Error Url :=
  match split? text.toList with
  | none => .error .noScheme
  | some parts => ofParts parts

def text (u : Url) : String :=
  let user :=
    if u.username = "" && u.password = "" then ""
    else u.username ++ (if u.password = "" then "" else ":" ++ u.password) ++ "@"
  let authority := match u.host with
    | some host => "//" ++ user ++ host.text ++
        (match u.port with
         | some port => ":" ++ toString port
         | none => "")
    | none => if u.scheme = "file" then "//" else ""
  u.scheme ++ ":" ++ authority ++ u.path ++
    (match u.query with
     | some query => "?" ++ query
     | none => "") ++
    (match u.fragment with
     | some fragment => "#" ++ fragment
     | none => "")

end Url

end Rebac
