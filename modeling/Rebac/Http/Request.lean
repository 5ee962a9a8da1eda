import Rebac.Headers
import Rebac.Text.Base64
import Rebac.Text.Blank
import Rebac.Url.Basic

set_option autoImplicit false

/-! # Requests over HTTP -/

namespace Rebac.Http

/-- A line of the head: a name in small letters and a value. -/
abbrev Line := String × String

structure Request where
  url : Url
  lines : List Line
  body : Json
  deriving DecidableEq

def baseUrl (address : String) : String :=
  String.ofList (Text.dropEndWhile (· = '/') address.toList)

def isNameChar (c : Char) : Bool :=
  c.isAlphanum || "!#$%&'*+-.^_\x60|~".toList.contains c

def isName (name : String) : Bool :=
  name.toList ≠ [] && name.toList.all isNameChar

def isValue (value : String) : Bool :=
  value.toList.all fun c => c = '\t' || (0x20 ≤ c.toNat && c.toNat ≠ 0x7F)

def trimValue (value : String) : String :=
  String.ofList (Text.trimWhile (fun c => c = ' ' || c = '\t') value.toList)

def contentType : String := "content-type"

def accept : String := "accept"

def hasLine (name : String) (lines : List Line) : Bool := lines.any fun l => l.1 = name

def credentials (url : Url) : List Line :=
  let plain (s : String) : List UInt8 := Url.percentDecode s.toList
  let readable (s : String) : Bool := (Text.Utf8.decode? (plain s)).isSome
  let password := if readable url.password then plain url.password else []
  if !readable url.username || (url.username = "" && password = []) then []
  else
    [("authorization", "Basic " ++
      String.ofList (Text.Base64.encode (plain url.username ++ ':'.toNat.toUInt8 :: password)))]

def callLines? (headers : Headers) : Option (List Line) :=
  headers.mapM fun h =>
    if isName h.1 && isValue h.2 then some (Headers.fold h.1, trimValue h.2) else none

def builderError : CallError := .connection "builder error"

def schemeError (url : Url) : CallError :=
  .connection ("builder error for url (" ++ url.text ++ ")")

def callUrl (address path : String) : Except Url.Error Url :=
  Url.parse (baseUrl address ++ path)

def Request.ofCall (address : String) (call : Call) : Except CallError Request :=
  match callUrl address call.path with
  | .error _ => .error builderError
  | .ok url =>
    if url.host.isNone then .error (schemeError url)
    else
      match callLines? call.headers with
      | none => .error builderError
      | some own =>
        let sent := { url with username := "", password := "" }
        if url.scheme ≠ "http" ∧ url.scheme ≠ "https" then .error (schemeError sent)
        else
          let lines := credentials url ++ (contentType, Headers.json) :: own
          let lines := if hasLine accept lines then lines else lines ++ [(accept, "*/*")]
          .ok { url := sent, lines, body := call.body }

def Request.target (r : Request) : String :=
  r.url.path ++
    (match r.url.query with
     | some query => "?" ++ query
     | none => "")

end Rebac.Http
