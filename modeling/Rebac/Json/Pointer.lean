import Rebac.Json.Basic
import Rebac.Text.Pieces

set_option autoImplicit false

/-!
# JSON pointers

A pointer names a part of a value: `/a/0` is the first item of the member `a`. In a name, `~1`
stands for a slash and `~0` for a tilde.
-/
namespace Rebac.Json

def unescape : List Char → List Char
  | '~' :: '1' :: rest => '/' :: unescape rest
  | '~' :: '0' :: rest => '~' :: unescape rest
  | c :: rest => c :: unescape rest
  | [] => []

def index? (part : List Char) : Option Nat :=
  match part with
  | '0' :: _ :: _ => none
  | [] => none
  | cs => if cs.all Char.isDigit then some (cs.foldl (fun n c => n * 10 + (c.toNat - 48)) 0) else none

def child? (part : List Char) : Json → Option Json
  | .object members => Members.find? (String.ofList (unescape part)) members
  | .array items => (index? part).bind fun i => items[i]?
  | _ => none

def atPointer? (pointer : String) (j : Json) : Option Json :=
  match pointer.toList with
  | [] => some j
  | '/' :: rest => (Text.piecesAt (· = '/') rest).foldlM (fun j part => child? part j) j
  | _ => none

end Rebac.Json
