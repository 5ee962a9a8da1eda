import Rebac.Number.Reading
import Rebac.Text.Utf8

set_option autoImplicit false

/-! # Percent-encoding -/

namespace Rebac.Url

def hexDigits : List Char :=
  ['0', '1', '2', '3', '4', '5', '6', '7', '8', '9', 'A', 'B', 'C', 'D', 'E', 'F']

def escapeByte (b : UInt8) : List Char :=
  ['%', hexDigits.getD (b.toNat / 16) '0', hexDigits.getD (b.toNat % 16) '0']

def escapeChar (c : Char) : List Char := (String.utf8EncodeChar c).flatMap escapeByte

def isControl (c : Char) : Bool := c.toNat < 0x20 || 0x7F ≤ c.toNat

def percentEncode (extra : List Char) (cs : List Char) : List Char :=
  cs.flatMap fun c => if isControl c || extra.contains c then escapeChar c else [c]

def pathSet : List Char := [' ', '"', '<', '>', '\x60', '#', '?', '\x7b', '\x7d']

/-- What is escaped in a query; a URL of a known scheme escapes the apostrophe too. -/
def querySet (special : Bool) : List Char :=
  [' ', '"', '#', '<', '>'] ++ if special then ['\''] else []

def fragmentSet : List Char := [' ', '"', '<', '>', '\x60']

def userSet : List Char :=
  pathSet ++ ['/', ':', ';', '=', '@', '[', '\\', ']', '^', '|']

def percentDecode : List Char → List UInt8
  | '%' :: a :: b :: rest =>
    match Number.digitIn? 16 a, Number.digitIn? 16 b with
    | some a, some b => UInt8.ofNat (a * 16 + b) :: percentDecode rest
    | _, _ => '%'.toNat.toUInt8 :: percentDecode (a :: b :: rest)
  | c :: rest => String.utf8EncodeChar c ++ percentDecode rest
  | [] => []
termination_by cs => cs.length

end Rebac.Url
