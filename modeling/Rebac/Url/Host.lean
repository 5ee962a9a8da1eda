import Rebac.Text.Hidden
import Rebac.Url.Address
import Rebac.Url.Percent
import Rebac.Url.Punycode

set_option autoImplicit false

/-!
# Hosts

The host of a URL of a known scheme is a domain name or an address. A domain name is brought into
its ASCII form: small letters, full-width characters as the ASCII ones they stand for, and labels
with other characters in Punycode. The host of any other URL is taken as it is.
-/
namespace Rebac.Url

inductive Host where
  | domain (name : String)
  | ipv4 (address : Nat)
  | ipv6 (pieces : List Nat)
  deriving DecidableEq, Repr

def Host.text : Host → String
  | .domain name => name
  | .ipv4 address => ipv4Text address
  | .ipv6 pieces => "[" ++ ipv6Text pieces ++ "]"

def hostForbidden (c : Char) : Bool :=
  ['\x00', '\t', '\n', '\r', ' ', '#', '/', ':', '<', '>', '?', '@', '[', '\\', ']', '^', '|'].contains c

def domainForbidden (c : Char) : Bool :=
  hostForbidden c || c = '%' || c.toNat < 0x20 || c.toNat = 0x7F

def domainIgnored (c : Char) : Bool :=
  let n := c.toNat
  n == 0xAD || n == 0x34F || (0x180B ≤ n && n ≤ 0x180F) || n == 0x200B || n == 0x2060 ||
    n == 0x2064 || (0xFE00 ≤ n && n ≤ 0xFE0F) || n == 0xFEFF || (0xE0100 ≤ n && n ≤ 0xE01EF)

def domainFold (c : Char) : Char :=
  let n := c.toNat
  if n == 0x3002 || n == 0xFF61 then '.'
  else if 0xFF01 ≤ n && n ≤ 0xFF5E then (Char.ofNat (n - 0xFEE0)).toLower
  else c.toLower

def isAscii (c : Char) : Bool := c.toNat < 0x80

def domainAllowed (c : Char) : Bool :=
  isAscii c || (!Text.isUnseen c && c.toNat ≠ 0xFFFC && c.toNat ≠ 0xFFFD)

def isLabel (cs : List Char) : Bool :=
  cs.all domainAllowed && !cs.head?.any Text.isMark

def labelToAscii? (label : List Char) : Option (List Char) :=
  if label.all isAscii then
    if ['x', 'n', '-', '-'].isPrefixOf label then
      match Punycode.decode? (label.drop 4) with
      | none => none
      | some cs =>
        if cs.all isAscii || !isLabel cs || Punycode.encode cs ≠ label.drop 4 then none
        else some label
    else some label
  else if isLabel label then some (['x', 'n', '-', '-'] ++ Punycode.encode label)
  else none

def joinLabels : List (List Char) → List Char
  | [] => []
  | [label] => label
  | label :: rest => label ++ '.' :: joinLabels rest

def domainToAscii? (cs : List Char) : Option (List Char) :=
  let cs := (cs.filter fun c => !domainIgnored c).map domainFold
  if cs.any domainForbidden then none
  else ((Text.piecesAt (· = '.') cs).mapM labelToAscii?).map joinLabels

def Host.parse (cs : List Char) : Except Error Host :=
  match cs with
  | '[' :: rest =>
    if rest.getLast? ≠ some ']' then .error .invalidIpv6
    else match ipv6? rest.dropLast with
      | some pieces => .ok (.ipv6 pieces)
      | none => .error .invalidIpv6
  | cs =>
    match (Text.Utf8.decode? (percentDecode cs)).bind domainToAscii? with
    | none => .error .invalidDomainName
    | some [] => .error .emptyHost
    | some name =>
      if endsInNumber name then
        match ipv4? name with
        | some address => .ok (.ipv4 address)
        | none => .error .invalidIpv4
      else .ok (.domain (String.ofList name))

def Host.parseOpaque (cs : List Char) : Except Error Host :=
  match cs with
  | '[' :: _ => Host.parse cs
  | cs =>
    if cs.any hostForbidden then .error .invalidDomainCharacter
    else .ok (.domain (String.ofList (percentEncode [] cs)))

end Rebac.Url
