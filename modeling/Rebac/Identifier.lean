import Rebac.Json.Decode

set_option autoImplicit false

/-!
# Identifiers

Stores and authorization models are named by 128-bit numbers, written as 26 digits of an alphabet
of 32 characters, the most significant digit first. Reading takes either case. The 26 digits hold
130 bits: reading drops the two highest, and writing leaves them zero.
-/
namespace Rebac

structure Identifier where
  value : Nat
  value_lt : value < Nat.pow 2 128
  deriving DecidableEq

namespace Identifier

inductive Kind where
  | store
  | model
  deriving DecidableEq, Repr

def Kind.typeName : Kind → String
  | .store => "StoreId"
  | .model => "AuthorizationModelId"

def Kind.settingName : Kind → String
  | .store => "store_id"
  | .model => "authorization_model_id"

inductive Malformed where
  | length
  | character
  deriving DecidableEq, Repr

def Malformed.reason : Malformed → String
  | .length => "invalid length"
  | .character => "invalid character"

def alphabet : List Char :=
  ['0', '1', '2', '3', '4', '5', '6', '7', '8', '9', 'A', 'B', 'C', 'D', 'E', 'F',
   'G', 'H', 'J', 'K', 'M', 'N', 'P', 'Q', 'R', 'S', 'T', 'V', 'W', 'X', 'Y', 'Z']

def length : Nat := 26

def digitValue? (c : Char) : Option Nat := alphabet.idxOf? c.toUpper

def digit (n : Nat) : Char := alphabet.getD n '0'

def number? (cs : List Char) : Option Nat :=
  cs.foldlM (fun acc c => (digitValue? c).map (acc * 32 + ·)) 0

/-- The identifier of a number, without the bits past the 128th. -/
def ofNat (n : Nat) : Identifier :=
  ⟨n % Nat.pow 2 128, Nat.mod_lt _ (by decide)⟩

/-- Reads 26 bytes of digits; the length is looked at before the characters. -/
def parse (s : String) : Except Malformed Identifier :=
  if s.utf8ByteSize ≠ length then .error .length
  else match number? s.toList with
    | none => .error .character
    | some n => .ok (ofNat n)

def digits : Nat → Nat → List Char
  | 0, _ => []
  | count + 1, n => digits count (n / 32) ++ [digit (n % 32)]

def text (id : Identifier) : String := String.ofList (digits length id.value)

def parseMessage (kind : Kind) (why : Malformed) : String :=
  "failed to parse " ++ kind.typeName ++ ": " ++ why.reason

def toJson (id : Identifier) : Json := .string id.text

def decode (j : Json) : Json.Decoded Identifier := do
  let s ← Json.asString j
  match parse s with
  | .ok id => return id
  | .error why => .error (.malformed why.reason)

end Identifier

end Rebac
