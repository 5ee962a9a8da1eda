import Rebac.Json.Basic
import Rebac.Text.Utf8

set_option autoImplicit false

/-!
# Reading JSON text

`Json.read` takes the bytes of one JSON value, with blanks around it, and says what is wrong and
where when they are none. Values nest at most 127 deep. A whole number between `-2 ^ 63` and
`2 ^ 64 - 1` is kept exactly; every other number, and `-0`, becomes a double: its first digits,
as many as stay below `2 ^ 64`, are rounded and then multiplied or divided by a rounded power of
ten.
-/
namespace Rebac.Json

inductive Fault where
  | listUnfinished
  | objectUnfinished
  | stringUnfinished
  | valueUnfinished
  | expectedColon
  | expectedListCommaOrEnd
  | expectedObjectCommaOrEnd
  | expectedIdent
  | expectedValue
  | invalidEscape
  | invalidNumber
  | numberOutOfRange
  | invalidCodePoint
  | controlCharacter
  | keyNotString
  | loneSurrogate
  | trailingComma
  | trailingCharacters
  | hexEscapeUnfinished
  | tooDeep
  deriving DecidableEq, Repr

def Fault.message : Fault → String
  | .listUnfinished => "EOF while parsing a list"
  | .objectUnfinished => "EOF while parsing an object"
  | .stringUnfinished => "EOF while parsing a string"
  | .valueUnfinished => "EOF while parsing a value"
  | .expectedColon => "expected `:`"
  | .expectedListCommaOrEnd => "expected `,` or `]`"
  | .expectedObjectCommaOrEnd => "expected `,` or `\x7d`"
  | .expectedIdent => "expected ident"
  | .expectedValue => "expected value"
  | .invalidEscape => "invalid escape"
  | .invalidNumber => "invalid number"
  | .numberOutOfRange => "number out of range"
  | .invalidCodePoint => "invalid unicode code point"
  | .controlCharacter =>
    "control character (\\u0000-\\u001F) found while parsing a string"
  | .keyNotString => "key must be a string"
  | .loneSurrogate => "lone leading surrogate in hex escape"
  | .trailingComma => "trailing comma"
  | .trailingCharacters => "trailing characters"
  | .hexEscapeUnfinished => "unexpected end of hex escape"
  | .tooDeep => "recursion limit exceeded"

/-- A fault with its line, from one, and the number of bytes before it in that line. -/
structure SyntaxError where
  fault : Fault
  line : Nat
  column : Nat
  deriving DecidableEq, Repr

def SyntaxError.message (e : SyntaxError) : String :=
  e.fault.message ++ " at line " ++ toString e.line ++ " column " ++ toString e.column

/-- A fault and how many bytes were left behind the place it is reported at. -/
structure Failure where
  fault : Fault
  left : Nat

def place (bytes : List UInt8) (index : Nat) : Nat × Nat :=
  (bytes.take index).foldl
    (fun pos b => if b = 10 then (pos.1 + 1, 0) else (pos.1, pos.2 + 1)) (1, 0)

def Failure.locate (f : Failure) (bytes : List UInt8) : SyntaxError :=
  let pos := place bytes (bytes.length - f.left)
  ⟨f.fault, pos.1, pos.2⟩

abbrev Reading (α : Type) := Except Failure (α × List UInt8)

def failHere {α : Type} (fault : Fault) (rest : List UInt8) : Except Failure α :=
  .error ⟨fault, rest.length⟩

def failNext {α : Type} (fault : Fault) (rest : List UInt8) : Except Failure α :=
  .error ⟨fault, rest.length - 1⟩

def isSpace (b : UInt8) : Bool := b == 32 || b == 10 || b == 9 || b == 13

def skipSpace (bytes : List UInt8) : List UInt8 := bytes.dropWhile isSpace

def digit? (b : UInt8) : Option Nat :=
  if 48 ≤ b && b ≤ 57 then some (b.toNat - 48) else none

def readWord (word : List Char) (value : Json) (bytes : List UInt8) : Reading Json :=
  match word, bytes with
  | [], rest => .ok (value, rest)
  | _ :: _, [] => failHere .valueUnfinished []
  | c :: word, b :: rest =>
    if b.toNat = c.toNat then readWord word value rest else failHere .expectedIdent rest

/-! ## Numbers -/

/-- `± significand * 10 ^ exponent` by one rounded multiplication or division. -/
def scaled? (negative : Bool) (significand : Nat) (exponent : Int) : Option Double :=
  if significand = 0 then some (.zero negative)
  else if 308 < exponent then none
  else
    let start := Double.ofRatio negative significand 1
    let power (n : Nat) : Nat × Nat :=
      match Double.ofRatio false (Nat.pow 10 n) 1 with
      | .finite _ m e => Double.magnitude m e
      | _ => (1, 1)
    let divide (x : Double) (n : Nat) : Double :=
      let p := power n
      x.scale p.2 p.1
    match exponent with
    | .ofNat n =>
      let p := power n
      match start.scale p.1 p.2 with
      | .infinite _ => none
      | x => some x
    | .negSucc n =>
      let n := n + 1
      if n ≤ 308 then some (divide start n)
      else if n ≤ 616 then some (divide (divide start 308) (n - 308))
      else some (.zero negative)

def readScaled (negative : Bool) (significand : Nat) (exponent : Int) (rest : List UInt8) :
    Reading Json :=
  match scaled? negative significand exponent with
  | some x => .ok (.float x, rest)
  | none => failHere .numberOutOfRange rest

/-- The digits of an exponent; past `2 ^ 31 - 1` the number is out of range or zero. -/
def readPower (negative : Bool) (significand : Nat) (start : Int) (down : Bool) (power : Nat) :
    List UInt8 → Reading Json
  | [] => readScaled negative significand (if down then start - power else start + power) []
  | b :: rest =>
    match digit? b with
    | none =>
      readScaled negative significand (if down then start - power else start + power) (b :: rest)
    | some d =>
      if Nat.pow 2 31 - 1 < power * 10 + d then
        if significand ≠ 0 ∧ !down then failHere .numberOutOfRange rest
        else .ok (.float (.zero negative), rest.dropWhile fun b => (digit? b).isSome)
      else readPower negative significand start down (power * 10 + d) rest

def readExponent (negative : Bool) (significand : Nat) (start : Int) (bytes : List UInt8) :
    Reading Json :=
  let signed := match bytes with
    | 43 :: rest => (false, rest)
    | 45 :: rest => (true, rest)
    | rest => (false, rest)
  match signed.2 with
  | [] => failHere .valueUnfinished []
  | b :: rest =>
    match digit? b with
    | none => failHere .invalidNumber rest
    | some d => readPower negative significand start signed.1 d rest

def finishFraction (negative : Bool) (significand : Nat) (exponent : Int) (bytes : List UInt8) :
    Reading Json :=
  match bytes with
  | 101 :: rest => readExponent negative significand exponent rest
  | 69 :: rest => readExponent negative significand exponent rest
  | rest => readScaled negative significand exponent rest

/-- The digits behind a point. Those that would take the significand past `2 ^ 64 - 1` are
passed over. -/
def readFraction (negative : Bool) (exponent : Int) (significand places : Nat) :
    List UInt8 → Reading Json
  | [] =>
    if places = 0 then failNext .valueUnfinished []
    else finishFraction negative significand (exponent - places) []
  | b :: rest =>
    match digit? b with
    | none =>
      if places = 0 then failNext .invalidNumber (b :: rest)
      else finishFraction negative significand (exponent - places) (b :: rest)
    | some d =>
      if Nat.pow 2 64 - 1 < significand * 10 + d then
        finishFraction negative significand (exponent - places)
          (rest.dropWhile fun b => (digit? b).isSome)
      else readFraction negative exponent (significand * 10 + d) (places + 1) rest

/-- Digits of a whole part that no longer fit, each worth one power of ten. -/
def readLong (negative : Bool) (significand : Nat) (exponent : Nat) :
    List UInt8 → Reading Json
  | [] => readScaled negative significand exponent []
  | b :: rest =>
    if (digit? b).isSome then readLong negative significand (exponent + 1) rest
    else match b with
      | 46 => readFraction negative exponent significand 0 rest
      | 101 => readExponent negative significand exponent rest
      | 69 => readExponent negative significand exponent rest
      | _ => readScaled negative significand exponent (b :: rest)

def finishWhole (negative : Bool) (significand : Nat) (bytes : List UInt8) : Reading Json :=
  match bytes with
  | 46 :: rest => readFraction negative 0 significand 0 rest
  | 101 :: rest => readExponent negative significand 0 rest
  | 69 :: rest => readExponent negative significand 0 rest
  | rest =>
    if !negative then .ok (.int significand, rest)
    else if significand = 0 ∨ Nat.pow 2 63 < significand then
      .ok (.float (Double.ofRatio true significand 1), rest)
    else .ok (.int (-(significand : Int)), rest)

/-- The digits of a whole part, while they stay below `2 ^ 64`. -/
def readWhole (negative : Bool) (significand : Nat) : List UInt8 → Reading Json
  | [] => finishWhole negative significand []
  | b :: rest =>
    match digit? b with
    | none => finishWhole negative significand (b :: rest)
    | some d =>
      if Nat.pow 2 64 - 1 < significand * 10 + d then
        readLong negative significand 0 (b :: rest)
      else readWhole negative (significand * 10 + d) rest

def readNumber (negative : Bool) (bytes : List UInt8) : Reading Json :=
  match bytes with
  | [] => failHere .valueUnfinished []
  | b :: rest =>
    match digit? b with
    | none => failHere .invalidNumber rest
    | some 0 =>
      match rest with
      | [] => finishWhole negative 0 []
      | c :: rest =>
        if (digit? c).isSome then failNext .invalidNumber (c :: rest)
        else finishWhole negative 0 (c :: rest)
    | some d => readWhole negative d rest

/-! ## Strings -/

def hexDigit? (b : UInt8) : Option Nat :=
  if 48 ≤ b && b ≤ 57 then some (b.toNat - 48)
  else if 97 ≤ b && b ≤ 102 then some (b.toNat - 87)
  else if 65 ≤ b && b ≤ 70 then some (b.toNat - 55)
  else none

def readHex (bytes : List UInt8) : Reading Nat :=
  match bytes with
  | a :: b :: c :: d :: rest =>
    match hexDigit? a, hexDigit? b, hexDigit? c, hexDigit? d with
    | some a, some b, some c, some d => .ok (((a * 16 + b) * 16 + c) * 16 + d, rest)
    | _, _, _, _ => failHere .invalidEscape rest
  | _ => failHere .stringUnfinished []

def readPairByte (expected : UInt8) (bytes : List UInt8) : Except Failure (List UInt8) :=
  match bytes with
  | [] => failHere .stringUnfinished []
  | b :: rest => if b = expected then .ok rest else failHere .hexEscapeUnfinished rest

/-- The character of an escape by number; two surrogates make one character. -/
def readCodePoint (bytes : List UInt8) : Except Failure (Char × List UInt8) := do
  let (n, rest) ← readHex bytes
  if 0xDC00 ≤ n ∧ n ≤ 0xDFFF then failHere .loneSurrogate rest
  else if n < 0xD800 ∨ 0xDBFF < n then return (Char.ofNat n, rest)
  else
    let rest ← readPairByte 92 rest
    let rest ← readPairByte 117 rest
    let (low, rest) ← readHex rest
    if low < 0xDC00 ∨ 0xDFFF < low then failHere .loneSurrogate rest
    else return (Char.ofNat ((n - 0xD800) * 0x400 + (low - 0xDC00) + 0x10000), rest)

def readEscape (bytes : List UInt8) : Reading Char :=
  match bytes with
  | [] => failHere .stringUnfinished []
  | b :: rest =>
    match Char.ofNat b.toNat with
    | '"' => .ok ('"', rest)
    | '\\' => .ok ('\\', rest)
    | '/' => .ok ('/', rest)
    | 'b' => .ok ('\x08', rest)
    | 'f' => .ok ('\x0c', rest)
    | 'n' => .ok ('\n', rest)
    | 'r' => .ok ('\r', rest)
    | 't' => .ok ('\t', rest)
    | 'u' => readCodePoint rest
    | _ => failHere .invalidEscape rest

/-- The rest of a string behind its opening quote; `acc` holds its bytes so far, last first. -/
def readString : Nat → List UInt8 → List UInt8 → Except Failure (String × List UInt8)
  | 0, _, rest => failHere .stringUnfinished rest
  | _ + 1, _, [] => failHere .stringUnfinished []
  | fuel + 1, acc, b :: rest =>
    if b = 34 then
      match Text.Utf8.decode? acc.reverse with
      | some cs => .ok (String.ofList cs, rest)
      | none => failHere .invalidCodePoint rest
    else if b = 92 then do
      let (c, rest) ← readEscape rest
      readString fuel ((String.utf8EncodeChar c).reverse ++ acc) rest
    else if b < 32 then failHere .controlCharacter rest
    else readString fuel (b :: acc) rest

/-! ## Values -/

def readColon (bytes : List UInt8) : Except Failure (List UInt8) :=
  match skipSpace bytes with
  | 58 :: rest => .ok rest
  | [] => failNext .objectUnfinished []
  | rest => failNext .expectedColon rest

/-- Steps to the next item of a list: the bytes it begins with, or what is behind the list. -/
def nextItem (first : Bool) (bytes : List UInt8) : Except Failure (Bool × List UInt8) :=
  match skipSpace bytes with
  | [] => failNext .listUnfinished []
  | 93 :: rest => .ok (false, rest)
  | b :: rest =>
    if first then .ok (true, b :: rest)
    else if b = 44 then
      match skipSpace rest with
      | [] => failNext .valueUnfinished []
      | 93 :: rest => failNext .trailingComma (93 :: rest)
      | rest => .ok (true, rest)
    else failNext .expectedListCommaOrEnd (b :: rest)

def nextName (first : Bool) (bytes : List UInt8) : Except Failure (Bool × List UInt8) :=
  match skipSpace bytes with
  | [] => failNext .objectUnfinished []
  | 125 :: rest => .ok (false, rest)
  | b :: rest =>
    if first then
      if b = 34 then .ok (true, rest) else failNext .keyNotString (b :: rest)
    else if b = 44 then
      match skipSpace rest with
      | [] => failNext .valueUnfinished []
      | 34 :: rest => .ok (true, rest)
      | 125 :: rest => failNext .trailingComma (125 :: rest)
      | rest => failNext .keyNotString rest
    else failNext .expectedObjectCommaOrEnd (b :: rest)

mutual

/-- One value. `depth` is how many more lists and objects may be open. -/
def readValue : Nat → Nat → List UInt8 → Except Failure (Json × List UInt8)
  | 0, _, rest => failHere .valueUnfinished rest
  | fuel + 1, depth, bytes =>
    match skipSpace bytes with
    | [] => failNext .valueUnfinished []
    | b :: rest =>
      match Char.ofNat b.toNat with
      | 'n' => readWord ['u', 'l', 'l'] .null rest
      | 't' => readWord ['r', 'u', 'e'] (.bool true) rest
      | 'f' => readWord ['a', 'l', 's', 'e'] (.bool false) rest
      | '-' => readNumber true rest
      | '"' => do
        let (s, rest) ← readString (rest.length + 1) [] rest
        return (.string s, rest)
      | '[' =>
        match depth with
        | 0 => failNext .tooDeep (b :: rest)
        | depth + 1 => do
          let (items, rest) ← readItems fuel depth true [] rest
          return (.array items, rest)
      | '\x7b' =>
        match depth with
        | 0 => failNext .tooDeep (b :: rest)
        | depth + 1 => do
          let (pairs, rest) ← readMembers fuel depth true [] rest
          return (Json.ofMembers pairs, rest)
      | _ =>
        if (digit? b).isSome then readNumber false (b :: rest)
        else failNext .expectedValue (b :: rest)

def readItems : Nat → Nat → Bool → List Json → List UInt8 → Except Failure ((List Json) × List UInt8)
  | 0, _, _, _, rest => failHere .listUnfinished rest
  | fuel + 1, depth, isFirst, acc, bytes => do
    let (more, rest) ← nextItem isFirst bytes
    if more then
      let (item, rest) ← readValue fuel depth rest
      readItems fuel depth false (item :: acc) rest
    else return (acc.reverse, rest)

def readMembers : Nat → Nat → Bool → List (String × Json) → List UInt8 →
    Except Failure (List (String × Json) × List UInt8)
  | 0, _, _, _, rest => failHere .objectUnfinished rest
  | fuel + 1, depth, isFirst, acc, bytes => do
    let (more, rest) ← nextName isFirst bytes
    if more then
      let (name, rest) ← readString (rest.length + 1) [] rest
      let rest ← readColon rest
      let (value, rest) ← readValue fuel depth rest
      readMembers fuel depth false ((name, value) :: acc) rest
    else return (acc.reverse, rest)

end

def maxDepth : Nat := 127

/-- The members of an object as its bytes write them, with those of one name apart. -/
def readPairs? (bytes : List UInt8) : Option (List (String × Json)) :=
  match skipSpace bytes with
  | 123 :: rest =>
    match readMembers (2 * bytes.length + 2) (maxDepth - 1) true [] rest with
    | .ok (pairs, rest) => if skipSpace rest = [] then some pairs else none
    | .error _ => none
  | _ => none

def read (bytes : List UInt8) : Except SyntaxError Json :=
  match readValue (2 * bytes.length + 2) maxDepth bytes with
  | .error failure => .error (failure.locate bytes)
  | .ok (value, rest) =>
    match skipSpace rest with
    | [] => .ok value
    | rest => .error ((Failure.mk .trailingCharacters (rest.length - 1)).locate bytes)

end Rebac.Json
