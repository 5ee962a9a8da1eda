import Rebac.Json.Basic
import Rebac.Number.Reading
import Rebac.Toml.Date

set_option autoImplicit false

/-!
# Values in TOML

Keys and values as they stand behind them: strings of four kinds, whole numbers of 64 bits,
doubles, booleans, dates, lists and inline tables. A value is kept as the JSON value that it stands
for, a date as its text.
-/
namespace Rebac.Toml

abbrev Reader (α : Type) := List Char → Option (α × List Char)

def isBlank (c : Char) : Bool := c = ' ' || c = '\t'

def skipBlanks (cs : List Char) : List Char := cs.dropWhile isBlank

def isControl (c : Char) : Bool := (c.toNat < 0x20 && c ≠ '\t') || c.toNat = 0x7F

def newline? : List Char → Option (List Char)
  | '\n' :: rest => some rest
  | '\r' :: '\n' :: rest => some rest
  | _ => none

def skipComment (cs : List Char) : Option (List Char) :=
  match skipBlanks cs with
  | '#' :: rest =>
    let behind := rest.dropWhile fun c => !isControl c
    match behind with
    | [] => some []
    | rest => (newline? rest).map fun _ => rest
  | rest => some rest

def skipLines : Nat → List Char → Option (List Char)
  | 0, _ => none
  | fuel + 1, cs => do
    let rest ← skipComment cs
    match newline? rest with
    | some rest => skipLines fuel rest
    | none => some rest

/-! ## Strings -/

def readCodePoint (count : Nat) : Reader Char := fun cs => do
  let n ← Number.numberIn? 16 (cs.take count)
  if count ≤ cs.length ∧ n.isValidChar then some (Char.ofNat n, cs.drop count) else none

def readEscape : Reader Char
  | 'b' :: rest => some ('\x08', rest)
  | 't' :: rest => some ('\t', rest)
  | 'n' :: rest => some ('\n', rest)
  | 'f' :: rest => some ('\x0c', rest)
  | 'r' :: rest => some ('\r', rest)
  | '"' :: rest => some ('"', rest)
  | '\\' :: rest => some ('\\', rest)
  | 'u' :: rest => readCodePoint 4 rest
  | 'U' :: rest => readCodePoint 8 rest
  | _ => none

def readLine (quote : Char) : Nat → List Char → Reader String
  | 0, _, _ => none
  | _ + 1, _, [] => none
  | fuel + 1, acc, c :: rest =>
    if c = quote then some (String.ofList acc.reverse, rest)
    else if c = '\\' && quote = '"' then do
      let (c, rest) ← readEscape rest
      readLine quote fuel (c :: acc) rest
    else if isControl c then none
    else readLine quote fuel (c :: acc) rest

/-- What is behind a backslash at the end of a line: the first character that is no blank and no
end of a line. -/
def skipFold (cs : List Char) : Option (List Char) :=
  match newline? (skipBlanks cs) with
  | some rest => some (rest.dropWhile fun c => isBlank c || c = '\n' || c = '\r')
  | none => none

/-- The rest of a string of several lines. Of more than three quotes at its end, those before the
last three belong to it. -/
def readBlock (quote : Char) : Nat → List Char → Reader String
  | 0, _, _ => none
  | _ + 1, _, [] => none
  | fuel + 1, acc, c :: rest =>
    let run := (c :: rest).takeWhile (· = quote)
    if 3 ≤ run.length then
      if 5 < run.length then none
      else some (String.ofList (acc.reverse ++ run.drop 3), (c :: rest).drop run.length)
    else if c = '\\' && quote = '"' then
      match skipFold rest with
      | some rest => readBlock quote fuel acc rest
      | none => do
        let (c, rest) ← readEscape rest
        readBlock quote fuel (c :: acc) rest
    else match newline? (c :: rest) with
      | some rest => readBlock quote fuel ('\n' :: acc) rest
      | none => if isControl c then none else readBlock quote fuel (c :: acc) rest

/-- A string of either kind of quotes. An end of a line right behind three quotes does not
count. -/
def readString : Reader String
  | a :: b :: c :: rest =>
    if a ≠ '"' ∧ a ≠ '\'' then none
    else if a = b ∧ b = c then
      readBlock a (rest.length + 1) [] ((newline? rest).getD rest)
    else readLine a (rest.length + 3) [] (b :: c :: rest)
  | [a, b] => if (a = '"' ∨ a = '\'') ∧ a = b then some ("", []) else none
  | _ => none

/-! ## Keys -/

def isBareKeyChar (c : Char) : Bool := c.isAlphanum || c = '_' || c = '-'

def readKeyPart (cs : List Char) : Option (String × List Char) :=
  match cs with
  | '"' :: rest => readLine '"' (rest.length + 1) [] rest
  | '\'' :: rest => readLine '\'' (rest.length + 1) [] rest
  | cs =>
    match cs.takeWhile isBareKeyChar with
    | [] => none
    | name => some (String.ofList name, cs.dropWhile isBareKeyChar)

def readKey : Nat → Reader (List String)
  | 0, _ => none
  | fuel + 1, cs => do
    let (part, rest) ← readKeyPart (skipBlanks cs)
    match skipBlanks rest with
    | '.' :: rest => do
      let (parts, rest) ← readKey fuel rest
      return (part :: parts, rest)
    | rest => return ([part], rest)

/-! ## Numbers -/

/-- The digits of a text without the separators between them; `behind` says whether a digit
stands in front, where a separator or the end may follow. -/
def digitsFrom? (base : Nat) (behind : Bool) : List Char → Option (List Nat)
  | [] => if behind then some [] else none
  | c :: rest =>
    if c = '_' then (if behind then digitsFrom? base false rest else none)
    else do
      let d ← Number.digitIn? base c
      let others ← digitsFrom? base true rest
      return d :: others

def digitsOf? (base : Nat) (cs : List Char) : Option (List Nat) := digitsFrom? base false cs

def valueOf (base : Nat) (digits : List Nat) : Nat :=
  digits.foldl (fun acc d => acc * base + d) 0

def plainDigits? (cs : List Char) : Option (List Nat) :=
  match digitsOf? 10 cs with
  | some (0 :: _ :: _) => none
  | other => other

def whole? (cs : List Char) : Option Int :=
  let checked (n : Int) : Option Int :=
    if -(Int.pow 2 63) ≤ n ∧ n < Int.pow 2 63 then some n else none
  match cs with
  | '0' :: 'x' :: rest => (digitsOf? 16 rest).bind fun ds => checked (valueOf 16 ds)
  | '0' :: 'o' :: rest => (digitsOf? 8 rest).bind fun ds => checked (valueOf 8 ds)
  | '0' :: 'b' :: rest => (digitsOf? 2 rest).bind fun ds => checked (valueOf 2 ds)
  | cs =>
    let (negative, rest) := Number.splitSign cs
    (plainDigits? rest).bind fun ds =>
      checked (if negative then -(valueOf 10 ds : Int) else valueOf 10 ds)

def power? (cs : List Char) : Option Int :=
  let (negative, rest) := Number.splitSign cs
  (digitsOf? 10 rest).map fun ds => if negative then -(valueOf 10 ds : Int) else valueOf 10 ds

def double? (cs : List Char) : Option Double :=
  let (negative, rest) := Number.splitSign cs
  match rest with
  | ['i', 'n', 'f'] => some (.infinite negative)
  | ['n', 'a', 'n'] => some .nan
  | rest =>
    let isE (c : Char) : Bool := c = 'e' || c = 'E'
    let mantissa := rest.takeWhile fun c => !isE c
    let tail := rest.dropWhile fun c => !isE c
    let whole := mantissa.takeWhile (· ≠ '.')
    let point := mantissa.dropWhile (· ≠ '.')
    if point = [] ∧ tail = [] then none
    else do
      let high ← plainDigits? whole
      let low ← if point = [] then some [] else digitsOf? 10 (point.drop 1)
      let power ← if tail = [] then some 0 else power? (tail.drop 1)
      match Double.ofDecimal negative (valueOf 10 (high ++ low)) (power - low.length) with
      | .infinite _ => none
      | x => some x

/-! ## Values -/

def readWord : Reader Json := fun cs =>
  let ends (c : Char) : Bool := isBlank c || [',', ']', '\x7d', '#', '\n', '\r'].contains c
  let atom := cs.takeWhile fun c => !ends c
  let rest := cs.dropWhile fun c => !ends c
  match atom with
  | ['t', 'r', 'u', 'e'] => some (.bool true, rest)
  | ['f', 'a', 'l', 's', 'e'] => some (.bool false, rest)
  | atom =>
    match whole? atom with
    | some n => some (.int n, rest)
    | none => (double? atom).map fun x => (.float x, rest)

def readAtom : Reader Json := fun cs =>
  match readMoment cs with
  | some (text, rest) => some (.string text, rest)
  | none => readWord cs

/-- The value at a place among members. The way leads through tables and the last items of
lists. -/
def findIn (path : List String) (members : Members) : Option Json :=
  path.foldlM (fun j name => (match j with
    | .array items => items.getLast?.getD .null
    | j => j).member? name) (.object members)

def putIn (value : Json) : List String → Members → Members
  | [], members => members
  | [name], members => members.insert name value
  | name :: path, members =>
    let inner : Json → Json
      | .object inner => .object (putIn value path inner)
      | _ => .object (putIn value path [])
    members.insert name <| match members.find? name with
      | some (.array items) => .array (items.dropLast ++ [inner (items.getLast?.getD .null)])
      | some j => inner j
      | none => inner .null

/-- Adds the value of a key; a key that is there already, or whose way leads through something
that is no table, is refused. `isOpen` says which tables a key may lead through. -/
def define? (isOpen : List String → Bool) (path : List String) (value : Json)
    (members : Members) : Option Members :=
  let onTheWay := (List.range (path.length - 1)).map fun n => path.take (n + 1)
  if (findIn path members).isSome then none
  else if onTheWay.all fun way => (findIn way members).isNone || isOpen way then
    some (putIn value path members)
  else none

mutual

/-- One value. `fuel` bounds how deep values nest and how many items they have. -/
def readValue : Nat → Reader Json
  | 0, _ => none
  | fuel + 1, cs =>
    match cs with
    | '[' :: rest => do
      let (items, rest) ← readItems fuel rest
      return (.array items, rest)
    | '\x7b' :: rest =>
      match skipBlanks rest with
      | '\x7d' :: rest => some (.object [], rest)
      | rest => do
        let (members, rest) ← readPairs fuel [] [] rest
        return (.object members, rest)
    | '"' :: _ => (readString cs).map fun r => (.string r.1, r.2)
    | '\'' :: _ => (readString cs).map fun r => (.string r.1, r.2)
    | cs => readAtom cs

def readItems : Nat → Reader (List Json)
  | 0, _ => none
  | fuel + 1, cs => do
    match ← skipLines (cs.length + 1) cs with
    | ']' :: rest => return ([], rest)
    | rest =>
      let (item, rest) ← readValue fuel rest
      match ← skipLines (rest.length + 1) rest with
      | ',' :: rest =>
        let (items, rest) ← readItems fuel rest
        return (item :: items, rest)
      | ']' :: rest => return ([item], rest)
      | _ => none

def readPairs : Nat → List (List String) → Members → Reader Members
  | 0, _, _, _ => none
  | fuel + 1, dotted, members, cs => do
    let (key, rest) ← readKey (cs.length + 1) cs
    match rest with
    | '=' :: rest =>
      let (value, rest) ← readValue fuel (skipBlanks rest)
      let members ← define? dotted.contains key value members
      let dotted := (List.range (key.length - 1)).map (fun n => key.take (n + 1)) ++ dotted
      match skipBlanks rest with
      | ',' :: rest => readPairs fuel dotted members rest
      | '\x7d' :: rest => return (members, rest)
      | _ => none
    | _ => none

end

end Rebac.Toml
