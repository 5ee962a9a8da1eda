import Rebac.Number.Reading
import Rebac.Text.Pieces
import Rebac.Url.Error

set_option autoImplicit false

/-!
# Numeric hosts

An IPv4 address has up to four numbers, each in decimal, octal or hexadecimal, of which the last
fills the bytes that are left. An IPv6 address has eight pieces of sixteen bits, of which one run
of zeros may be left out and the last two may be written as an IPv4 address.
-/
namespace Rebac.Url

def ipv4Number? (cs : List Char) : Option Nat :=
  match cs with
  | [] => none
  | '0' :: 'x' :: rest => Number.numberIn? 16 rest
  | '0' :: 'X' :: rest => Number.numberIn? 16 rest
  | '0' :: d :: rest => Number.numberIn? 8 (d :: rest)
  | cs => Number.numberIn? 10 cs

def dotted (cs : List Char) : List (List Char) :=
  let pieces := Text.piecesAt (· = '.') cs
  if pieces.getLast? = some [] then pieces.dropLast else pieces

/-- Whether a name is meant to be an IPv4 address: its last piece is a number. -/
def endsInNumber (cs : List Char) : Bool :=
  match (dotted cs).getLast? with
  | none => false
  | some last => last ≠ [] && (last.all (fun c => (Number.digitIn? 10 c).isSome) || (ipv4Number? last).isSome)

def ipv4? (cs : List Char) : Option Nat := do
  let pieces := dotted cs
  let numbers ← pieces.mapM ipv4Number?
  let last ← numbers.getLast?
  let others := numbers.dropLast
  if 3 < others.length ∨ others.any (255 < ·) ∨ Nat.pow 256 (4 - others.length) ≤ last then none
  else
    let (high, _) := others.foldl (fun acc n => (acc.1 + n * Nat.pow 256 acc.2, acc.2 - 1)) (0, 3)
    return high + last

def ipv4Text (address : Nat) : String :=
  String.intercalate "." <|
    [address / Nat.pow 256 3 % 256, address / Nat.pow 256 2 % 256, address / 256 % 256,
      address % 256].map toString

def ipv4Pieces? (cs : List Char) : Option (List Nat) := do
  let numbers ← (Text.piecesAt (· = '.') cs).mapM fun piece =>
    match piece with
    | [] => none
    | '0' :: _ :: _ => none
    | piece => (Number.numberIn? 10 piece).filter (· ≤ 255)
  match numbers with
  | [a, b, c, d] => some [a * 256 + b, c * 256 + d]
  | _ => none

def ipv6Pieces? (cs : List Char) : Option (List Nat) :=
  if cs = [] then some []
  else
    let pieces := Text.piecesAt (· = ':') cs
    let piece? (p : List Char) : Option Nat :=
      if p = [] ∨ 4 < p.length then none else Number.numberIn? 16 p
    match pieces.getLast? with
    | none => none
    | some last =>
      if last.contains '.' then do
        let first ← pieces.dropLast.mapM piece?
        let tail ← ipv4Pieces? last
        return first ++ tail
      else pieces.mapM piece?

def atDoubleColon? : List Char → Option (List Char × List Char)
  | ':' :: ':' :: rest => some ([], rest)
  | c :: rest => (atDoubleColon? rest).map fun p => (c :: p.1, p.2)
  | [] => none

def ipv6? (cs : List Char) : Option (List Nat) :=
  match atDoubleColon? cs with
  | none => (ipv6Pieces? cs).filter fun ps => ps.length = 8
  | some (before, after) => do
    let first ← ipv6Pieces? before
    let last ← ipv6Pieces? after
    if before.contains '.' ∨ 7 < first.length + last.length then none
    else return first ++ List.replicate (8 - first.length - last.length) 0 ++ last

/-- The first longest run of at least two zeros: where it begins and how long it is. -/
def zeroRun (ps : List Nat) : Nat × Nat :=
  let step (acc : (Nat × Nat) × Nat × Nat) (p : Nat) : (Nat × Nat) × Nat × Nat :=
    let (best, run, i) := acc
    let run := if p = 0 then run + 1 else 0
    let best := if best.2 < run ∧ 1 < run then (i + 1 - run, run) else best
    (best, run, i + 1)
  (ps.foldl step ((0, 0), 0, 0)).1

def hexText (n : Nat) : String := String.ofList (Nat.toDigits 16 n)

def ipv6Text (ps : List Nat) : String :=
  let (start, length) := zeroRun ps
  let join (ps : List Nat) := String.intercalate ":" (ps.map hexText)
  if length = 0 then join ps
  else join (ps.take start) ++ "::" ++ join (ps.drop (start + length))

end Rebac.Url
