set_option autoImplicit false

/-!
# Punycode

How a label with characters beyond ASCII is written in letters, digits and hyphens: the ASCII
characters come first, then the places of the others as differences in a number system of base 36
whose thresholds adapt to the text.
-/
namespace Rebac.Url.Punycode

def digitChar (d : Nat) : Char :=
  if d < 26 then Char.ofNat (0x61 + d) else Char.ofNat (0x30 + d - 26)

def digitValue? (c : Char) : Option Nat :=
  let n := c.toLower.toNat
  if 0x61 ≤ n && n ≤ 0x7A then some (n - 0x61)
  else if 0x30 ≤ n && n ≤ 0x39 then some (n - 0x30 + 26)
  else none

def threshold (k bias : Nat) : Nat :=
  if k ≤ bias then 1 else if bias + 26 ≤ k then 26 else k - bias

def shrink (delta k : Nat) : Nat × Nat :=
  if 455 < delta then shrink (delta / 35) (k + 36) else (delta, k)
termination_by delta
decreasing_by exact Nat.div_lt_self (by omega) (by omega)

def adapt (delta points : Nat) (first : Bool) : Nat :=
  let start := if first then delta / 700 else delta / 2
  let (delta, k) := shrink (start + start / points) 0
  k + 36 * delta / (delta + 38)

def writeDigits (bias : Nat) : Nat → Nat → Nat → List Char
  | 0, _, _ => []
  | fuel + 1, k, q =>
    let t := threshold k bias
    if q < t then [digitChar q]
    else digitChar (t + (q - t) % (36 - t)) ::
      writeDigits bias fuel (k + 36) ((q - t) / (36 - t))

/-- What is written so far, and where the next difference counts from. -/
structure Writing where
  out : List Char
  delta : Nat
  bias : Nat
  handled : Nat

def writePlaces (basic code : Nat) (w : Writing) (cs : List Char) : Writing :=
  cs.foldl (fun w c =>
    if c.toNat < code then { w with delta := w.delta + 1 }
    else if c.toNat = code then
      { out := w.out ++ writeDigits w.bias 40 36 w.delta
        delta := 0
        bias := adapt w.delta (w.handled + 1) (w.handled = basic)
        handled := w.handled + 1 }
    else w) w

/-- Writes the places of the characters of each code in turn, in ascending order. -/
def writeCodes (basic : Nat) (cs : List Char) : List Nat → Nat → Writing → Writing
  | [], _, w => w
  | code :: rest, from_, w =>
    let w := { w with delta := w.delta + (code - from_) * (w.handled + 1) }
    let w := writePlaces basic code w cs
    writeCodes basic cs rest (code + 1) { w with delta := w.delta + 1 }

def encode (cs : List Char) : List Char :=
  let basic := cs.filter fun c => c.toNat < 0x80
  let codes := ((cs.map Char.toNat).filter (0x80 ≤ ·)).mergeSort.eraseDups
  let head := if basic = [] then [] else basic ++ ['-']
  (writeCodes basic.length cs codes 0x80 ⟨head, 0, 72, basic.length⟩).out

def readDigits (bias : Nat) : Nat → Nat → Nat → List Char → Option (Nat × List Char)
  | _, _, _, [] => none
  | value, weight, k, c :: rest => do
    let d ← digitValue? c
    let t := threshold k bias
    let value := value + d * weight
    if d < t then return (value, rest)
    else if Nat.pow 2 32 ≤ value then none
    else readDigits bias value (weight * (36 - t)) (k + 36) rest

def readCodes : Nat → List Char → Nat → Nat → Nat → List Char → Option (List Char)
  | _, out, _, _, _, [] => some out
  | 0, _, _, _, _, _ => none
  | fuel + 1, out, code, place, bias, cs => do
    let (value, rest) ← readDigits bias 0 1 36 cs
    let count := out.length + 1
    let position := place + value
    let code := code + position / count
    if 0x110000 ≤ code ∨ (0xD800 ≤ code ∧ code < 0xE000) then none
    else
      let spot := position % count
      let out := out.take spot ++ Char.ofNat code :: out.drop spot
      readCodes fuel out code (spot + 1) (adapt value count (place = 0)) rest

def decode? (cs : List Char) : Option (List Char) :=
  let last := cs.reverse.dropWhile (· ≠ '-')
  let basic := (last.drop 1).reverse
  let rest := cs.drop (if last = [] then 0 else basic.length + 1)
  if basic.any fun c => 0x80 ≤ c.toNat then none
  else readCodes (rest.length + 1) basic 0x80 0 72 rest

end Rebac.Url.Punycode
