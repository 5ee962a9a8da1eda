set_option autoImplicit false

/-! # UTF-8 -/

namespace Rebac.Text.Utf8

def encode (cs : List Char) : List UInt8 := cs.flatMap String.utf8EncodeChar

/-- How many bytes follow a first byte, the range of the byte after it, and the bits it holds. -/
def lead? (b : UInt8) : Option (Nat × Nat × Nat × Nat) :=
  let n := b.toNat
  if 0xC2 ≤ n && n ≤ 0xDF then some (1, 0x80, 0xBF, n - 0xC0)
  else if n == 0xE0 then some (2, 0xA0, 0xBF, 0)
  else if n == 0xED then some (2, 0x80, 0x9F, 0xD)
  else if 0xE1 ≤ n && n ≤ 0xEF then some (2, 0x80, 0xBF, n - 0xE0)
  else if n == 0xF0 then some (3, 0x90, 0xBF, 0)
  else if 0xF1 ≤ n && n ≤ 0xF3 then some (3, 0x80, 0xBF, n - 0xF0)
  else if n == 0xF4 then some (3, 0x80, 0x8F, 4)
  else none

/-- What a first byte and the bytes after it make: a character, or nothing when they break off.
The second part is how many of the following bytes were used. -/
def tail (need low high bits used : Nat) : List UInt8 → Option Char × Nat
  | [] => (none, used)
  | b :: rest =>
    let n := b.toNat
    if low ≤ n && n ≤ high then
      let bits := bits * 64 + (n - 0x80)
      match need with
      | 0 | 1 => (some (Char.ofNat bits), used + 1)
      | need + 1 => tail need 0x80 0xBF bits (used + 1) rest
    else (none, used)

def first (b : UInt8) (rest : List UInt8) : Option Char × Nat :=
  if b.toNat < 0x80 then (some (Char.ofNat b.toNat), 0)
  else match lead? b with
    | none => (none, 0)
    | some (need, low, high, bits) => tail need low high bits 0 rest

def decodeWith (fault : Option Char) (acc : List Char) : Nat → List UInt8 → Option (List Char)
  | _, [] => some acc.reverse
  | skip + 1, _ :: rest => decodeWith fault acc skip rest
  | 0, b :: rest =>
    let found := first b rest
    match found.1 <|> fault with
    | none => none
    | some c => decodeWith fault (c :: acc) found.2 rest

def decode? (bytes : List UInt8) : Option (List Char) := decodeWith none [] 0 bytes

def decodeLossy (bytes : List UInt8) : List Char :=
  (decodeWith (some '\ufffd') [] 0 bytes).getD []

end Rebac.Text.Utf8
