set_option autoImplicit false

/-! # Base64 -/

namespace Rebac.Text.Base64

def alphabet : List Char :=
  "ABCDEFGHIJKLMNOPQRSTUVWXYZabcdefghijklmnopqrstuvwxyz0123456789+/".toList

def digit (n : Nat) : Char := alphabet.getD (n % 64) 'A'

def encode : List UInt8 → List Char
  | a :: b :: c :: rest =>
    let n := (a.toNat * 256 + b.toNat) * 256 + c.toNat
    digit (n / Nat.pow 64 3) :: digit (n / Nat.pow 64 2) :: digit (n / 64) :: digit n :: encode rest
  | [a, b] =>
    let n := (a.toNat * 256 + b.toNat) * 256
    [digit (n / Nat.pow 64 3), digit (n / Nat.pow 64 2), digit (n / 64), '=']
  | [a] =>
    let n := a.toNat * 65536
    [digit (n / Nat.pow 64 3), digit (n / Nat.pow 64 2), '=', '=']
  | [] => []

end Rebac.Text.Base64
