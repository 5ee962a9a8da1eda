set_option autoImplicit false

/-! # Pieces of a text -/

namespace Rebac.Text

def piecesAt (isSeparator : Char → Bool) : List Char → List (List Char)
  | [] => [[]]
  | c :: rest =>
    if isSeparator c then [] :: piecesAt isSeparator rest
    else match piecesAt isSeparator rest with
      | [] => [[c]]
      | piece :: others => (c :: piece) :: others

end Rebac.Text
