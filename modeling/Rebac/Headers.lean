import Rebac.Call

set_option autoImplicit false

/-!
# Header sets

Names compare without regard to ASCII case when sets are merged: the headers of a call go before
the standing ones, within one set the later name in code point order goes before the earlier, and
the winner keeps its own spelling. The two headers that say bodies are JSON are always set.
-/
namespace Rebac.Headers

def insert (name value : String) : Headers → Headers
  | [] => [(name, value)]
  | (k, v) :: rest =>
    if name < k then (name, value) :: (k, v) :: rest
    else if name = k then (name, value) :: rest
    else (k, v) :: insert name value rest

def ofList (pairs : List (String × String)) : Headers :=
  pairs.foldl (fun acc pair => insert pair.1 pair.2 acc) []

def fold (name : String) : String := String.ofList (name.toList.map Char.toLower)

def contentType : String := "Content-Type"

def accept : String := "Accept"

def json : String := "application/json"

def reserved (name : String) : Bool :=
  fold name = fold contentType || fold name = fold accept

/-- Adds a header in the place of one whose name differs in case only. -/
def override (headers : List (String × String)) (header : String × String) :
    List (String × String) :=
  headers.filter (fun h => fold h.1 ≠ fold header.1) ++ [header]

def merge (defaults perCall : Headers) : Headers :=
  let chosen := (defaults ++ perCall).filter fun h => !reserved h.1
  let merged := chosen.foldl override []
  insert accept json (insert contentType json (ofList merged))

end Rebac.Headers
