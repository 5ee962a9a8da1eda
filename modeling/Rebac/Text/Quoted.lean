import Rebac.Text.Hidden

set_option autoImplicit false

/-!
# Quoted text

How a text is shown inside a message: in double quotes, with a backslash before quotes and
backslashes, short names for the common controls, and the number of any character that would not
be seen.
-/
namespace Rebac.Text

def quoteChar (c : Char) : List Char :=
  if c = '\x00' then ['\\', '0']
  else if c = '\t' then ['\\', 't']
  else if c = '\r' then ['\\', 'r']
  else if c = '\n' then ['\\', 'n']
  else if c = '"' then ['\\', '"']
  else if c = '\\' then ['\\', '\\']
  else if c.toNat < 0x20 || isHidden c then
    ['\\', 'u', '\x7b'] ++ Nat.toDigits 16 c.toNat ++ ['\x7d']
  else [c]

def quote (s : String) : String :=
  String.ofList ('"' :: (s.toList.flatMap quoteChar ++ ['"']))

def quoteList (xs : List String) : String :=
  "[" ++ String.intercalate ", " (xs.map quote) ++ "]"

end Rebac.Text
