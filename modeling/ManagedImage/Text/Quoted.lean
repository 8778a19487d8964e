import ManagedImage.Text.Hidden

/-!
# Quoted text

A quoted text shows a string between quotation marks.  The marks, the backslash
and characters that cannot be seen are escaped.

## Main definitions

* `Quoted.escape` — the characters that stand for one character.
* `Quoted.quote` — the quoted text of a string.
-/

namespace ManagedImage.Quoted

/-- The characters that stand for `c` between quotation marks. -/
def escape (c : Char) : List Char :=
  if c = '\x00' then ['\\', '0']
  else if c = '\t' then ['\\', 't']
  else if c = '\r' then ['\\', 'r']
  else if c = '\n' then ['\\', 'n']
  else if c = '"' then ['\\', '"']
  else if c = '\\' then ['\\', '\\']
  else if Text.isHidden c then
    ['\\', 'u', '\x7b'] ++ Nat.toDigits 16 c.toNat ++ ['\x7d']
  else [c]

/-- The quoted text of a string. -/
def quote (s : String) : String := String.ofList ('"' :: s.toList.flatMap escape ++ ['"'])

end ManagedImage.Quoted
