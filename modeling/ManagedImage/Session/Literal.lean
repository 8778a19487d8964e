import ManagedImage.Text.Hex

/-!
# Values in commands

Commands are written down, and so are the values in them.  A command that
cannot be carried out is answered with the value that is to blame, written the
way it was in the command: texts between quotation marks, numbers in decimal,
lists between brackets.

## Main definitions

* `Literal` — a value in a command.
* `Literal.text?` — the text that a value is.
* `Literal.written` — the value as it is written.
-/

namespace ManagedImage

/-- A value in a command. -/
inductive Literal where
  /-- No value. -/
  | null
  /-- A number. -/
  | number (n : Nat)
  /-- A text. -/
  | text (s : String)
  /-- Some numbers. -/
  | numbers (ns : List Nat)
  /-- A value of a form that no command asks for, as it is written. -/
  | other (written : String)
  deriving DecidableEq, Repr

namespace Literal

/-- The text, if the value is one. -/
def text? : Literal → Option String
  | text s => some s
  | _ => none

/-- The characters that stand for `c` in a written text.  Control characters have a letter or the
four digits of their number; all others but the quotation mark and the backslash stand for
themselves. -/
def escape (c : Char) : List Char :=
  if c = '"' then ['\\', '"']
  else if c = '\\' then ['\\', '\\']
  else if c = '\x08' then ['\\', 'b']
  else if c = '\t' then ['\\', 't']
  else if c = '\n' then ['\\', 'n']
  else if c = '\x0c' then ['\\', 'f']
  else if c = '\r' then ['\\', 'r']
  else if c.toNat < 0x20 then '\\' :: 'u' :: (Hex.padded 4 c.toNat).toList
  else [c]

/-- A text as it is written. -/
def writtenText (s : String) : String :=
  String.ofList ('"' :: s.toList.flatMap escape ++ ['"'])

/-- The value as it is written. -/
def written : Literal → String
  | null => "null"
  | number n => toString n
  | text s => writtenText s
  | numbers ns => "[" ++ ",".intercalate (ns.map toString) ++ "]"
  | other s => s

end Literal

end ManagedImage
