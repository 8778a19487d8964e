import ManagedImage.Table.Id
import ManagedImage.Text.Hex

/-!
# Tokens

A token names a row of a table for the whole image: the number of the table in
the high byte, the row number, counted from 1, in the three bytes below.  A
token with row 0 names nothing.

## Main definitions

* `Token` — a token, as its 32-bit value.
* `Token.ofRow` — the token of a row.
* `Token.tableId?`, `Token.row` — the two parts.
-/

namespace ManagedImage

/-- A 32-bit name of a table row. -/
structure Token where
  /-- The number of the table above the row number. -/
  value : UInt32
  deriving DecidableEq, Repr, Inhabited, Hashable

namespace Token

/-- The largest row number that a token can carry. -/
def maxRow : UInt32 := 0x00FFFFFF

/-- The token of row `row` of `table`; only the low 24 bits of the row number are kept. -/
def ofRow (table : TableId) (row : UInt32) : Token :=
  ⟨(UInt32.ofNat table.index <<< 24) ||| (row &&& maxRow)⟩

/-- The number in the high byte. -/
def tableByte (t : Token) : UInt8 := (t.value >>> 24).toUInt8

/-- The table, if the high byte is the number of one. -/
def tableId? (t : Token) : Option TableId := TableId.ofIndex? t.tableByte.toNat

/-- The row number. -/
def row (t : Token) : UInt32 := t.value &&& maxRow

/-- A token with row 0 names nothing. -/
def isNull (t : Token) : Bool := t.row == 0

/-- The token as eight hexadecimal digits. -/
def display (t : Token) : String := "0x" ++ Hex.padded 8 t.value.toNat

/-- The token together with its parts. -/
def describe (t : Token) : String :=
  "Token(" ++ t.display ++ ", table: 0x" ++ Hex.padded 2 t.tableByte.toNat ++ ", row: "
    ++ toString t.row.toNat ++ ")"

end Token

end ManagedImage
