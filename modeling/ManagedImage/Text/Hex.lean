/-!
# Hexadecimal text

Numbers stand in messages and tokens as lower-case hexadecimal digits.  Byte
strings may be written with two digits for each byte.

## Main definitions

* `Hex.digits n` — the digits of `n` without leading zeros, `0` for zero.
* `Hex.padded width n` — the same, filled up with zeros to `width` digits.
* `Hex.ofBytes` — two digits for each byte.
* `Hex.ofDigits?`, `Hex.bytes?` — the number, or the bytes, that a text stands for.
-/

namespace ManagedImage.Hex

/-- The hexadecimal digits of `n`, without leading zeros. -/
def digits (n : Nat) : String := String.ofList (Nat.toDigits 16 n)

/-- The hexadecimal digits of `n`, with leading zeros up to `width` digits. -/
def padded (width n : Nat) : String :=
  let ds := Nat.toDigits 16 n
  String.ofList (List.replicate (width - ds.length) '0' ++ ds)

/-- The digits in the order of their values. -/
def digitChars : Array Char := "0123456789abcdef".toList.toArray

/-- Two digits for each byte. -/
def ofBytes (data : Array UInt8) : String :=
  data.foldl
    (fun s b =>
      (s.push (digitChars.getD (b.toNat / 16) '0')).push (digitChars.getD (b.toNat % 16) '0')) ""

/-- The value of a digit. -/
def value? (c : Char) : Option Nat :=
  if '0' ≤ c ∧ c ≤ '9' then some (c.toNat - '0'.toNat)
  else if 'a' ≤ c ∧ c ≤ 'f' then some (c.toNat - 'a'.toNat + 10)
  else if 'A' ≤ c ∧ c ≤ 'F' then some (c.toNat - 'A'.toNat + 10)
  else none

/-- The number that some digits stand for. -/
def ofDigits? (ds : List Char) : Option Nat :=
  ds.foldlM (fun n c => (value? c).map (n * 16 + ·)) 0

/-- The bytes that pairs of digits stand for, behind those in `found`. -/
def pairs? (found : Array UInt8) : List Char → Option (Array UInt8)
  | [] => some found
  | [_] => none
  | high :: low :: rest =>
    match value? high, value? low with
    | some h, some l => pairs? (found.push (UInt8.ofNat (h * 16 + l))) rest
    | _, _ => none

/-- The bytes that a text stands for. -/
def bytes? (s : String) : Option (Array UInt8) := pairs? #[] s.toList

end ManagedImage.Hex
