import RegionSalvage.Text.Hex
import RegionSalvage.Text.Printable

/-! # Quoted text

Names in messages stand between single quotes, or between double quotes when they hold a single
quote and no double one.  The backslash and the quote in use are escaped by a backslash; tab, line
feed and carriage return have escapes of their own; every other character that is not printable is
written by its code point.
-/

namespace RegionSalvage

/-- A number in `width` hexadecimal digits. -/
def hexDigits (width n : Nat) : List Char :=
  ((List.range width).map fun i => hexDigit (n >>> (4 * i) % 16)).reverse

/-- A character between the quotes `quote`. -/
def escapedChar (quote c : Char) : List Char :=
  if c = quote ∨ c = '\\' then ['\\', c]
  else if c = '\t' then ['\\', 't']
  else if c = '\n' then ['\\', 'n']
  else if c = '\r' then ['\\', 'r']
  else if isPrintable c then [c]
  else if c.toNat < 0x100 then '\\' :: 'x' :: hexDigits 2 c.toNat
  else if c.toNat < 0x10000 then '\\' :: 'u' :: hexDigits 4 c.toNat
  else '\\' :: 'U' :: hexDigits 8 c.toNat

/-- A text between quotes. -/
def quoted (s : String) : String :=
  let quote := if s.contains '\'' && !s.contains '"' then '"' else '\''
  String.ofList (quote :: s.toList.flatMap (escapedChar quote) ++ [quote])

end RegionSalvage
