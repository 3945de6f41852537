/-! # Blank characters around a number

A number may have blanks in front of it and behind it: the ASCII blanks from tab to carriage return
and the space, and outside ASCII the separators.  The ASCII information separators are no blanks.
-/

namespace RegionSalvage

/-- The blank characters outside ASCII. -/
def wideBlanks : List Nat :=
  [0x85, 0xA0, 0x1680, 0x2000, 0x2001, 0x2002, 0x2003, 0x2004, 0x2005, 0x2006, 0x2007, 0x2008,
    0x2009, 0x200A, 0x2028, 0x2029, 0x202F, 0x205F, 0x3000]

def isBlank (c : Char) : Bool :=
  c == ' ' || (9 ≤ c.toNat && c.toNat ≤ 13) || wideBlanks.contains c.toNat

end RegionSalvage
