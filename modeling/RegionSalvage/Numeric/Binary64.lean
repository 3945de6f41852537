/-! # Binary64 numbers, exactly

Percentages are quotients rounded to IEEE-754 double precision, and coordinates may be stored as
floating-point numbers.  A number is kept here as what it is, a sign, an integer and a power of
two, so that every operation is integer arithmetic.

`nearest` is the one rounding rule: of the representable numbers the nearest to a quotient, a tie
to the even mantissa, below the smallest exponent with fewer bits, above the largest one infinite.
-/

namespace RegionSalvage

inductive Binary64 where
  /-- The mantissa times two to the exponent, with a sign. -/
  | finite (negative : Bool) (mantissa : Nat) (exponent : Int)
  | infinite (negative : Bool)
  | nan
deriving DecidableEq, Repr

namespace Binary64

def zero : Binary64 := .finite false 0 (-1074)

def minExponent : Int := -1074

def maxExponent : Int := 971

/-- `n / d` rounded to an integer, a tie to the even one; `d` is positive. -/
def divHalfEven (n d : Nat) : Nat :=
  let q := n / d
  let r := n % d
  if d < 2 * r ∨ (2 * r = d ∧ q % 2 = 1) then q + 1 else q

/-- The exponent at which the quotient of two positive numbers has a 53-bit integer part. -/
def exponentOf (num den : Nat) : Int :=
  let e : Int := (Nat.log2 num : Int) - Nat.log2 den - 52
  let fits : Bool :=
    if 0 ≤ e then den <<< (e.toNat + 52) ≤ num else den <<< 52 ≤ num <<< (-e).toNat
  if fits then e else e - 1

/-- The number nearest to `num / den`, with the given sign; `den` is positive. -/
def nearest (negative : Bool) (num den : Nat) : Binary64 :=
  if num = 0 then .finite negative 0 minExponent
  else
    let e := max (exponentOf num den) minExponent
    let m := if 0 ≤ e then divHalfEven num (den <<< e.toNat)
      else divHalfEven (num <<< (-e).toNat) den
    let (m, e) := if m = 1 <<< 53 then (1 <<< 52, e + 1) else (m, e)
    if maxExponent < e then .infinite negative else .finite negative m e

/-- The nearest number to `a / b` for `b ≠ 0`; `none` when that is beyond the largest number. -/
def ofRatio? (a b : Int) : Option Binary64 :=
  match nearest (decide (a < 0) != decide (b < 0)) a.natAbs b.natAbs with
  | .finite negative m e => some (.finite negative m e)
  | _ => none

/-- The product with `num / den`, rounded. -/
def scale (x : Binary64) (num den : Nat) : Binary64 :=
  match x with
  | .finite negative m e =>
    if 0 ≤ e then nearest negative ((m * num) <<< e.toNat) den
    else nearest negative (m * num) (den <<< (-e).toNat)
  | x => x

def isBelow (x : Binary64) (bound : Nat) : Bool :=
  match x with
  | .finite true m _ => m != 0 || bound != 0
  | .finite false m e =>
    if 0 ≤ e then m <<< e.toNat < bound else m < bound <<< (-e).toNat
  | .infinite negative => negative
  | .nan => false

/-- A percentage: the quotient rounded, then a hundredfold rounded again; `none` when the quotient
is beyond the largest number. -/
def percent? (part whole : Int) : Option Binary64 :=
  (ofRatio? part whole).map fun ratio => ratio.scale 100 1

/-! ## Encodings -/

def signBit (negative : Bool) : Nat := if negative then 1 <<< 63 else 0

def toBits : Binary64 → Nat
  | .finite negative m e =>
    let magnitude := if m < 1 <<< 52 then m else (e + 1074).toNat <<< 52 + m
    signBit negative + magnitude
  | .infinite negative => signBit negative + 0x7FF <<< 52
  | .nan => 0x7FF8 <<< 48

/-- The number with a given encoding of `fraction` low bits below `exponent` bits and a sign. -/
def ofEncoding (exponentBits fractionBits : Nat) (bits : Nat) : Binary64 :=
  let fraction := bits % 1 <<< fractionBits
  let biased := bits >>> fractionBits % 1 <<< exponentBits
  let negative := bits.testBit (fractionBits + exponentBits)
  let bias : Int := ((1 <<< (exponentBits - 1) + fractionBits : Nat) : Int) - 1
  if biased + 1 = 1 <<< exponentBits then
    if fraction = 0 then .infinite negative else .nan
  else if biased = 0 then .finite negative fraction (1 - bias)
  else .finite negative (1 <<< fractionBits + fraction) (biased - bias)

def ofBits64 (bits : Nat) : Binary64 := ofEncoding 11 52 bits

def ofBits32 (bits : Nat) : Binary64 := ofEncoding 8 23 bits

/-! ## Integers and text -/

/-- The integer part of a magnitude. -/
def floorMagnitude (m : Nat) (e : Int) : Nat :=
  if 0 ≤ e then m <<< e.toNat else m >>> (-e).toNat

def truncate? : Binary64 → Option Int
  | .finite negative m e =>
    let n : Int := floorMagnitude m e
    some (if negative then -n else n)
  | _ => none

/-- A number with one decimal place, a tie to the even tenth. -/
def toTenths : Binary64 → String
  | .finite negative m e =>
    let tenths := if 0 ≤ e then (m * 10) <<< e.toNat else divHalfEven (m * 10) (1 <<< (-e).toNat)
    let whole := tenths / 10
    let tenth := tenths % 10
    (if negative then "-" else "") ++ s!"{whole}.{tenth}"
  | .infinite negative => if negative then "-inf" else "inf"
  | .nan => "nan"

end Binary64

end RegionSalvage
