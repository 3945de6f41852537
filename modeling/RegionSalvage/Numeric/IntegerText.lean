import RegionSalvage.Text.Blank
import RegionSalvage.Text.DecimalDigit

/-! # Integers in text

An integer is written as an optional sign and decimal digits of any script, with blanks around it
and single underscores between digits.  More than 4300 digits are refused, whatever follows them.
-/

namespace RegionSalvage

/-- Why a text is no integer. -/
inductive IntegerTextError where
  | malformed
  /-- The text starts with this many digits, which is too many. -/
  | tooManyDigits (count : Nat)
deriving DecidableEq, Repr

def maxIntegerDigits : Nat := 4300

/-- The digits at the front of a text, underscores dropped, and what follows them.  The flag says
whether a digit stands in front of the text; there is no answer when an underscore does not stand
between two digits. -/
def takeDigits : Bool → List Char → Option (List Char × List Char)
  | afterDigit, '_' :: rest =>
    if afterDigit then
      match takeDigits false rest with
      | some ([], _) => none
      | found => found
    else none
  | _, c :: rest =>
    match digitValue? c with
    | none => some ([], c :: rest)
    | some _ => (takeDigits true rest).map fun (digits, rest) => (c :: digits, rest)
  | _, [] => some ([], [])

/-- The integer written in a text. -/
def parseInteger (s : String) : Except IntegerTextError Int :=
  let cs := s.toList.dropWhile isBlank
  let (negative, cs) := match cs with
    | '+' :: rest => (false, rest)
    | '-' :: rest => (true, rest)
    | cs => (false, cs)
  match takeDigits false cs with
  | none => .error .malformed
  | some (digits, rest) =>
    if maxIntegerDigits < digits.length then .error (.tooManyDigits digits.length)
    else if digits.isEmpty || !rest.all isBlank then .error .malformed
    else match digitsValue? digits with
      | none => .error .malformed
      | some n => .ok (if negative then -n else n)

end RegionSalvage
