import RegionSalvage.Text.DecimalDigit

/-! # Calendar dates

Times are given as dates `YYYY-mm-dd` and stand for midnight in universal time.  The year has four
digits; a month or day below ten may have one digit or two, and a day of one digit may have a blank
in front.  The year's digits and the second digit of a day from 10 to 29 may be those of any script.

* `daysFromCivil` counts days since 1970-01-01 in the Gregorian calendar.
-/

namespace RegionSalvage

/-- A date of the Gregorian calendar. -/
structure Date where
  year : Nat
  month : Nat
  day : Nat
deriving DecidableEq, Repr

namespace Date

def isLeap (year : Nat) : Bool :=
  year % 4 == 0 && (year % 100 != 0 || year % 400 == 0)

def daysInMonth (year month : Nat) : Nat :=
  match month with
  | 2 => if isLeap year then 29 else 28
  | 4 | 6 | 9 | 11 => 30
  | _ => 31

/-- Whether the calendar has such a day; it starts with year one. -/
def exists? (d : Date) : Bool :=
  1 ≤ d.year && 1 ≤ d.month && d.month ≤ 12 && 1 ≤ d.day && d.day ≤ daysInMonth d.year d.month

/-- Days from the start of a year to the start of a month. -/
def daysBeforeMonth (year month : Nat) : Nat :=
  (List.range (month - 1)).foldl (fun days i => days + daysInMonth year (i + 1)) 0

/-- Days from 1970-01-01 to a date. -/
def daysFromCivil (d : Date) : Int :=
  let y := d.year - 1
  let days := 365 * y + y / 4 - y / 100 + y / 400 + daysBeforeMonth d.year d.month + d.day
  (days : Int) - 719163

def epochSeconds (d : Date) : Int := 86400 * daysFromCivil d

/-- The month at the front of a text, and the text after it. -/
def month? : List Char → Option (Nat × List Char)
  | '1' :: '0' :: rest => some (10, rest)
  | '1' :: '1' :: rest => some (11, rest)
  | '1' :: '2' :: rest => some (12, rest)
  | '0' :: c :: rest => if '1' ≤ c ∧ c ≤ '9' then some (c.toNat - 48, rest) else none
  | c :: rest => if '1' ≤ c ∧ c ≤ '9' then some (c.toNat - 48, rest) else none
  | [] => none

/-- The day that is all of a text. -/
def day? : List Char → Option Nat
  | [c] => if '1' ≤ c ∧ c ≤ '9' then some (c.toNat - 48) else none
  | ['3', '0'] => some 30
  | ['3', '1'] => some 31
  | ['1', c] => (digitValue? c).map (10 + ·)
  | ['2', c] => (digitValue? c).map (20 + ·)
  | ['0', c] | [' ', c] => if '1' ≤ c ∧ c ≤ '9' then some (c.toNat - 48) else none
  | _ => none

/-- The date written in a text. -/
def parse? (s : String) : Option Date :=
  match s.toList with
  | a :: b :: c :: d :: '-' :: rest => do
    let year ← digitsValue? [a, b, c, d]
    let (month, rest) ← month? rest
    match rest with
    | '-' :: rest =>
      let date : Date := ⟨year, month, ← day? rest⟩
      if date.exists? then some date else none
    | _ => none
  | _ => none

end Date

/-- A text that is no date. -/
structure TimeError where
  text : String
deriving DecidableEq, Repr

def TimeError.message (e : TimeError) : String :=
  "Failed to parse timestamp: " ++ e.text

def readDate (s : String) : Except TimeError Int :=
  match Date.parse? s with
  | some d => .ok d.epochSeconds
  | none => .error ⟨s⟩

end RegionSalvage
