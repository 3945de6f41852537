import RegionSalvage.Nbt.Tag
import RegionSalvage.Numeric.IntegerText
import RegionSalvage.Text.Quoted

/-! # The coordinates of a chunk

A chunk document carries its coordinates as `xPos` and `zPos`, either at its root or in the member
`Level`; a root with a single member may also be a mere wrapper around the document.  The places
are tried in that order, and the first one with both coordinates counts.

Coordinates are taken from numbers, whose fractions are dropped, and from strings that hold an
integer.
-/

namespace RegionSalvage.Nbt

/-- Why a document's coordinates cannot be told. -/
inductive PositionError where
  /-- A place to look at has no members. -/
  | noMembers
  /-- A coordinate is a string without an integer. -/
  | notInteger (text : String)
  /-- A coordinate is a string with too many digits. -/
  | tooManyDigits (count : Nat)
  | notANumber
  | infinite
  /-- A coordinate is an array, a list or a compound. -/
  | notNumeric
deriving DecidableEq, Repr

def PositionError.message : PositionError → String
  | .noMembers => "the tag has no members"
  | .notInteger text =>
    "invalid literal for int() with base 10: " ++
      String.ofList (("String(" ++ quoted text ++ ")").toList.take 200)
  | .tooManyDigits count =>
    s!"Exceeds the limit ({maxIntegerDigits} digits) for integer string conversion: " ++
      s!"value has {count} digits; use sys.set_int_max_str_digits() to increase the limit"
  | .notANumber => "cannot convert float NaN to integer"
  | .infinite => "cannot convert float infinity to integer"
  | .notNumeric => "the tag is not numeric"

/-- The member of a given name.  A list has no named members; what is neither a list nor a compound
cannot be asked for one. -/
def Tag.get? : Tag → String → Except PositionError (Option Tag)
  | .compound members, name => .ok (member? members name)
  | .list _, _ => .ok none
  | _, _ => .error .noMembers

def Tag.hasMembers : Tag → Bool
  | .compound _ => true
  | .list _ => true
  | _ => false

def Tag.toInteger : Tag → Except PositionError Int
  | .integer value => .ok value
  | .real x =>
    match x with
    | .nan => .error .notANumber
    | .infinite _ => .error .infinite
    | .finite negative m e =>
      let n : Int := Binary64.floorMagnitude m e
      .ok (if negative then -n else n)
  | .text s =>
    match parseInteger s with
    | .ok n => .ok n
    | .error .malformed => .error (.notInteger s)
    | .error (.tooManyDigits count) => .error (.tooManyDigits count)
  | _ => .error .notNumeric

namespace Document

/-- The only member of a document that has one name. -/
def single? (doc : Document) : Option Tag :=
  match memberNames doc.members with
  | [name] => member? doc.members name
  | _ => none

/-- The places where coordinates are looked for, in order. -/
def places (doc : Document) : List Tag :=
  let root := Tag.compound doc.members
  let level := member? doc.members "Level"
  let wrapped := match doc.single? with
    | some (.compound members) => .compound members :: (member? members "Level").toList
    | some (.list items) => [.list items]
    | _ => []
  root :: level.toList ++ wrapped

/-- The coordinates of the first place that has both. -/
def firstPosition : List Tag → Except PositionError (Option (Int × Int))
  | [] => .ok none
  | place :: rest => do
    let x ← place.get? "xPos"
    let z ← place.get? "zPos"
    match x, z with
    | some x, some z => return some (← x.toInteger, ← z.toInteger)
    | _, _ => firstPosition rest

def position (doc : Document) : Except PositionError (Option (Int × Int)) :=
  firstPosition doc.places

end Document

end RegionSalvage.Nbt
