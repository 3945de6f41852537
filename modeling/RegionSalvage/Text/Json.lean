import RegionSalvage.Text.Quoted

/-! # JSON text

Logs are written as JSON: two blanks of indentation for every level, one item or member to a line,
and nothing but printable ASCII.  Other characters are escaped by their UTF-16 units.
-/

namespace RegionSalvage

/-- A JSON value; the members of a record keep their order. -/
inductive JsonValue where
  | null
  | bool (b : Bool)
  | integer (n : Int)
  /-- A number written with a point. -/
  | decimal (digits : String)
  | text (s : String)
  | list (items : List JsonValue)
  | record (members : List (String × JsonValue))

namespace JsonValue

/-- A UTF-16 unit as an escape. -/
def escapedUnit (unit : Nat) : List Char := '\\' :: 'u' :: hexDigits 4 unit

/-- A character inside a JSON string. -/
def escapedText (c : Char) : List Char :=
  if c = '"' ∨ c = '\\' then ['\\', c]
  else if c = '\n' then ['\\', 'n']
  else if c = '\r' then ['\\', 'r']
  else if c = '\t' then ['\\', 't']
  else if c = '\x08' then ['\\', 'b']
  else if c = '\x0c' then ['\\', 'f']
  else if ' ' ≤ c ∧ c ≤ '~' then [c]
  else if c.toNat < 0x10000 then escapedUnit c.toNat
  else
    let offset := c.toNat - 0x10000
    escapedUnit (0xd800 + offset / 0x400) ++ escapedUnit (0xdc00 + offset % 0x400)

def renderText (s : String) : String :=
  String.ofList ('"' :: s.toList.flatMap escapedText ++ ['"'])

/-- A new line at the given level. -/
def lineBreak (level : Nat) : String :=
  String.ofList ('\n' :: List.replicate (2 * level) ' ')

mutual

/-- A value whose own line is at the given level. -/
def render (level : Nat) : JsonValue → String
  | .null => "null"
  | .bool b => if b then "true" else "false"
  | .integer n => toString n
  | .decimal digits => digits
  | .text s => renderText s
  | .list [] => "[]"
  | .list (item :: items) =>
    "[" ++ lineBreak (level + 1) ++ render (level + 1) item ++ renderItems (level + 1) items ++
      lineBreak level ++ "]"
  | .record [] => "\x7b\x7d"
  | .record ((name, value) :: members) =>
    "\x7b" ++ lineBreak (level + 1) ++ renderText name ++ ": " ++ render (level + 1) value ++
      renderMembers (level + 1) members ++ lineBreak level ++ "\x7d"

/-- Further items of a list. -/
def renderItems (level : Nat) : List JsonValue → String
  | [] => ""
  | item :: items => "," ++ lineBreak level ++ render level item ++ renderItems level items

/-- Further members of a record. -/
def renderMembers (level : Nat) : List (String × JsonValue) → String
  | [] => ""
  | (name, value) :: members =>
    "," ++ lineBreak level ++ renderText name ++ ": " ++ render level value ++
      renderMembers level members

end

end JsonValue

end RegionSalvage
