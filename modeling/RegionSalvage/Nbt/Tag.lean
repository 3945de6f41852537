import RegionSalvage.Bytes
import RegionSalvage.Numeric.Binary64
import RegionSalvage.Text.Utf8

/-! # Named binary tags

A chunk document is a tree of tags.  A compound names its members; a name that occurs again keeps
its place and takes the later value.

Documents are read leniently: a number that the end of the data cuts short is zero, a string or an
array takes what is left, and a missing tag ends its compound.  So most truncated documents are
valid, and only three things are errors (`NbtError`).
-/

namespace RegionSalvage.Nbt

inductive Tag where
  /-- A byte, short, int or long. -/
  | integer (value : Int)
  | real (value : Binary64)
  | text (value : String)
  /-- An array of numbers of `itemSize` bytes each. -/
  | array (itemSize : Nat) (content : ByteArray)
  | list (items : List Tag)
  /-- The members in the order in which they were read, repeated names included. -/
  | compound (members : List (String × Tag))

inductive TagType where
  | endMark
  | integer (size : Nat)
  | float
  | double
  | text
  | array (itemSize : Nat)
  | list
  | compound
deriving DecidableEq, Repr

def TagType.ofId? : Int → Option TagType
  | 0 => some .endMark
  | 1 => some (.integer 1)
  | 2 => some (.integer 2)
  | 3 => some (.integer 4)
  | 4 => some (.integer 8)
  | 5 => some .float
  | 6 => some .double
  | 7 => some (.array 1)
  | 8 => some .text
  | 9 => some .list
  | 10 => some .compound
  | 11 => some (.array 4)
  | 12 => some (.array 8)
  | _ => none

/-- Why data is no document. -/
inductive NbtError where
  | unknownTag (id : Int)
  | rootNotCompound
  | raggedArray
deriving DecidableEq, Repr

/-! ## Members of a compound -/

/-- The member of a given name; of several the last one. -/
def member? (members : List (String × Tag)) (name : String) : Option Tag :=
  members.reverse.lookup name

/-- The names of the members, each where it occurs first. -/
def memberNames (members : List (String × Tag)) : List String :=
  (members.map Prod.fst).eraseDups

/-! ## Reading numbers and strings -/

def beNumber (data : ByteArray) (pos : Nat) : (n : Nat) → Nat
  | 0 => 0
  | n + 1 => beNumber data pos n * 256 + octet data (pos + n)

/-- Takes a number of `size` bytes at `pos`: its value and the position behind it.  A number that is
cut short is zero, and uses up what there is of it. -/
def takeNumber (data : ByteArray) (size pos : Nat) : Nat × Nat :=
  if pos + size ≤ data.size then (beNumber data pos size, pos + size) else (0, max pos data.size)

/-- The two's complement reading of a number of `size` bytes. -/
def toSigned (size value : Nat) : Int :=
  Int.bmod value (1 <<< (8 * size))

def takeSigned (data : ByteArray) (size pos : Nat) : Int × Nat :=
  let (value, pos) := takeNumber data size pos
  (toSigned size value, pos)

/-- Takes at most `count` bytes, or all that are left for a negative count. -/
def takeBytes (data : ByteArray) (count : Int) (pos : Nat) : ByteArray × Nat :=
  let stop := if count < 0 then max pos data.size else min (pos + count.toNat) (max pos data.size)
  (slice data pos stop, stop)

def takeText (data : ByteArray) (pos : Nat) : String × Nat :=
  let (length, pos) := takeNumber data 2 pos
  let (content, pos) := takeBytes data length pos
  (Utf8.decode content, pos)

/-! ## Reading tags -/

/-- What reading at a position gives: a value and the position behind it. -/
abbrev Taken (α : Type) := Except NbtError (α × Nat)

def takeArray (data : ByteArray) (itemSize pos : Nat) : Taken Tag :=
  let (length, pos) := takeSigned data 4 pos
  let (content, pos) := takeBytes data (length * itemSize) pos
  if content.size % itemSize = 0 then .ok (.array itemSize content, pos) else .error .raggedArray

/-- Takes `count` items with `take`, behind those already there, the latest first. -/
def takeItems (take : Nat → Taken Tag) : (count : Nat) → List Tag → (pos : Nat) → Taken Tag
  | 0, items, pos => .ok (.list items.reverse, pos)
  | count + 1, items, pos =>
    match take pos with
    | .error e => .error e
    | .ok (item, pos) => takeItems take count (item :: items) pos

/-- Takes the members of a compound up to its end mark, at most `fuel` of them, behind those already
there, the latest first.  `take` takes a value of a given type. -/
def takeMembers (data : ByteArray) (take : TagType → Nat → Taken Tag) :
    (fuel : Nat) → List (String × Tag) → (pos : Nat) → Taken (List (String × Tag))
  | 0, members, pos => .ok (members.reverse, pos)
  | fuel + 1, members, pos =>
    let (id, pos) := takeSigned data 1 pos
    match TagType.ofId? id with
    | none => .error (.unknownTag id)
    | some .endMark => .ok (members.reverse, pos)
    | some type =>
      let (name, pos) := takeText data pos
      match take type pos with
      | .error e => .error e
      | .ok (value, pos) => takeMembers data take fuel ((name, value) :: members) pos

/-- Takes a value of a given type, nested at most `depth` deep.  Every level of nesting uses a byte
of the data, and so does every member. -/
def takeValue (data : ByteArray) : (depth : Nat) → TagType → (pos : Nat) → Taken Tag
  | 0, _, pos => .ok (.list [], pos)
  | depth + 1, type, pos =>
    match type with
    | .endMark => .ok (.list [], pos)
    | .integer size =>
      let (value, pos) := takeSigned data size pos
      .ok (.integer value, pos)
    | .float =>
      let (bits, pos) := takeNumber data 4 pos
      .ok (.real (.ofBits32 bits), pos)
    | .double =>
      let (bits, pos) := takeNumber data 8 pos
      .ok (.real (.ofBits64 bits), pos)
    | .text =>
      let (value, pos) := takeText data pos
      .ok (.text value, pos)
    | .array itemSize => takeArray data itemSize pos
    | .list =>
      let (id, pos) := takeSigned data 1 pos
      match TagType.ofId? id with
      | none => .error (.unknownTag id)
      | some itemType =>
        let (length, pos) := takeSigned data 4 pos
        if itemType = .endMark then .ok (.list [], pos)
        else takeItems (takeValue data depth itemType) length.toNat [] pos
    | .compound =>
      match takeMembers data (takeValue data depth) (data.size + 1) [] pos with
      | .error e => .error e
      | .ok (members, pos) => .ok (.compound members, pos)

/-! ## Documents -/

structure Document where
  rootName : String
  members : List (String × Tag)

/-- The document in some data; what follows it is left alone. -/
def Document.parse (data : ByteArray) : Except NbtError Document :=
  let (id, pos) := takeSigned data 1 0
  match TagType.ofId? id with
  | none => .error (.unknownTag id)
  | some .compound =>
    let (rootName, pos) := takeText data pos
    match takeMembers data (takeValue data (data.size + 1)) (data.size + 1) [] pos with
    | .error e => .error e
    | .ok (members, _) => .ok ⟨rootName, members⟩
  | some _ => .error .rootNotCompound

/-- A library that reads documents. -/
class Reader where
  read? : ByteArray → Option Document

/-- Unless another library is at hand, documents are read as they are here. -/
instance : Reader := ⟨fun data => (Document.parse data).toOption⟩

end RegionSalvage.Nbt
