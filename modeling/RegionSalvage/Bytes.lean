/-! # Byte strings and the numbers stored in them

Images, blocks and payloads are `ByteArray`s.  This file gives the few ways in which the rest of
the library looks at them: single octets, clipped slices, big-endian and little-endian words, and
counts of the units that are not zero.

* `octet` is total: past the end it answers zero, so a word is defined at every position; `bitAt`
  reads the same bytes bit by bit, the low bit of each byte first.
* `slice` clips both ends, so it never asks for bytes that are not there; `size_slice` says how
  many it yields.
* `wordAt` is the checked form of `be32`, addressed by word index; a negative index counts words
  back from the end.
-/

namespace RegionSalvage

/-- The byte at position `i`, or zero past the end. -/
def octet (b : ByteArray) (i : Nat) : Nat :=
  if h : i < b.size then b[i].toNat else 0

/-- Whether bit `i` is set, counting from the low bit of the first byte; past the end it is not. -/
def bitAt (b : ByteArray) (i : Nat) : Bool :=
  (octet b (i / 8)).testBit (i % 8)

/-- The bytes from `start` up to (not including) `stop`, as far as they exist. -/
def slice (b : ByteArray) (start stop : Nat) : ByteArray :=
  b.extract (min start b.size) (min stop b.size)

def padZeros : Nat → ByteArray → ByteArray
  | 0, b => b
  | n + 1, b => padZeros n (b.push 0)

def zeros (n : Nat) : ByteArray := padZeros n .empty

/-! ## Words -/

/-- The big-endian 32-bit word whose first byte is at position `i`. -/
def be32 (b : ByteArray) (i : Nat) : Nat :=
  ((octet b i * 256 + octet b (i + 1)) * 256 + octet b (i + 2)) * 256 + octet b (i + 3)

/-- The little-endian 16-bit word whose first byte is at position `i`. -/
def le16 (b : ByteArray) (i : Nat) : Nat :=
  octet b i + 256 * octet b (i + 1)

def le32 (b : ByteArray) (i : Nat) : Nat :=
  le16 b i + 65536 * le16 b (i + 2)

def le64 (b : ByteArray) (i : Nat) : Nat :=
  le32 b i + 4294967296 * le32 b (i + 4)

/-- The big-endian words of a byte string, in order; a ragged tail is no word. -/
def words (b : ByteArray) : List Nat :=
  (List.range (b.size / 4)).map fun i => be32 b (4 * i)

/-- Whether a number is a signed 64-bit number, as offsets and sizes in memory and in files are. -/
def isSigned64 (n : Int) : Bool := -0x8000000000000000 ≤ n && n < 0x8000000000000000

inductive WordFault where
  | outside
  /-- The offset of the word is no signed 64-bit number. -/
  | unaddressable
deriving DecidableEq, Repr

/-- Word number `i`.  A negative `i` counts in words back from the end of the bytes, whatever their
number. -/
def wordAt (b : ByteArray) (i : Int) : Except WordFault Nat :=
  if !isSigned64 (4 * i) then .error .unaddressable
  else
    let start := if i < 0 then b.size + 4 * i else 4 * i
    if 0 ≤ start ∧ start + 4 ≤ b.size then .ok (be32 b start.toNat) else .error .outside

/-- The `n` low-order bytes of `v`, least significant first. -/
def leBytes : (n : Nat) → (v : Nat) → ByteArray → ByteArray
  | 0, _, out => out
  | n + 1, v, out => leBytes n (v / 256) (out.push (UInt8.ofNat (v % 256)))

/-! ## Units that are not zero -/

inductive CountUnit where
  | byte
  | word
deriving DecidableEq, Repr

/-- The unit of a given name: `word` names words, every other name bytes. -/
def CountUnit.ofName (name : String) : CountUnit :=
  if name = "word" then .word else .byte

/-- How many units of a byte string are not zero. -/
def nonzeroCount (b : ByteArray) : CountUnit → Nat
  | .byte => b.data.countP (· != 0)
  | .word => (words b).countP (· != 0)

/-! ## Sizes -/

@[simp] theorem size_slice (b : ByteArray) (start stop : Nat) :
    (slice b start stop).size = min stop b.size - min start b.size := by
  simp [slice]

@[simp] theorem size_padZeros (n : Nat) (b : ByteArray) : (padZeros n b).size = b.size + n := by
  induction n generalizing b with
  | zero => rfl
  | succ n ih => rw [padZeros, ih, ByteArray.size_push]; omega

@[simp] theorem size_zeros (n : Nat) : (zeros n).size = n := by
  simp [zeros]

@[simp] theorem length_words (b : ByteArray) : (words b).length = b.size / 4 := by
  simp [words]

theorem octet_lt (b : ByteArray) (i : Nat) : octet b i < 256 := by
  unfold octet
  split
  · exact UInt8.toNat_lt _
  · decide

theorem be32_lt (b : ByteArray) (i : Nat) : be32 b i < 0x100000000 := by
  have h0 := octet_lt b i
  have h1 := octet_lt b (i + 1)
  have h2 := octet_lt b (i + 2)
  have h3 := octet_lt b (i + 3)
  unfold be32
  omega

end RegionSalvage
