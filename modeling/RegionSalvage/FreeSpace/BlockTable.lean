import RegionSalvage.Bytes

/-! # Tables of block numbers

A dump of free blocks is accompanied by a table that says where each block came from: the block
numbers as little-endian 64-bit words, in the order of the blocks.

* `BlockTable.size_encode`: every number takes eight bytes.
-/

namespace RegionSalvage.BlockTable

def entrySize : Nat := 8

/-- Whether a block number can be written in a table. -/
def holds (block : Int) : Bool := 0 ≤ block && block < 0x10000000000000000

/-- Appends the entry of a block to a table. -/
def append (table : ByteArray) (block : Int) : ByteArray :=
  leBytes entrySize block.toNat table

def encode (blocks : List Int) : ByteArray := blocks.foldl append .empty

/-- The block numbers of a table; a ragged tail is no entry. -/
def decode (table : ByteArray) : List Nat :=
  (List.range (table.size / entrySize)).map fun i => le64 table (entrySize * i)

@[simp] theorem size_append (table : ByteArray) (block : Int) :
    (append table block).size = table.size + entrySize := by
  simp [append, entrySize, leBytes, ByteArray.size_push]

@[simp] theorem size_encode (blocks : List Int) :
    (encode blocks).size = entrySize * blocks.length := by
  have key : ∀ (blocks : List Int) (table : ByteArray),
      (blocks.foldl append table).size = table.size + entrySize * blocks.length := by
    intro blocks
    induction blocks with
    | nil =>
      intro table
      simp
    | cons block rest ih =>
      intro table
      rw [List.foldl_cons, ih, size_append, List.length_cons, Nat.mul_succ]
      omega
  simpa [encode] using key blocks .empty

end RegionSalvage.BlockTable
