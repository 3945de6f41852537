import RegionSalvage.Bytes
import RegionSalvage.Numeric.Binary64

/-! # Block allocation of an ext file system

The bitmaps of all groups, one after the other, say which data blocks are in use.  Blocks in front
of the first data block and past the last one are never free.
-/

namespace RegionSalvage

/-- How many of the first `n` bits are set. -/
def countBits (b : ByteArray) (n : Nat) : Nat :=
  (List.range (min n (8 * b.size))).countP (bitAt b)

/-- Which blocks of an ext file system are in use. -/
structure ExtBlockMap where
  fsType : String
  blockSize : Int
  totalBlocks : Int
  firstDataBlock : Int
  blocksPerGroup : Int
  /-- The data blocks whose bit is clear. -/
  freeBlocks : Int
  /-- Bit `i` stands for block `firstDataBlock + i`; a set bit marks a block in use. -/
  bitmap : ByteArray

namespace ExtBlockMap

/-- Whether a block is in use; `none` for a data block whose bit lies past the end of the bitmap. -/
def isAllocated? (a : ExtBlockMap) (block : Int) : Option Bool :=
  if block < a.firstDataBlock ∨ a.totalBlocks ≤ block then some true
  else
    let bit := (block - a.firstDataBlock).toNat
    if bit < 8 * a.bitmap.size then some (bitAt a.bitmap bit) else none

/-- Whether a block is in use, for a bitmap that covers all data blocks. -/
def isAllocated (a : ExtBlockMap) (block : Int) : Bool :=
  (a.isAllocated? block).getD false

/-- The share of free blocks, in percent; zero for a file system without blocks.  There is no
answer when the quotient is beyond the largest double. -/
def freePercent? (a : ExtBlockMap) : Option Binary64 :=
  if a.totalBlocks = 0 then some .zero else Binary64.percent? a.freeBlocks a.totalBlocks

end ExtBlockMap

end RegionSalvage
