import RegionSalvage.Bytes

/-! # ext2/3/4 superblocks

The superblock of an ext file system takes the second kilobyte of its image.  Only the fields that
the block bitmaps depend on are read.  `Superblock.ofHeader?` refuses what is not an ext file
system and what has an implausible geometry; a superblock in hand has a positive number of blocks
per group, a multiple of eight, and at least one data block.
-/

namespace RegionSalvage

/-- The generations of the file system. -/
inductive ExtKind where
  | ext2
  | ext3
  | ext4
deriving DecidableEq, Repr

def ExtKind.name : ExtKind → String
  | .ext2 => "ext2"
  | .ext3 => "ext3"
  | .ext4 => "ext4"

def superblockOffset : Nat := 1024

/-- How many bytes of an image hold everything a superblock says. -/
def extHeaderSize : Nat := 2048

def extMagic : Nat := 0xEF53

/-- The generation of the ext file system whose image starts with `header`.  Extents make it the
fourth, a journal alone the third. -/
def ExtKind.ofHeader? (header : ByteArray) : Option ExtKind :=
  if header.size < superblockOffset + 104 then none
  else if le16 header (superblockOffset + 56) ≠ extMagic then none
  else
    let compat := le32 header (superblockOffset + 92)
    let incompat := le32 header (superblockOffset + 96)
    if incompat.testBit 6 then some .ext4
    else if compat.testBit 2 then some .ext3
    else some .ext2

/-- The block size that a header declares, a power of two from 1 to 64 KiB, if it is an ext header
at all. -/
def extBlockSize? (header : ByteArray) : Option Nat :=
  match ExtKind.ofHeader? header with
  | none => none
  | some _ =>
    let exponent := le32 header (superblockOffset + 24)
    if 6 < exponent then none else some (1024 <<< exponent)

/-- What the block bitmaps of an ext file system depend on. -/
structure Superblock where
  kind : ExtKind
  blockSize : Nat
  totalBlocks : Nat
  firstDataBlock : Nat
  blocksPerGroup : Nat
  /-- The size of one group descriptor, at least 32. -/
  descriptorSize : Nat
  /-- Whether a bitmap's block number has an upper half in its descriptor. -/
  wideDescriptors : Bool
  /-- Whether a descriptor may declare its bitmap uninitialised. -/
  honoursUninit : Bool
deriving DecidableEq, Repr

namespace Superblock

/-- The superblock in the first bytes of an image.  The upper half of the block count and the
descriptor size are taken from a 64-bit file system whose superblock is there as far as the
former. -/
def ofHeader? (header : ByteArray) : Option Superblock :=
  match ExtKind.ofHeader? header, extBlockSize? header with
  | some kind, some blockSize =>
    let word (offset : Nat) := le32 header (superblockOffset + offset)
    let blocksPerGroup := word 32
    if blocksPerGroup = 0 ∨ blocksPerGroup % 8 ≠ 0 then none
    else
      let is64Bit := (word 96).testBit 7
      let extended := is64Bit && superblockOffset + 340 ≤ header.size
      let totalBlocks := word 4 + (if extended then 0x100000000 * word 336 else 0)
      let descriptorSize :=
        if extended then max 32 (le16 header (superblockOffset + 254)) else 32
      let firstDataBlock := word 20
      if totalBlocks ≤ firstDataBlock then none
      else some
        { kind, blockSize, totalBlocks, firstDataBlock, blocksPerGroup, descriptorSize,
          wideDescriptors := is64Bit && 64 ≤ descriptorSize
          honoursUninit := (word 100).testBit 4 || (word 100).testBit 10 }
  | _, _ => none

def dataBlocks (sb : Superblock) : Nat := sb.totalBlocks - sb.firstDataBlock

def groupCount (sb : Superblock) : Nat :=
  (sb.dataBlocks + sb.blocksPerGroup - 1) / sb.blocksPerGroup

def groupBytes (sb : Superblock) : Nat := sb.blocksPerGroup / 8

/-- Where the table of group descriptors starts: in the block after the superblock's. -/
def descriptorTable (sb : Superblock) : Nat := (sb.firstDataBlock + 1) * sb.blockSize

/-- How many blocks group `g` has; the last one may be cut short. -/
def blocksInGroup (sb : Superblock) (g : Nat) : Nat :=
  min sb.blocksPerGroup (sb.dataBlocks - g * sb.blocksPerGroup)

end Superblock

end RegionSalvage
