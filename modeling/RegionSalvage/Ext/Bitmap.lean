import RegionSalvage.Ext.Superblock
import RegionSalvage.Ext.BlockMap

/-! # Reading the block bitmaps of an ext image

Every block group has a descriptor that says where its bitmap is.  A group without a readable
descriptor, without a bitmap, or with a bitmap that is declared uninitialised counts as free
throughout; so does the part of a bitmap past the end of the image.

The reading stops (`BitmapFault`) at a descriptor that is cut inside its 64-bit half and, where the
image is read by seeking, at a table or bitmap beyond the largest file or the largest offset.
-/

namespace RegionSalvage

/-- Why the bitmaps of an ext image cannot be read. -/
inductive BitmapFault where
  /-- Of the descriptor at `offset` in a table of `available` bytes, the 64-bit half is cut. -/
  | descriptorCut (offset available : Nat)
  /-- A bitmap lies beyond the end of the largest file. -/
  | seekRefused
  /-- A bitmap lies beyond the offsets that a seek can take. -/
  | seekTooFar
deriving DecidableEq, Repr

/-- How the bytes of an image are reached. -/
inductive ImageAccess where
  /-- All at once, through a memory map. -/
  | mapped
  /-- By seeking; no file is larger than `largest`, and no seek goes beyond that. -/
  | seeking (largest : Nat)
deriving DecidableEq, Repr

/-- The first offset beyond the reach of a seek: offsets are signed 64-bit numbers. -/
def seekLimit : Nat := 0x8000000000000000

/-- The bytes of an image from `offset` on, at most `count` of them. -/
def readAt (image : ByteArray) (access : ImageAccess) (offset count : Nat) :
    Except BitmapFault ByteArray :=
  match access with
  | .mapped => .ok (slice image offset (offset + count))
  | .seeking largest =>
    if seekLimit ≤ offset then .error .seekTooFar
    else if largest < offset then .error .seekRefused
    else .ok (slice image offset (offset + count))

namespace Superblock

/-- How many descriptors of a table of `available` bytes are there with at least their first 32
bytes. -/
def readableDescriptors (sb : Superblock) (available : Nat) : Nat :=
  if available < 32 then 0 else min sb.groupCount ((available - 32) / sb.descriptorSize + 1)

/-- The block that holds the bitmap of the group whose descriptor is at `offset` of the table;
`none` when the group has no bitmap to read. -/
def bitmapBlock? (sb : Superblock) (table : ByteArray) (offset : Nat) :
    Except BitmapFault (Option Nat) := do
  let upper ←
    if !sb.wideDescriptors then .ok 0
    else if table.size < offset + 36 then
      .error (BitmapFault.descriptorCut (offset + 32) table.size)
    else .ok (le32 table (offset + 32))
  let block := le32 table offset + 0x100000000 * upper
  if block = 0 ∨ (sb.honoursUninit ∧ (le16 table (offset + 18)).testBit 1) then return none
  else return some block

/-- The bitmap of the group whose descriptor is at `offset` of the table, as far as it can be read;
empty when there is none. -/
def groupBitmap (sb : Superblock) (image : ByteArray) (access : ImageAccess) (table : ByteArray)
    (offset : Nat) : Except BitmapFault ByteArray := do
  match ← sb.bitmapBlock? table offset with
  | none => return .empty
  | some block => readAt image access (block * sb.blockSize) (min sb.groupBytes sb.blockSize)

/-- The bitmaps read so far, and how many of the blocks they describe are in use. -/
structure Survey where
  bitmap : ByteArray := .empty
  used : Nat := 0

/-- Adds group `g` to a survey. -/
def surveyGroup (sb : Superblock) (image : ByteArray) (access : ImageAccess) (table : ByteArray)
    (s : Survey) (g : Nat) : Except BitmapFault Survey := do
  let bits ← sb.groupBitmap image access table (g * sb.descriptorSize)
  return { bitmap := padZeros (sb.groupBytes - bits.size) (s.bitmap ++ bits)
           used := s.used + countBits bits (sb.blocksInGroup g) }

/-- The allocation of the file system on an image. -/
def allocation (sb : Superblock) (image : ByteArray) (access : ImageAccess) :
    Except BitmapFault ExtBlockMap := do
  let table ← readAt image access sb.descriptorTable (sb.groupCount * sb.descriptorSize)
  let groups := sb.readableDescriptors table.size
  let survey ← (List.range groups).foldlM (sb.surveyGroup image access table) {}
  return { fsType := sb.kind.name, blockSize := sb.blockSize, totalBlocks := sb.totalBlocks
           firstDataBlock := sb.firstDataBlock, blocksPerGroup := sb.blocksPerGroup
           freeBlocks := (sb.dataBlocks : Int) - survey.used
           bitmap := padZeros ((sb.groupCount - groups) * sb.groupBytes) survey.bitmap }

end Superblock

/-- The allocation of the ext file system on an image; `none` when there is no such file system, or
its geometry is implausible. -/
def ExtBlockMap.ofImage? (image : ByteArray) (access : ImageAccess) :
    Except BitmapFault (Option ExtBlockMap) := do
  match Superblock.ofHeader? (slice image 0 extHeaderSize) with
  | none => return none
  | some sb => return some (← sb.allocation image access)

end RegionSalvage
