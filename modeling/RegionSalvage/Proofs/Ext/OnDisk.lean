import RegionSalvage.Ext.Superblock
import RegionSalvage.Proofs.Bytes

/-! # Block allocation as an ext image states it

The geometry of the file system and the allocation of its blocks, read straight from the bytes of
the image: no table is cut out, no bitmap is copied.  `Marks` says when the image marks a block of
a group as used.  `Superblock.Describes` ties a superblock in hand to the image it came from.
-/

namespace RegionSalvage

namespace OnDisk

variable (image : ByteArray)

/-! ## Geometry -/

def blockSize : Nat := 1024 <<< le32 image (superblockOffset + 24)

def firstDataBlock : Nat := le32 image (superblockOffset + 20)

def blocksPerGroup : Nat := le32 image (superblockOffset + 32)

/-- Whether the file system has the 64-bit feature. -/
def is64Bit : Bool := (le32 image (superblockOffset + 96)).testBit 7

/-- Whether the superblock goes on to the upper half of the block count, and this half counts. -/
def isExtended : Bool := is64Bit image && superblockOffset + 340 ≤ image.size

def totalBlocks : Nat :=
  le32 image (superblockOffset + 4) +
    (if isExtended image then 0x100000000 * le32 image (superblockOffset + 336) else 0)

theorem totalBlocks_lt : totalBlocks image < 0x10000000000000000 := by
  have hbound {lower upper : Nat} (hlower : lower < 0x100000000) (hupper : upper < 0x100000000)
      (extended : Bool) :
      lower + (if extended then 0x100000000 * upper else 0) < 0x10000000000000000 := by
    cases extended <;> simp <;> omega
  exact hbound (le32_lt image _) (le32_lt image _) _

/-- The distance from one group descriptor to the next. -/
def descriptorSize : Nat :=
  if isExtended image then max 32 (le16 image (superblockOffset + 254)) else 32

/-- Whether descriptors have checksums, of either kind; then they also have flags. -/
def isChecksummed : Bool :=
  (le32 image (superblockOffset + 100)).testBit 4 ||
    (le32 image (superblockOffset + 100)).testBit 10

/-- The image starts with an ext superblock of a plausible geometry. -/
structure Plausible : Prop where
  size_ge : superblockOffset + 104 ≤ image.size
  magic : le16 image (superblockOffset + 56) = extMagic
  exponent_le : le32 image (superblockOffset + 24) ≤ 6
  blocksPerGroup_pos : 0 < blocksPerGroup image
  dvd_blocksPerGroup : 8 ∣ blocksPerGroup image
  firstDataBlock_lt : firstDataBlock image < totalBlocks image

/-! ## Groups -/

variable (g : Nat)

/-- Where the descriptor of group `g` starts. -/
def descriptor : Nat :=
  (firstDataBlock image + 1) * blockSize image + g * descriptorSize image

/-- The block that holds the bitmap of group `g`, zero for none. -/
def bitmapBlock : Nat :=
  le32 image (descriptor image g) +
    (if is64Bit image && 64 ≤ descriptorSize image then
      0x100000000 * le32 image (descriptor image g + 32) else 0)

/-- Whether group `g` is flagged as one whose bitmap was never written. -/
def isUninit : Bool :=
  isChecksummed image && (le16 image (descriptor image g + 18)).testBit 1

/-- The byte with the bit of block `r` of group `g`. -/
def byteOf (r : Nat) : Nat := bitmapBlock image g * blockSize image + r / 8

/-- The image marks block `r` of group `g` as used. -/
structure Marks (r : Nat) : Prop where
  described : descriptor image g + 32 ≤ image.size
  assigned : bitmapBlock image g ≠ 0
  initialised : isUninit image g = false
  /-- A bitmap does not go beyond its block, however large the group is. -/
  within : r / 8 < blockSize image
  present : byteOf image g r < image.size
  set : (octet image (byteOf image g r)).testBit (r % 8) = true

end OnDisk

/-! ## Superblocks -/

namespace Superblock

/-- The superblock says what the image says, and its geometry is plausible. -/
structure Describes (sb : Superblock) (image : ByteArray) : Prop where
  blockSize_eq : sb.blockSize = OnDisk.blockSize image
  firstDataBlock_eq : sb.firstDataBlock = OnDisk.firstDataBlock image
  totalBlocks_eq : sb.totalBlocks = OnDisk.totalBlocks image
  blocksPerGroup_eq : sb.blocksPerGroup = OnDisk.blocksPerGroup image
  descriptorSize_eq : sb.descriptorSize = OnDisk.descriptorSize image
  wideDescriptors_eq :
    sb.wideDescriptors = (OnDisk.is64Bit image && 64 ≤ OnDisk.descriptorSize image)
  honoursUninit_eq : sb.honoursUninit = OnDisk.isChecksummed image
  blocksPerGroup_pos : 0 < sb.blocksPerGroup
  dvd_blocksPerGroup : 8 ∣ sb.blocksPerGroup
  firstDataBlock_lt : sb.firstDataBlock < sb.totalBlocks

theorem extBlockSize?_eq_some {header : ByteArray} {blockSize : Nat}
    (h : extBlockSize? header = some blockSize) :
    (∃ kind, ExtKind.ofHeader? header = some kind) ∧
      le32 header (superblockOffset + 24) ≤ 6 ∧
      blockSize = 1024 <<< le32 header (superblockOffset + 24) := by
  unfold extBlockSize? at h
  split at h
  · cases h
  · next kind hkind =>
    simp only at h
    split at h
    · cases h
    · next hexponent =>
      exact ⟨⟨kind, hkind⟩, Nat.le_of_not_lt hexponent, (Option.some.inj h).symm⟩

theorem le16_header (image : ByteArray) {i : Nat} (h : i + 2 ≤ extHeaderSize) :
    le16 (slice image 0 extHeaderSize) i = le16 image i := by
  rw [le16_slice (by omega), Nat.zero_add]

theorem le32_header (image : ByteArray) {i : Nat} (h : i + 4 ≤ extHeaderSize) :
    le32 (slice image 0 extHeaderSize) i = le32 image i := by
  rw [le32_slice (by omega), Nat.zero_add]

theorem isExtended_header (image : ByteArray) :
    (OnDisk.is64Bit image && superblockOffset + 340 ≤ (slice image 0 extHeaderSize).size) =
      OnDisk.isExtended image := by
  rw [OnDisk.isExtended, size_slice]
  congr 2
  simp only [superblockOffset, extHeaderSize, eq_iff_iff]
  omega

/-- The superblock of the image, its fields read in place. -/
def ofImage (image : ByteArray) (kind : ExtKind) : Superblock where
  kind := kind
  blockSize := OnDisk.blockSize image
  totalBlocks := OnDisk.totalBlocks image
  firstDataBlock := OnDisk.firstDataBlock image
  blocksPerGroup := OnDisk.blocksPerGroup image
  descriptorSize := OnDisk.descriptorSize image
  wideDescriptors := OnDisk.is64Bit image && 64 ≤ OnDisk.descriptorSize image
  honoursUninit := OnDisk.isChecksummed image

/-- All that is read of a superblock lies in the part of the image that is its header. -/
theorem ofHeader?_slice {image : ByteArray} {kind : ExtKind} {blockSize : Nat}
    (hkind : ExtKind.ofHeader? (slice image 0 extHeaderSize) = some kind)
    (hblock : extBlockSize? (slice image 0 extHeaderSize) = some blockSize) :
    ofHeader? (slice image 0 extHeaderSize) =
      if OnDisk.blocksPerGroup image = 0 ∨ OnDisk.blocksPerGroup image % 8 ≠ 0 then none
      else if OnDisk.totalBlocks image ≤ OnDisk.firstDataBlock image then none
      else some (ofImage image kind) := by
  have hword {offset : Nat} (hoffset : offset ≤ 1020) :=
    le32_header (i := superblockOffset + offset) image
      (by simp only [superblockOffset, extHeaderSize]; omega)
  have hhalf := le16_header (i := superblockOffset + 254) image (by decide)
  obtain rfl : blockSize = OnDisk.blockSize image := by
    rw [(extBlockSize?_eq_some hblock).2.2, hword (by decide), OnDisk.blockSize]
  -- First every word of the header becomes one of the image, then the expressions get their names.
  simp only [ofHeader?, hkind, hblock, hword (show 4 ≤ 1020 by decide),
    hword (show 20 ≤ 1020 by decide), hword (show 32 ≤ 1020 by decide),
    hword (show 96 ≤ 1020 by decide), hword (show 100 ≤ 1020 by decide),
    hword (show 336 ≤ 1020 by decide), hhalf]
  rw [← OnDisk.is64Bit, isExtended_header, ← OnDisk.totalBlocks, ← OnDisk.descriptorSize]
  rfl

theorem describes_ofImage {image : ByteArray} (h : OnDisk.Plausible image) (kind : ExtKind) :
    (ofImage image kind).Describes image where
  blockSize_eq := rfl
  firstDataBlock_eq := rfl
  totalBlocks_eq := rfl
  blocksPerGroup_eq := rfl
  descriptorSize_eq := rfl
  wideDescriptors_eq := rfl
  honoursUninit_eq := rfl
  blocksPerGroup_pos := h.blocksPerGroup_pos
  dvd_blocksPerGroup := h.dvd_blocksPerGroup
  firstDataBlock_lt := h.firstDataBlock_lt

theorem size_and_magic_of_ofHeader? {header : ByteArray} {kind : ExtKind}
    (h : ExtKind.ofHeader? header = some kind) :
    superblockOffset + 104 ≤ header.size ∧ le16 header (superblockOffset + 56) = extMagic := by
  unfold ExtKind.ofHeader? at h
  split at h
  · cases h
  · next hsize =>
    split at h
    · cases h
    · next hmagic => exact ⟨Nat.le_of_not_lt hsize, Decidable.not_not.1 hmagic⟩

/-- What an image has to have to be one of an ext file system, of whatever geometry. -/
theorem exists_kind_iff {image : ByteArray} :
    (∃ kind, ExtKind.ofHeader? (slice image 0 extHeaderSize) = some kind) ↔
      superblockOffset + 104 ≤ image.size ∧ le16 image (superblockOffset + 56) = extMagic := by
  have hhead := le16_header (i := superblockOffset + 56) image (by decide)
  constructor
  · rintro ⟨kind, hkind⟩
    obtain ⟨hsize, hmagic⟩ := size_and_magic_of_ofHeader? hkind
    rw [size_slice] at hsize
    exact ⟨by omega, hhead ▸ hmagic⟩
  · rintro ⟨hsize, hmagic⟩
    rw [ExtKind.ofHeader?, if_neg, if_neg (fun hne => hne (hhead.trans hmagic))]
    · simp only
      split
      · exact ⟨_, rfl⟩
      · split <;> exact ⟨_, rfl⟩
    · rw [size_slice]
      simp only [superblockOffset, extHeaderSize] at *
      omega

/-- A superblock that is not refused is that of its image, and plausible. -/
theorem ofHeader?_eq_some {image : ByteArray} {sb : Superblock}
    (h : ofHeader? (slice image 0 extHeaderSize) = some sb) :
    OnDisk.Plausible image ∧ ∃ kind, sb = ofImage image kind := by
  cases hkind : ExtKind.ofHeader? (slice image 0 extHeaderSize) with
  | none => simp [ofHeader?, hkind] at h
  | some kind =>
    cases hblock : extBlockSize? (slice image 0 extHeaderSize) with
    | none => simp [ofHeader?, hblock] at h
    | some blockSize =>
      rw [ofHeader?_slice hkind hblock] at h
      -- The groups are not empty and end at whole bytes, and there are data blocks.
      split at h
      · cases h
      · next hgroup =>
        split at h
        · cases h
        · next hdata =>
          obtain ⟨hsize, hmagic⟩ := exists_kind_iff.1 ⟨kind, hkind⟩
          have hexponent := (extBlockSize?_eq_some hblock).2.1
          rw [le32_header image (by decide)] at hexponent
          refine ⟨?_, kind, (Option.some.inj h).symm⟩
          exact
            { size_ge := hsize
              magic := hmagic
              exponent_le := hexponent
              blocksPerGroup_pos := by omega
              dvd_blocksPerGroup := by omega
              firstDataBlock_lt := Nat.lt_of_not_le hdata }

theorem describes_of_ofHeader? {image : ByteArray} {sb : Superblock}
    (h : ofHeader? (slice image 0 extHeaderSize) = some sb) : sb.Describes image := by
  obtain ⟨hgeometry, kind, rfl⟩ := ofHeader?_eq_some h
  exact describes_ofImage hgeometry kind

theorem extBlockSize?_header {image : ByteArray} {kind : ExtKind}
    (hkind : ExtKind.ofHeader? (slice image 0 extHeaderSize) = some kind)
    (hexponent : le32 image (superblockOffset + 24) ≤ 6) :
    extBlockSize? (slice image 0 extHeaderSize) = some (OnDisk.blockSize image) := by
  have hhead := le32_header (i := superblockOffset + 24) image (by decide)
  rw [extBlockSize?, hkind, OnDisk.blockSize]
  simp only [hhead]
  exact if_neg (by omega)

/-- A plausible superblock is not refused. -/
theorem exists_ofHeader? {image : ByteArray} (h : OnDisk.Plausible image) :
    ∃ kind, ofHeader? (slice image 0 extHeaderSize) = some (ofImage image kind) := by
  obtain ⟨kind, hkind⟩ := exists_kind_iff.2 ⟨h.size_ge, h.magic⟩
  have hblock := extBlockSize?_header hkind h.exponent_le
  have hpos := h.blocksPerGroup_pos
  have hdvd := h.dvd_blocksPerGroup
  have hlt := h.firstDataBlock_lt
  exact ⟨kind, by rw [ofHeader?_slice hkind hblock, if_neg (by omega), if_neg (by omega)]⟩

end Superblock

end RegionSalvage
