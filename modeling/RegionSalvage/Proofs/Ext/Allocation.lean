import RegionSalvage.Proofs.Ext.Readability

/-! # The allocation in hand is the one on the image

Put together, the superblock, the table of descriptors and the bitmaps give for every block number
the answer that the image gives, and there is an answer for every block number.
-/

namespace RegionSalvage

namespace Superblock

variable {sb : Superblock} {image : ByteArray} {access : ImageAccess} {a : ExtBlockMap}

theorem isAllocated?_of_inside (hsb : sb.Describes image) (h : sb.allocation image access = .ok a)
    {block : Int} (hfirst : a.firstDataBlock ≤ block) (hlast : block < a.totalBlocks) :
    let i := (block - a.firstDataBlock).toNat
    a.isAllocated? block = some (bitAt a.bitmap i) ∧
      (bitAt a.bitmap i = true ↔
        OnDisk.Marks image (i / sb.blocksPerGroup) (i % sb.blocksPerGroup)) := by
  obtain ⟨-, htotal, hdata, -, hcovers⟩ := Superblock.allocation_eq_ok hsb h
  have hindex : (block - a.firstDataBlock).toNat < sb.dataBlocks := by
    rw [Superblock.dataBlocks]
    omega
  obtain ⟨hthere, hiff⟩ := hcovers.bit_iff_of_lt hsb hindex
  refine ⟨?_, hiff⟩
  rw [ExtBlockMap.isAllocated?, if_neg (by omega)]
  exact if_pos hthere

/-- No query leaves the bitmap. -/
theorem exists_isAllocated? (hsb : sb.Describes image) (h : sb.allocation image access = .ok a)
    (block : Int) : ∃ used, a.isAllocated? block = some used := by
  by_cases houtside : block < a.firstDataBlock ∨ a.totalBlocks ≤ block
  · exact ⟨true, if_pos houtside⟩
  · exact ⟨_, (isAllocated?_of_inside hsb h (by omega) (by omega)).1⟩

end Superblock

namespace ExtBlockMap

/-- An allocation is read with the superblock in the header of its image. -/
theorem exists_superblock {image : ByteArray} {access : ImageAccess} {a : ExtBlockMap}
    (h : ofImage? image access = .ok (some a)) :
    ∃ sb, Superblock.ofHeader? (slice image 0 extHeaderSize) = some sb ∧
      sb.allocation image access = .ok a := by
  rw [ofImage?] at h
  cases hheader : Superblock.ofHeader? (slice image 0 extHeaderSize) with
  | none =>
    rw [hheader] at h
    cases h
  | some sb =>
    rw [hheader] at h
    cases hallocation : sb.allocation image access with
    | error fault =>
      simp only [hallocation] at h
      cases h
    | ok found =>
      simp only [hallocation] at h
      cases h
      exact ⟨sb, rfl, hallocation⟩

theorem ofImage?_eq_ok {image : ByteArray} {access : ImageAccess} {a : ExtBlockMap}
    (h : ofImage? image access = .ok (some a)) :
    ∃ sb : Superblock, sb.Describes image ∧ sb.allocation image access = .ok a := by
  obtain ⟨sb, hheader, ha⟩ := exists_superblock h
  exact ⟨sb, Superblock.describes_of_ofHeader? hheader, ha⟩

/-- A plausible image in memory has an allocation unless it ends in the middle of a descriptor, past
its first 32 bytes and within its upper half. -/
theorem exists_ofImage? {image : ByteArray} (hgeometry : OnDisk.Plausible image)
    (hcut : ∀ g, OnDisk.is64Bit image && 64 ≤ OnDisk.descriptorSize image →
      OnDisk.descriptor image g + 32 ≤ image.size → OnDisk.descriptor image g + 36 ≤ image.size) :
    ∃ a, ofImage? image .mapped = .ok (some a) := by
  apply exists_ofImage?_iff.2
  exact
    { geometry := hgeometry
      table := trivial
      not_halved := fun g hhalved =>
        absurd (hcut g hhalved.wide hhalved.described) (Nat.not_le_of_lt hhalved.size_lt)
      bitmap := fun _ _ _ _ _ => trivial }

/-- Every block number has an answer, and for a block of a group it is the bit on the image. -/
theorem isAllocated?_iff_marks {image : ByteArray} {access : ImageAccess} {a : ExtBlockMap}
    (h : ofImage? image access = .ok (some a)) :
    a.blockSize = OnDisk.blockSize image ∧ a.firstDataBlock = OnDisk.firstDataBlock image ∧
      a.totalBlocks = OnDisk.totalBlocks image ∧ a.blocksPerGroup = OnDisk.blocksPerGroup image ∧
      0 < a.blocksPerGroup ∧
      ∀ b : Int, ∃ used, a.isAllocated? b = some used ∧
        (b < a.firstDataBlock ∨ a.totalBlocks ≤ b → used = true) ∧
        (a.firstDataBlock ≤ b → b < a.totalBlocks →
          (used = true ↔ OnDisk.Marks image
            ((b - a.firstDataBlock).toNat / OnDisk.blocksPerGroup image)
            ((b - a.firstDataBlock).toNat % OnDisk.blocksPerGroup image))) := by
  obtain ⟨sb, hsb, ha⟩ := ofImage?_eq_ok h
  obtain ⟨hblock, htotal, hfirst, hgroup, hcovers⟩ := Superblock.allocation_eq_ok hsb ha
  have hpos := hsb.blocksPerGroup_pos
  refine ⟨by rw [hblock, hsb.blockSize_eq], by rw [hfirst, hsb.firstDataBlock_eq],
    by rw [htotal, hsb.totalBlocks_eq], by rw [hgroup, hsb.blocksPerGroup_eq],
    by rw [hgroup]; omega, ?_⟩
  intro b
  -- Outside the data blocks there is no bit to look at.
  by_cases houtside : b < a.firstDataBlock ∨ a.totalBlocks ≤ b
  · refine ⟨true, ?_, fun _ => rfl, fun hge hlt => by omega⟩
    rw [isAllocated?, if_pos houtside]
  · have hindex : (b - a.firstDataBlock).toNat < sb.dataBlocks := by
      rw [Superblock.dataBlocks]
      omega
    obtain ⟨hthere, hiff⟩ := hcovers.bit_iff_of_lt hsb hindex
    refine ⟨bitAt a.bitmap (b - a.firstDataBlock).toNat, ?_, fun hcontra => absurd hcontra houtside,
      fun _ _ => ?_⟩
    · rw [isAllocated?, if_neg houtside]
      exact if_pos hthere
    · rw [← hsb.blocksPerGroup_eq]
      exact hiff

def smallContents : List (Nat × UInt8) :=
  [(1028, 9), (1044, 1), (1056, 8), (1080, 0x53), (1081, 0xEF), (2048, 3), (3072, 0xA5)]

/-- A file system of one group: blocks 1 to 8, of a kilobyte each, of which blocks 1, 3, 6 and 8 are
in use.  The descriptor is in block 2, the bitmap in block 3. -/
def smallImage : ByteArray := sparse 3073 smallContents

def smallOctet (i : Nat) : Nat :=
  if i < 3073 then ((smallContents.lookup i).getD 0).toNat else 0

theorem octet_smallImage : octet smallImage = smallOctet :=
  funext (octet_sparse 3073 _)

theorem le16_smallImage (i : Nat) :
    le16 smallImage i = smallOctet i + 256 * smallOctet (i + 1) :=
  le16_sparse 3073 smallContents i

theorem le32_smallImage (i : Nat) : le32 smallImage i =
    smallOctet i + 256 * smallOctet (i + 1) +
      65536 * (smallOctet (i + 2) + 256 * smallOctet (i + 2 + 1)) :=
  le32_sparse 3073 smallContents i

theorem is64Bit_smallImage : OnDisk.is64Bit smallImage = false := by
  rw [OnDisk.is64Bit, le32_smallImage]
  decide

theorem isExtended_smallImage : OnDisk.isExtended smallImage = false := by
  rw [OnDisk.isExtended, is64Bit_smallImage, Bool.false_and]

theorem firstDataBlock_smallImage : OnDisk.firstDataBlock smallImage = 1 := by
  rw [OnDisk.firstDataBlock, le32_smallImage]
  decide

theorem totalBlocks_smallImage : OnDisk.totalBlocks smallImage = 9 := by
  rw [OnDisk.totalBlocks, isExtended_smallImage, le32_smallImage]
  decide

theorem blocksPerGroup_smallImage : OnDisk.blocksPerGroup smallImage = 8 := by
  rw [OnDisk.blocksPerGroup, le32_smallImage]
  decide

theorem plausible_smallImage : OnDisk.Plausible smallImage where
  size_ge := by
    rw [smallImage, size_sparse]
    decide
  magic := by
    rw [le16_smallImage]
    decide
  exponent_le := by
    rw [le32_smallImage]
    decide
  blocksPerGroup_pos := by
    rw [blocksPerGroup_smallImage]
    decide
  dvd_blocksPerGroup := Nat.dvd_of_mod_eq_zero (by rw [blocksPerGroup_smallImage])
  firstDataBlock_lt := by
    rw [firstDataBlock_smallImage, totalBlocks_smallImage]
    decide

theorem marks_smallImage {r : Nat} (hr : r < 8) :
    OnDisk.Marks smallImage 0 r ↔ (0xA5 : Nat).testBit r = true := by
  have hblock : OnDisk.blockSize smallImage = 1024 := by
    rw [OnDisk.blockSize, le32_smallImage]
    decide
  have hdescriptor : OnDisk.descriptor smallImage 0 = 2048 := by
    rw [OnDisk.descriptor, firstDataBlock_smallImage, hblock, Nat.zero_mul]
  have hbitmap : OnDisk.bitmapBlock smallImage 0 = 3 := by
    rw [OnDisk.bitmapBlock, hdescriptor, is64Bit_smallImage, le32_smallImage]
    decide
  have hinit : OnDisk.isUninit smallImage 0 = false := by
    rw [OnDisk.isUninit, OnDisk.isChecksummed, le32_smallImage]
    decide
  have hsize : smallImage.size = 3073 := size_sparse ..
  -- The bits of all eight blocks are in one byte.
  have hbyte : OnDisk.byteOf smallImage 0 r = 3072 := by
    rw [OnDisk.byteOf, hbitmap, hblock]
    omega
  have hoctet : octet smallImage 3072 = 0xA5 := by
    rw [octet_smallImage]
    decide
  constructor
  · intro hmarks
    have hset := hmarks.set
    rwa [hbyte, hoctet, Nat.mod_eq_of_lt hr] at hset
  · intro hset
    exact
      { described := by rw [hdescriptor, hsize]; decide
        assigned := by rw [hbitmap]; decide
        initialised := hinit
        within := by rw [hblock]; omega
        present := by rw [hbyte, hsize]; decide
        set := by rwa [hbyte, hoctet, Nat.mod_eq_of_lt hr] }

theorem isAllocated?_smallImage :
    ∃ a, ofImage? smallImage .mapped = .ok (some a) ∧ a.isAllocated? 3 = some true ∧
      a.isAllocated? 4 = some false ∧ a.isAllocated? 9 = some true := by
  -- Without the 64-bit feature no descriptor has an upper half that could be cut.
  obtain ⟨a, ha⟩ := exists_ofImage? plausible_smallImage fun g hwide => by
    rw [is64Bit_smallImage, Bool.false_and] at hwide
    cases hwide
  obtain ⟨-, hfirst, htotal, -, -, hanswer⟩ := isAllocated?_iff_marks ha
  rw [firstDataBlock_smallImage] at hfirst
  rw [totalBlocks_smallImage] at htotal
  rw [hfirst, htotal, blocksPerGroup_smallImage] at hanswer
  obtain ⟨used₃, h₃, -, hmarks₃⟩ := hanswer 3
  obtain ⟨used₄, h₄, -, hmarks₄⟩ := hanswer 4
  obtain ⟨used₉, h₉, houtside₉, -⟩ := hanswer 9
  refine ⟨a, ha, ?_, ?_, ?_⟩
  · have hmarked : OnDisk.Marks smallImage 0 2 := (marks_smallImage (by decide)).2 (by decide)
    rw [h₃, (hmarks₃ (by decide) (by decide)).2 hmarked]
  · have hunmarked : ¬ OnDisk.Marks smallImage 0 3 :=
      fun hmarked => absurd ((marks_smallImage (by decide)).1 hmarked) (by decide)
    rw [h₄, Bool.eq_false_iff.2 fun hused => hunmarked ((hmarks₄ (by decide) (by decide)).1 hused)]
  · rw [h₉, houtside₉ (.inr (by decide))]

end ExtBlockMap

end RegionSalvage
