import RegionSalvage.Proofs.Ext.FreeCount

/-! # Cutting an image short frees blocks and takes none into use

An image that is cut behind its superblock keeps its geometry, since all of it is in the first two
kilobytes.  What else is read of it is there as it was or it is not there at all, and what is not
there counts as free: each block that the cut image marks is marked by the whole one
(`OnDisk.Marks.of_cut`).
-/

namespace RegionSalvage

theorem slice_slice_front {b : ByteArray} {m n : Nat} (h : m ≤ n) :
    slice (slice b 0 n) 0 m = slice b 0 m := by
  apply ext_octet
  · simp only [size_slice]
    omega
  · intro i hi
    simp only [size_slice] at hi
    rw [octet_slice (by omega), octet_slice (by omega), octet_slice (by omega), Nat.zero_add,
      Nat.zero_add]

namespace Superblock

theorem fsType_of_allocation {sb : Superblock} {image : ByteArray} {access : ImageAccess}
    {a : ExtBlockMap} (h : sb.allocation image access = .ok a) : a.fsType = sb.kind.name := by
  obtain ⟨survey, -, rfl⟩ := exists_survey_of_allocation h
  rfl

end Superblock

namespace OnDisk

variable {sb : Superblock} {image : ByteArray} {n g r : Nat}

/-- The bit of a block in a cut image is the one that the whole image has in the same place. -/
theorem Marks.of_cut (hsb : sb.Describes image) (hcut : sb.Describes (slice image 0 n))
    (hg : g < sb.groupCount) (hwhole : ¬ Halved (slice image 0 n) g)
    (h : Marks (slice image 0 n) g r) : Marks image g r := by
  have hblockSize : blockSize (slice image 0 n) = blockSize image :=
    hcut.blockSize_eq.symm.trans hsb.blockSize_eq
  have hdescriptor : descriptor (slice image 0 n) g = descriptor image g :=
    (hcut.descriptor_eq g).trans (hsb.descriptor_eq g).symm
  have hsize : (slice image 0 n).size = min n image.size := by
    rw [size_slice]
    omega
  have hdescribed := h.described
  rw [hdescriptor, hsize] at hdescribed
  -- A descriptor with an upper half has it, because the image does not end inside it.
  have hbitmap : bitmapBlock (slice image 0 n) g = bitmapBlock image g := by
    have hwide := hcut.wideDescriptors_eq.symm.trans hsb.wideDescriptors_eq
    rw [bitmapBlock, bitmapBlock, hwide, hdescriptor, le32_slice (by omega), Nat.zero_add]
    split
    · next hupper =>
      have hfits : ¬ min n image.size < descriptor image g + 36 := by
        intro hlt
        exact hwhole
          { group_lt := hcut.groupCount_eq ▸ hg
            wide := hwide.trans hupper
            described := h.described
            size_lt := by rwa [hdescriptor, hsize] }
      rw [le32_slice (by omega), Nat.zero_add]
    · rfl
  have huninit : isUninit (slice image 0 n) g = isUninit image g := by
    rw [isUninit, isUninit, ← hcut.honoursUninit_eq, ← hsb.honoursUninit_eq, hdescriptor,
      le16_slice (by omega), Nat.zero_add]
  have hbyte : byteOf (slice image 0 n) g r = byteOf image g r := by
    rw [byteOf, byteOf, hbitmap, hblockSize]
  have hpresent := h.present
  have hset := h.set
  rw [hbyte, hsize] at hpresent
  rw [hbyte, octet_slice (by omega), Nat.zero_add] at hset
  exact
    { described := by omega
      assigned := hbitmap ▸ h.assigned
      initialised := huninit ▸ h.initialised
      within := hblockSize ▸ h.within
      present := by omega
      set := hset }

end OnDisk

namespace ExtBlockMap

variable {image : ByteArray} {n : Nat} {access access' : ImageAccess} {a a' : ExtBlockMap}

/-- A cut image and the whole one have one superblock, if the cut leaves the header alone. -/
theorem exists_superblock_of_cut (hn : extHeaderSize ≤ n)
    (h : ofImage? image access = .ok (some a))
    (h' : ofImage? (slice image 0 n) access' = .ok (some a')) :
    ∃ sb : Superblock, sb.Describes image ∧ sb.allocation image access = .ok a ∧
      sb.Describes (slice image 0 n) ∧ sb.allocation (slice image 0 n) access' = .ok a' := by
  obtain ⟨sb, hheader, hallocation⟩ := exists_superblock h
  obtain ⟨sb', hheader', hallocation'⟩ := exists_superblock h'
  obtain rfl : sb = sb' := by
    rw [slice_slice_front hn, hheader] at hheader'
    exact Option.some.inj hheader'
  exact ⟨sb, Superblock.describes_of_ofHeader? hheader, hallocation,
    Superblock.describes_of_ofHeader? hheader', hallocation'⟩

/-- The bits of the cut image are among those of the whole one. -/
theorem bitAt_of_cut {sb : Superblock} (hsb : sb.Describes image)
    (ha : sb.allocation image access = .ok a) (hcut : sb.Describes (slice image 0 n))
    (ha' : sb.allocation (slice image 0 n) access' = .ok a')
    (hwhole : ∀ g, ¬ OnDisk.Halved (slice image 0 n) g) {i : Nat} (hi : i < sb.dataBlocks)
    (hbit : bitAt a'.bitmap i = true) : bitAt a.bitmap i = true := by
  obtain ⟨-, -, -, -, hcovers⟩ := Superblock.allocation_eq_ok hsb ha
  obtain ⟨-, -, -, -, hcovers'⟩ := Superblock.allocation_eq_ok hcut ha'
  have hmarks := (hcovers'.bit_iff_of_lt hcut hi).2.1 hbit
  exact (hcovers.bit_iff_of_lt hsb hi).2.2
    (hmarks.of_cut hsb hcut (hsb.group_lt hi) (hwhole _))

/-- Of an image that is cut behind its superblock the allocation has the geometry of the whole
image, if there still is one; no block is in use in it that is free in the whole image, and it has
no fewer free blocks. -/
theorem ofImage?_of_cut (hn : extHeaderSize ≤ n) (h : ofImage? image access = .ok (some a))
    (h' : ofImage? (slice image 0 n) access' = .ok (some a')) :
    a'.fsType = a.fsType ∧ a'.blockSize = a.blockSize ∧ a'.totalBlocks = a.totalBlocks ∧
      a'.firstDataBlock = a.firstDataBlock ∧ a'.blocksPerGroup = a.blocksPerGroup ∧
      (∀ block, ∃ used used', a.isAllocated? block = some used ∧
        a'.isAllocated? block = some used' ∧ (used' = true → used = true)) ∧
      a.freeBlocks ≤ a'.freeBlocks := by
  obtain ⟨sb, hsb, ha, hcut, ha'⟩ := exists_superblock_of_cut hn h h'
  obtain ⟨hblock, htotal, hfirst, hgroup, -⟩ := Superblock.allocation_eq_ok hsb ha
  obtain ⟨hblock', htotal', hfirst', hgroup', -⟩ := Superblock.allocation_eq_ok hcut ha'
  have hkind := Superblock.fsType_of_allocation ha
  have hkind' := Superblock.fsType_of_allocation ha'
  -- Both bitmaps are those of their images, and a shorter image marks no more.
  have hbits {i : Nat} (hi : i < sb.dataBlocks) :
      bitAt a'.bitmap i = true → bitAt a.bitmap i = true :=
    bitAt_of_cut hsb ha hcut ha' (exists_ofImage?_iff.1 ⟨a', h'⟩).not_halved hi
  refine ⟨hkind'.trans hkind.symm, hblock'.trans hblock.symm, htotal'.trans htotal.symm,
    hfirst'.trans hfirst.symm, hgroup'.trans hgroup.symm, fun block => ?_, ?_⟩
  · by_cases hinside : sb.firstDataBlock ≤ block ∧ block < sb.totalBlocks
    · obtain ⟨hlower, hupper⟩ := hinside
      obtain ⟨hused, -⟩ :=
        Superblock.isAllocated?_of_inside hsb ha (hfirst ▸ hlower) (htotal ▸ hupper)
      obtain ⟨hused', -⟩ :=
        Superblock.isAllocated?_of_inside hcut ha' (hfirst' ▸ hlower) (htotal' ▸ hupper)
      rw [hfirst] at hused
      rw [hfirst'] at hused'
      have hindex : (block - sb.firstDataBlock).toNat < sb.dataBlocks := by
        rw [Superblock.dataBlocks]
        omega
      exact ⟨_, _, hused, hused', hbits hindex⟩
    · -- Outside the data blocks both answer that the block is in use.
      refine ⟨true, true, ?_, ?_, id⟩
      · rw [isAllocated?, if_pos (by omega)]
      · rw [isAllocated?, if_pos (by omega)]
  · have hcount : countBits a'.bitmap sb.dataBlocks ≤ countBits a.bitmap sb.dataBlocks := by
      rw [countBits_eq, countBits_eq]
      exact List.countP_mono_left fun i hi => hbits (List.mem_range.1 hi)
    rw [Superblock.freeBlocks_of_allocation hsb ha, Superblock.freeBlocks_of_allocation hcut ha']
    omega

/-! ## Nothing left but the header -/

theorem plausible_of_cut (hn : extHeaderSize ≤ n) (h : OnDisk.Plausible image) :
    OnDisk.Plausible (slice image 0 n) := by
  obtain ⟨kind, hheader⟩ := Superblock.exists_ofHeader? h
  rw [← slice_slice_front hn] at hheader
  exact (Superblock.ofHeader?_eq_some hheader).1

/-- Without its descriptor the group of `smallImage` counts as free. -/
theorem ofImage?_of_cut_smallImage :
    ∃ a a', ofImage? smallImage .mapped = .ok (some a) ∧
      ofImage? (slice smallImage 0 extHeaderSize) .mapped = .ok (some a') ∧
      a.isAllocated? 3 = some true ∧ a'.isAllocated? 3 = some false ∧
      a'.totalBlocks = a.totalBlocks ∧ a.freeBlocks ≤ a'.freeBlocks := by
  obtain ⟨a, ha⟩ := exists_ofImage? plausible_smallImage fun g hwide => by
    rw [is64Bit_smallImage, Bool.false_and] at hwide
    cases hwide
  have hnarrow : OnDisk.is64Bit (slice smallImage 0 extHeaderSize) = false := by
    rw [OnDisk.is64Bit, Superblock.le32_header _ (by decide), ← OnDisk.is64Bit, is64Bit_smallImage]
  obtain ⟨a', ha'⟩ := exists_ofImage? (plausible_of_cut (Nat.le_refl _) plausible_smallImage)
    fun g hwide => by
      rw [hnarrow, Bool.false_and] at hwide
      cases hwide
  obtain ⟨-, -, htotal, -, -, -, hfree⟩ := ofImage?_of_cut (Nat.le_refl _) ha ha'
  obtain ⟨sb, hsb, -, hcut, -⟩ := exists_superblock_of_cut (Nat.le_refl _) ha ha'
  have hfirst := hcut.firstDataBlock_eq.symm.trans hsb.firstDataBlock_eq
  have hlast := hcut.totalBlocks_eq.symm.trans hsb.totalBlocks_eq
  have hgroup := hcut.blocksPerGroup_eq.symm.trans hsb.blocksPerGroup_eq
  rw [firstDataBlock_smallImage] at hfirst
  rw [totalBlocks_smallImage] at hlast
  rw [blocksPerGroup_smallImage] at hgroup
  obtain ⟨-, used, hused, hiff⟩ := isAllocated?_of_lt ha' (i := 2) (by rw [hlast, hfirst]; decide)
  have hdescriptor : OnDisk.descriptor (slice smallImage 0 extHeaderSize) 0 = 2048 := by
    rw [hcut.descriptor_eq, ← hsb.descriptor_eq, OnDisk.descriptor, OnDisk.blockSize,
      firstDataBlock_smallImage, Nat.zero_mul, le32_smallImage]
    decide
  -- The part of the image ends where the only descriptor starts, so it marks nothing.
  have hfalse : used = false := by
    apply Bool.eq_false_iff.2
    intro htrue
    have hdescribed := (hiff.1 htrue).described
    have hsize : (slice smallImage 0 extHeaderSize).size ≤ extHeaderSize := by
      rw [size_slice]
      exact Nat.le_trans (Nat.sub_le _ _) (Nat.min_le_left _ _)
    rw [hgroup, Nat.div_eq_of_lt (show 2 < 8 by decide), hdescriptor] at hdescribed
    exact absurd (Nat.le_trans hdescribed hsize) (by decide)
  rw [hfirst, hfalse] at hused
  exact ⟨a, a', ha, ha', isAllocated?_smallImage_eq ha (i := 2) (by decide), hused, htotal, hfree⟩

end ExtBlockMap

end RegionSalvage
