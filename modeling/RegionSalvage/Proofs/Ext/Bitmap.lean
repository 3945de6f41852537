import RegionSalvage.Ext.Bitmap
import RegionSalvage.Proofs.Ext.OnDisk

/-! # The bitmaps in hand are those of the image

Group after group, the survey puts the bitmaps of an image one behind the other.  Its invariant,
`Superblock.Covers`, says that the bits for the groups surveyed so far are those that the image
marks; each group of the table extends it by one, and the zeros for the groups without a readable
descriptor extend it to the last group.
-/

namespace RegionSalvage

theorem readAt_eq_ok {image : ByteArray} {access : ImageAccess} {offset count : Nat}
    {bytes : ByteArray} (h : readAt image access offset count = .ok bytes) :
    bytes = slice image offset (offset + count) := by
  cases access with
  | mapped => exact (Except.ok.inj h).symm
  | seeking largest =>
    simp only [readAt] at h
    split at h
    · cases h
    · split at h
      · cases h
      · exact (Except.ok.inj h).symm

namespace Superblock

variable {sb : Superblock} {image table : ByteArray} {access : ImageAccess}

/-! ## Arithmetic of groups -/

theorem Describes.descriptorSize_ge (hsb : sb.Describes image) : 32 ≤ sb.descriptorSize := by
  rw [hsb.descriptorSize_eq, OnDisk.descriptorSize]
  split
  · exact Nat.le_max_left ..
  · exact Nat.le_refl _

theorem Describes.eight_mul_groupBytes (hsb : sb.Describes image) :
    8 * sb.groupBytes = sb.blocksPerGroup :=
  Nat.mul_div_cancel' hsb.dvd_blocksPerGroup

theorem Describes.group_lt (hsb : sb.Describes image) {i : Nat} (h : i < sb.dataBlocks) :
    i / sb.blocksPerGroup < sb.groupCount := by
  have hpos := hsb.blocksPerGroup_pos
  have hdiv : i / sb.blocksPerGroup + 1 ≤ sb.groupCount := by
    rw [groupCount, ← Nat.add_div_right i hpos]
    exact Nat.div_le_div_right (by omega)
  exact hdiv

/-! ## The table of descriptors -/

/-- The table of group descriptors, as far as the image goes. -/
def tableOf (sb : Superblock) (image : ByteArray) : ByteArray :=
  slice image sb.descriptorTable (sb.descriptorTable + sb.groupCount * sb.descriptorSize)

theorem lt_readableDescriptors (hsize : 0 < sb.descriptorSize) {available g : Nat} :
    g < sb.readableDescriptors available ↔
      g < sb.groupCount ∧ g * sb.descriptorSize + 32 ≤ available := by
  unfold readableDescriptors
  split
  · omega
  · have hle := Nat.le_div_iff_mul_le (x := g) (y := available - 32) hsize
    rw [Nat.lt_min, Nat.lt_succ_iff, hle]
    omega

theorem readableDescriptors_le (sb : Superblock) (available : Nat) :
    sb.readableDescriptors available ≤ sb.groupCount := by
  unfold readableDescriptors
  split
  · exact Nat.zero_le _
  · exact Nat.min_le_left ..

theorem Describes.descriptor_eq (hsb : sb.Describes image) (g : Nat) :
    OnDisk.descriptor image g = sb.descriptorTable + g * sb.descriptorSize := by
  rw [OnDisk.descriptor, ← hsb.firstDataBlock_eq, ← hsb.blockSize_eq, ← hsb.descriptorSize_eq]
  rfl

theorem descriptor_fits {g : Nat} (h : g < sb.groupCount) :
    g * sb.descriptorSize + sb.descriptorSize ≤ sb.groupCount * sb.descriptorSize := by
  rw [← Nat.succ_mul]
  exact Nat.mul_le_mul_right _ h

/-- The descriptors that are read are those of which the image has the first 32 bytes. -/
theorem Describes.lt_readable_iff (hsb : sb.Describes image) {g : Nat} (h : g < sb.groupCount) :
    g < sb.readableDescriptors (sb.tableOf image).size ↔
      OnDisk.descriptor image g + 32 ≤ image.size := by
  have hsize := hsb.descriptorSize_ge
  have hfits := descriptor_fits h
  rw [lt_readableDescriptors (by omega), hsb.descriptor_eq, tableOf, size_slice]
  omega

theorem Describes.le32_table (hsb : sb.Describes image) {g i : Nat} (hg : g < sb.groupCount)
    (hi : i + 4 ≤ sb.descriptorSize) :
    le32 (sb.tableOf image) (g * sb.descriptorSize + i) =
      le32 image (OnDisk.descriptor image g + i) := by
  have hfits := descriptor_fits hg
  rw [hsb.descriptor_eq, tableOf, le32_slice (by omega), Nat.add_assoc]

theorem Describes.le16_table (hsb : sb.Describes image) {g i : Nat} (hg : g < sb.groupCount)
    (hi : i + 2 ≤ sb.descriptorSize) :
    le16 (sb.tableOf image) (g * sb.descriptorSize + i) =
      le16 image (OnDisk.descriptor image g + i) := by
  have hfits := descriptor_fits hg
  rw [hsb.descriptor_eq, tableOf, le16_slice (by omega), Nat.add_assoc]

/-- The block number in the descriptor at `offset` of the table, with its upper half where
descriptors have one. -/
def blockNumber (sb : Superblock) (table : ByteArray) (offset : Nat) : Nat :=
  le32 table offset + (if sb.wideDescriptors then 0x100000000 * le32 table (offset + 32) else 0)

/-- What a descriptor says, unless the upper half of its block number is cut. -/
theorem bitmapBlock?_eq (sb : Superblock) (table : ByteArray) (offset : Nat) :
    sb.bitmapBlock? table offset =
      if sb.wideDescriptors ∧ table.size < offset + 36 then
        .error (.descriptorCut (offset + 32) table.size)
      else .ok <|
        if sb.blockNumber table offset = 0 ∨
            (sb.honoursUninit ∧ (le16 table (offset + 18)).testBit 1) then none
        else some (sb.blockNumber table offset) := by
  rw [bitmapBlock?, blockNumber]
  cases sb.wideDescriptors with
  | false =>
    simp only [Bool.not_false, if_true, Bool.false_eq_true, false_and, if_false]
    exact (apply_ite Except.ok ..).symm
  | true =>
    by_cases hcut : table.size < offset + 36
    · simp only [Bool.not_true, Bool.false_eq_true, hcut, and_self, if_true, if_false]
      rfl
    · simp only [Bool.not_true, Bool.false_eq_true, hcut, and_false, if_true, if_false]
      exact (apply_ite Except.ok ..).symm

/-- A descriptor of the table names the block that the image names, upper half and all. -/
theorem Describes.bitmapBlock?_eq (hsb : sb.Describes image) {g : Nat} (hg : g < sb.groupCount) :
    sb.bitmapBlock? (sb.tableOf image) (g * sb.descriptorSize) =
      if sb.wideDescriptors ∧ (sb.tableOf image).size < g * sb.descriptorSize + 36 then
        .error (.descriptorCut (g * sb.descriptorSize + 32) (sb.tableOf image).size)
      else .ok <|
        if OnDisk.bitmapBlock image g = 0 ∨ OnDisk.isUninit image g then none
        else some (OnDisk.bitmapBlock image g) := by
  have hsize := hsb.descriptorSize_ge
  have hlow := hsb.le32_table hg (i := 0) (by omega)
  rw [Nat.add_zero, Nat.add_zero] at hlow
  -- A descriptor with an upper half has at least 64 bytes, so the half belongs to it.
  have hnamed : sb.blockNumber (sb.tableOf image) (g * sb.descriptorSize) =
      OnDisk.bitmapBlock image g := by
    rw [blockNumber, OnDisk.bitmapBlock, hlow, ← hsb.wideDescriptors_eq]
    by_cases hwide : sb.wideDescriptors
    · have hwide64 := (Bool.and_eq_true_iff.1 (hsb.wideDescriptors_eq ▸ hwide)).2
      rw [decide_eq_true_eq, ← hsb.descriptorSize_eq] at hwide64
      rw [if_pos hwide, if_pos hwide, hsb.le32_table hg (by omega)]
    · rw [if_neg hwide, if_neg hwide]
  rw [Superblock.bitmapBlock?_eq, hnamed, hsb.honoursUninit_eq, hsb.le16_table hg (by omega)]
  simp only [OnDisk.isUninit, Bool.and_eq_true]

/-! ## The bitmap of one group -/

theorem Describes.groupBitmap_eq (hsb : sb.Describes image) {g : Nat} (hg : g < sb.groupCount) :
    sb.groupBitmap image access (sb.tableOf image) (g * sb.descriptorSize) =
      if sb.wideDescriptors ∧ (sb.tableOf image).size < g * sb.descriptorSize + 36 then
        .error (.descriptorCut (g * sb.descriptorSize + 32) (sb.tableOf image).size)
      else if OnDisk.bitmapBlock image g = 0 ∨ OnDisk.isUninit image g then .ok .empty
      else readAt image access (OnDisk.bitmapBlock image g * sb.blockSize)
        (min sb.groupBytes sb.blockSize) := by
  rw [groupBitmap, hsb.bitmapBlock?_eq hg]
  split
  · rfl
  · split <;> rfl

theorem Describes.groupBitmap_eq_ok (hsb : sb.Describes image) {g : Nat} {bits : ByteArray}
    (hg : g < sb.groupCount)
    (h : sb.groupBitmap image access (sb.tableOf image) (g * sb.descriptorSize) = .ok bits) :
    bits = if OnDisk.bitmapBlock image g = 0 ∨ OnDisk.isUninit image g then .empty
      else slice image (OnDisk.bitmapBlock image g * sb.blockSize)
        (OnDisk.bitmapBlock image g * sb.blockSize + min sb.groupBytes sb.blockSize) := by
  rw [hsb.groupBitmap_eq hg] at h
  split at h
  · cases h
  · split at h
    · next hnone => rw [if_pos hnone, Except.ok.inj h]
    · next hsome => rw [if_neg hsome, readAt_eq_ok h]

theorem Describes.size_groupBitmap_le (hsb : sb.Describes image) {g : Nat} {bits : ByteArray}
    (hg : g < sb.groupCount)
    (h : sb.groupBitmap image access (sb.tableOf image) (g * sb.descriptorSize) = .ok bits) :
    bits.size ≤ sb.groupBytes := by
  rw [hsb.groupBitmap_eq_ok hg h]
  split
  · exact Nat.zero_le _
  · rw [size_slice]
    omega

theorem not_marks_of_none {g r : Nat}
    (hnone : OnDisk.bitmapBlock image g = 0 ∨ OnDisk.isUninit image g) :
    ¬ OnDisk.Marks image g r := by
  intro hmarks
  cases hnone with
  | inl hzero => exact hmarks.assigned hzero
  | inr huninit => exact absurd huninit (Bool.eq_false_iff.1 hmarks.initialised)

/-- The bitmap of a group has the bits that the image marks. -/
theorem Describes.bitAt_groupBitmap (hsb : sb.Describes image) {g : Nat} {bits : ByteArray}
    (hg : g < sb.groupCount) (hread : OnDisk.descriptor image g + 32 ≤ image.size)
    (h : sb.groupBitmap image access (sb.tableOf image) (g * sb.descriptorSize) = .ok bits)
    {r : Nat} (hr : r < sb.blocksPerGroup) : bitAt bits r = true ↔ OnDisk.Marks image g r := by
  rw [hsb.groupBitmap_eq_ok hg h]
  by_cases hnone : OnDisk.bitmapBlock image g = 0 ∨ OnDisk.isUninit image g
  · rw [if_pos hnone, bitAt_of_le (Nat.zero_le _)]
    exact ⟨nofun, fun hmarks => absurd hmarks (not_marks_of_none hnone)⟩
  · rw [if_neg hnone]
    have hbytes := hsb.eight_mul_groupBytes
    have hplace : OnDisk.byteOf image g r =
        OnDisk.bitmapBlock image g * sb.blockSize + r / 8 := by
      rw [OnDisk.byteOf, hsb.blockSize_eq]
    constructor
    · intro hbit
      -- A bit that is set is there, which bounds its place in the block and in the image.
      have hlt := lt_of_bitAt hbit
      rw [size_slice] at hlt
      rw [bitAt, octet_slice (by omega), ← hplace] at hbit
      exact
        { described := hread
          assigned := fun hzero => hnone (.inl hzero)
          initialised := Bool.eq_false_iff.2 fun huninit => hnone (.inr huninit)
          within := by rw [← hsb.blockSize_eq]; omega
          present := by omega
          set := hbit }
    · intro hmarks
      have hwithin := hmarks.within
      rw [← hsb.blockSize_eq] at hwithin
      rw [bitAt, octet_slice (by omega), ← hplace]
      exact hmarks.set

/-! ## All bitmaps, one behind the other -/

/-- The bitmap has the bits of the first `n` groups, as the image marks them, and no others. -/
structure Covers (sb : Superblock) (image : ByteArray) (n : Nat) (bitmap : ByteArray) : Prop where
  size_eq : bitmap.size = n * sb.groupBytes
  bit_iff : ∀ g < n, ∀ r < sb.blocksPerGroup,
    bitAt bitmap (g * sb.blocksPerGroup + r) = true ↔ OnDisk.Marks image g r

theorem covers_empty : sb.Covers image 0 .empty where
  size_eq := (Nat.zero_mul _).symm
  bit_iff := fun _ hg => absurd hg (Nat.not_lt_zero _)

theorem Covers.eight_mul_size (hsb : sb.Describes image) {n : Nat} {bitmap : ByteArray}
    (hcovers : sb.Covers image n bitmap) : 8 * bitmap.size = n * sb.blocksPerGroup := by
  rw [hcovers.size_eq, Nat.mul_left_comm, hsb.eight_mul_groupBytes]

/-- Once all groups are covered, so is every data block, counted from the first one. -/
theorem Covers.bit_iff_of_lt (hsb : sb.Describes image) {bitmap : ByteArray}
    (hcovers : sb.Covers image sb.groupCount bitmap) {i : Nat} (hi : i < sb.dataBlocks) :
    i < 8 * bitmap.size ∧
      (bitAt bitmap i = true ↔
        OnDisk.Marks image (i / sb.blocksPerGroup) (i % sb.blocksPerGroup)) := by
  have hg := hsb.group_lt hi
  have hr := Nat.mod_lt i hsb.blocksPerGroup_pos
  have hsplit := Nat.div_add_mod' i sb.blocksPerGroup
  constructor
  · have hwhole := Nat.mul_le_mul_right sb.blocksPerGroup (Nat.succ_le_of_lt hg)
    rw [Nat.succ_mul] at hwhole
    rw [hcovers.eight_mul_size hsb]
    omega
  · have hiff := hcovers.bit_iff _ hg _ hr
    rwa [hsplit] at hiff

/-- One more group, its bitmap put behind the others and filled up with zeros. -/
theorem Covers.append (hsb : sb.Describes image) {n : Nat} {bitmap bits : ByteArray}
    (hcovers : sb.Covers image n bitmap) (hsize : bits.size ≤ sb.groupBytes)
    (hbits : ∀ r < sb.blocksPerGroup, bitAt bits r = true ↔ OnDisk.Marks image n r) :
    sb.Covers image (n + 1) (padZeros (sb.groupBytes - bits.size) (bitmap ++ bits)) where
  size_eq := by
    rw [size_padZeros, ByteArray.size_append, hcovers.size_eq, Nat.succ_mul]
    omega
  bit_iff := by
    intro g hg r hr
    have hbefore := hcovers.eight_mul_size hsb
    rw [bitAt_padZeros]
    by_cases hlast : g = n
    · subst hlast
      rw [← hbefore, bitAt_append_right]
      exact hbits r hr
    · -- An earlier group ends at or before the old end, so its bits stay where they were.
      have hwhole : (g + 1) * sb.blocksPerGroup ≤ n * sb.blocksPerGroup :=
        Nat.mul_le_mul_right _ (by omega)
      rw [Nat.succ_mul] at hwhole
      rw [bitAt_append_left (by omega)]
      exact hcovers.bit_iff g (by omega) r hr

/-! ### The survey -/

theorem surveyGroup_eq (sb : Superblock) (image : ByteArray) (access : ImageAccess)
    (table : ByteArray) (s : Survey) (g : Nat) :
    sb.surveyGroup image access table s g =
      (sb.groupBitmap image access table (g * sb.descriptorSize)).map fun bits =>
        { bitmap := padZeros (sb.groupBytes - bits.size) (s.bitmap ++ bits)
          used := s.used + countBits bits (sb.blocksInGroup g) } := by
  rw [surveyGroup]
  cases sb.groupBitmap image access table (g * sb.descriptorSize) <;> rfl

theorem survey_succ (sb : Superblock) (image : ByteArray) (access : ImageAccess)
    (table : ByteArray) (n : Nat) :
    (List.range (n + 1)).foldlM (sb.surveyGroup image access table) {} =
      (List.range n).foldlM (sb.surveyGroup image access table) {} >>= fun s =>
        sb.surveyGroup image access table s n := by
  rw [List.range_succ, List.foldlM_append]
  simp only [List.foldlM_cons, List.foldlM_nil, bind_pure]

/-- A survey that comes to its end has that of the groups in front of the last one, and the bitmap of
the last one. -/
theorem survey_succ_eq_ok {n : Nat} {s : Survey}
    (h : (List.range (n + 1)).foldlM (sb.surveyGroup image access table) {} = .ok s) :
    ∃ before bits, (List.range n).foldlM (sb.surveyGroup image access table) {} = .ok before ∧
      sb.groupBitmap image access table (n * sb.descriptorSize) = .ok bits ∧
      s = { bitmap := padZeros (sb.groupBytes - bits.size) (before.bitmap ++ bits)
            used := before.used + countBits bits (sb.blocksInGroup n) } := by
  rw [survey_succ] at h
  cases hbefore : (List.range n).foldlM (sb.surveyGroup image access table) {} with
  | error fault =>
    rw [hbefore] at h
    cases h
  | ok before =>
    rw [hbefore] at h
    change sb.surveyGroup image access table before n = .ok s at h
    rw [surveyGroup_eq] at h
    cases hbits : sb.groupBitmap image access table (n * sb.descriptorSize) with
    | error fault =>
      rw [hbits] at h
      cases h
    | ok bits =>
      rw [hbits] at h
      exact ⟨before, bits, rfl, rfl, (Except.ok.inj h).symm⟩

/-- The survey of the first `n` descriptors covers the first `n` groups. -/
theorem survey_covers (hsb : sb.Describes image) {n : Nat} {s : Survey}
    (hn : n ≤ sb.readableDescriptors (sb.tableOf image).size)
    (hrun : (List.range n).foldlM (sb.surveyGroup image access (sb.tableOf image)) {} = .ok s) :
    sb.Covers image n s.bitmap := by
  induction n generalizing s with
  | zero =>
    obtain rfl := Except.ok.inj hrun
    exact covers_empty
  | succ n ih =>
    obtain ⟨before, bits, hbefore, hbits, rfl⟩ := survey_succ_eq_ok hrun
    have hsize := hsb.descriptorSize_ge
    have hgroup := ((lt_readableDescriptors (by omega)).1 (Nat.lt_of_succ_le hn)).1
    apply (ih (by omega) hbefore).append hsb (hsb.size_groupBitmap_le hgroup hbits)
    intro r hr
    exact hsb.bitAt_groupBitmap hgroup ((hsb.lt_readable_iff hgroup).1 hn) hbits hr

/-- Zeros for the groups without a readable descriptor: the image marks none of their blocks. -/
theorem Covers.fill (hsb : sb.Describes image) {bitmap : ByteArray}
    (hcovers : sb.Covers image (sb.readableDescriptors (sb.tableOf image).size) bitmap) :
    sb.Covers image sb.groupCount
      (padZeros ((sb.groupCount - sb.readableDescriptors (sb.tableOf image).size) * sb.groupBytes)
        bitmap) where
  size_eq := by
    have hle := sb.readableDescriptors_le (sb.tableOf image).size
    rw [size_padZeros, hcovers.size_eq, ← Nat.add_mul, Nat.add_sub_of_le hle]
  bit_iff := by
    intro g hg r hr
    rw [bitAt_padZeros]
    by_cases hread : g < sb.readableDescriptors (sb.tableOf image).size
    · exact hcovers.bit_iff g hread r hr
    · constructor
      · intro hbit
        -- A bit of this group would lie behind the bits that the survey has.
        have hlt := lt_of_bitAt hbit
        have hwhole := Nat.mul_le_mul_right sb.blocksPerGroup (Nat.le_of_not_lt hread)
        rw [hcovers.eight_mul_size hsb] at hlt
        omega
      · intro hmarks
        exact absurd ((hsb.lt_readable_iff hg).2 hmarks.described) hread

/-- An allocation is made of a survey of all descriptors that can be read. -/
theorem exists_survey_of_allocation {a : ExtBlockMap} (h : sb.allocation image access = .ok a) :
    ∃ s, (List.range (sb.readableDescriptors (sb.tableOf image).size)).foldlM
        (sb.surveyGroup image access (sb.tableOf image)) {} = .ok s ∧
      a = { fsType := sb.kind.name, blockSize := sb.blockSize, totalBlocks := sb.totalBlocks
            firstDataBlock := sb.firstDataBlock, blocksPerGroup := sb.blocksPerGroup
            freeBlocks := (sb.dataBlocks : Int) - s.used
            bitmap := padZeros ((sb.groupCount -
              sb.readableDescriptors (sb.tableOf image).size) * sb.groupBytes) s.bitmap } := by
  rw [allocation] at h
  cases htable :
      readAt image access sb.descriptorTable (sb.groupCount * sb.descriptorSize) with
  | error fault =>
    rw [htable] at h
    cases h
  | ok table =>
    obtain rfl : table = sb.tableOf image := readAt_eq_ok htable
    rw [htable] at h
    cases hsurvey : (List.range (sb.readableDescriptors (sb.tableOf image).size)).foldlM
        (sb.surveyGroup image access (sb.tableOf image)) {} with
    | error fault =>
      simp only [bind, Except.bind, hsurvey] at h
      cases h
    | ok survey =>
      simp only [bind, Except.bind, hsurvey] at h
      exact ⟨survey, rfl, (Except.ok.inj h).symm⟩

/-- The allocation of a file system covers all of its groups. -/
theorem allocation_eq_ok (hsb : sb.Describes image) {a : ExtBlockMap}
    (h : sb.allocation image access = .ok a) :
    a.blockSize = sb.blockSize ∧ a.totalBlocks = sb.totalBlocks ∧
      a.firstDataBlock = sb.firstDataBlock ∧ a.blocksPerGroup = sb.blocksPerGroup ∧
      sb.Covers image sb.groupCount a.bitmap := by
  obtain ⟨survey, hsurvey, rfl⟩ := exists_survey_of_allocation h
  exact ⟨rfl, rfl, rfl, rfl, (survey_covers hsb (Nat.le_refl _) hsurvey).fill hsb⟩

end Superblock

end RegionSalvage
