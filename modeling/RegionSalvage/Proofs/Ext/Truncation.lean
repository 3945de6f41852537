import RegionSalvage.Proofs.Ext.Allocation

/-! # Images that end early

An image in memory may end anywhere.  Groups whose descriptors are not there are free, and so is the
part of a bitmap that is missing; but where the image ends inside the upper half of a block number,
there is no allocation at all, however many groups come before (`ofImage?_of_truncated`).
-/

namespace RegionSalvage

namespace OnDisk

variable {image : ByteArray} {g : Nat}

/-- The image has all that says where the bitmap of group `g` is. -/
def Located (image : ByteArray) (g : Nat) : Prop :=
  descriptor image g + (if is64Bit image && 64 ≤ descriptorSize image then 36 else 32) ≤ image.size

theorem located_iff (h : ¬ Halved image g) (hg : g < groupCount image) :
    Located image g ↔ descriptor image g + 32 ≤ image.size := by
  unfold Located
  split
  · next hwide =>
    refine ⟨fun hlocated => by omega, fun hdescribed => ?_⟩
    apply Nat.le_of_not_lt
    exact fun hlt => h ⟨hg, hwide, hdescribed, hlt⟩
  · exact Iff.rfl

theorem descriptor_add_le (image : ByteArray) {g' : Nat} (h : g' < g) :
    descriptor image g' + descriptorSize image ≤ descriptor image g := by
  have hmul := Nat.mul_le_mul_right (descriptorSize image) (Nat.succ_le_of_lt h)
  rw [Nat.succ_mul] at hmul
  unfold descriptor
  omega

/-- The image ends only once. -/
theorem Halved.descriptor_le (h : Halved image g) {g' : Nat} (hlt : g' < g) :
    descriptor image g' + 64 ≤ image.size := by
  have hbefore := descriptor_add_le image hlt
  have hwide64 := of_decide_eq_true (Bool.and_eq_true_iff.1 h.wide).2
  have hdescribed := h.described
  omega

end OnDisk

namespace Superblock

variable {sb : Superblock} {image table : ByteArray} {access : ImageAccess}

/-- A survey ends at the first bitmap that cannot be read. -/
theorem survey_eq_error {n g : Nat} {fault : BitmapFault} (hg : g < n)
    (hbefore : ∀ g' < g, ∃ bits,
      sb.groupBitmap image access table (g' * sb.descriptorSize) = .ok bits)
    (hfault : sb.groupBitmap image access table (g * sb.descriptorSize) = .error fault) :
    (List.range n).foldlM (sb.surveyGroup image access table) {} = .error fault := by
  induction n with
  | zero => exact absurd hg (Nat.not_lt_zero g)
  | succ n ih =>
    rw [survey_succ]
    obtain hlt | rfl := Nat.lt_succ_iff_lt_or_eq.1 hg
    · rw [ih hlt]
      rfl
    · obtain ⟨before, hrun⟩ := exists_survey_iff.2 hbefore
      rw [hrun]
      change sb.surveyGroup image access table before g = _
      rw [surveyGroup_eq, hfault]
      rfl

theorem Describes.allocation_of_halved (hsb : sb.Describes image) {g : Nat}
    (h : OnDisk.Halved image g) :
    sb.allocation image .mapped = .error
      (.descriptorCut (g * OnDisk.descriptorSize image + 32)
        (image.size - OnDisk.descriptor image 0)) := by
  -- The groups in front have whole descriptors, so the survey comes as far as group `g`.
  have hgroup {g' : Nat} (hle : g' ≤ g) : g' < sb.groupCount :=
    hsb.groupCount_eq ▸ Nat.lt_of_le_of_lt hle h.group_lt
  have hread {g' : Nat} (hle : g' ≤ g) : g' < sb.readableDescriptors (sb.tableOf image).size := by
    refine (hsb.lt_readable_iff (hgroup hle)).2 ?_
    obtain rfl | hlt := Nat.eq_or_lt_of_le hle
    · exact h.described
    · have := h.descriptor_le hlt
      omega
  have hsurvey : (List.range (sb.readableDescriptors (sb.tableOf image).size)).foldlM
      (sb.surveyGroup image .mapped (sb.tableOf image)) {} =
        .error (.descriptorCut (g * sb.descriptorSize + 32) (sb.tableOf image).size) := by
    apply survey_eq_error (hread (Nat.le_refl g))
    · intro g' hlt
      refine (hsb.exists_groupBitmap_iff (hread (Nat.le_of_lt hlt))).2 ⟨fun h' => ?_, ?_⟩
      · have hlong := h.descriptor_le hlt
        have hshort := h'.size_lt
        omega
      · exact fun _ _ => trivial
    · rw [hsb.groupBitmap_eq (hgroup (Nat.le_refl g)),
        if_pos ((hsb.halved_iff (hread (Nat.le_refl g))).1 h)]
  have htable : readAt image .mapped sb.descriptorTable (sb.groupCount * sb.descriptorSize) =
    .ok (sb.tableOf image) := rfl
  -- The table is cut by the end of the image, not by its own last group.
  have hsize : (sb.tableOf image).size = image.size - OnDisk.descriptor image 0 := by
    have hfits := descriptor_fits (hgroup (Nat.le_refl g))
    have hstart := hsb.descriptor_eq 0
    have hdescriptor := hsb.descriptor_eq g
    have hwide64 := of_decide_eq_true (Bool.and_eq_true_iff.1 h.wide).2
    have hlt := h.size_lt
    rw [← hsb.descriptorSize_eq] at hwide64
    rw [tableOf, size_slice, hstart, Nat.zero_mul]
    omega
  rw [allocation, htable]
  simp only [bind, Except.bind, hsurvey]
  rw [hsize, hsb.descriptorSize_eq]

end Superblock

namespace ExtBlockMap

variable {image : ByteArray}

theorem ofImage?_of_halved (h : OnDisk.Plausible image) {g : Nat} (hg : OnDisk.Halved image g) :
    ofImage? image .mapped = .error (.descriptorCut (g * OnDisk.descriptorSize image + 32)
      (image.size - OnDisk.descriptor image 0)) := by
  obtain ⟨sb, hsb, hallocation⟩ := exists_ofImage?_eq .mapped h
  rw [hallocation, hsb.allocation_of_halved hg]
  rfl

/-- Data block `i`, counted from the first one, has its group and the answer that the image gives. -/
theorem isAllocated?_of_lt {access : ImageAccess} {a : ExtBlockMap}
    (h : ofImage? image access = .ok (some a)) {i : Nat}
    (hi : i < OnDisk.totalBlocks image - OnDisk.firstDataBlock image) :
    i / OnDisk.blocksPerGroup image < OnDisk.groupCount image ∧
      ∃ used, a.isAllocated? (OnDisk.firstDataBlock image + i) = some used ∧
        (used = true ↔ OnDisk.Marks image (i / OnDisk.blocksPerGroup image)
          (i % OnDisk.blocksPerGroup image)) := by
  obtain ⟨sb, hsb, hallocation⟩ := ofImage?_eq_ok h
  obtain ⟨-, htotal, hfirst, -, hcovers⟩ := Superblock.allocation_eq_ok hsb hallocation
  rw [hsb.totalBlocks_eq] at htotal
  rw [hsb.firstDataBlock_eq] at hfirst
  have hdata : i < sb.dataBlocks := by
    rwa [Superblock.dataBlocks, hsb.totalBlocks_eq, hsb.firstDataBlock_eq]
  obtain ⟨hthere, hiff⟩ := hcovers.bit_iff_of_lt hsb hdata
  have hg := hsb.group_lt hdata
  rw [hsb.blocksPerGroup_eq] at hiff hg
  rw [hsb.groupCount_eq] at hg
  refine ⟨hg, bitAt a.bitmap i, ?_, hiff⟩
  have hindex : ((OnDisk.firstDataBlock image + i : Int) - a.firstDataBlock).toNat = i := by omega
  rw [isAllocated?, if_neg (by omega), hindex]
  exact if_pos hthere

/-- Of what is left of an image in memory there is no allocation, because it is no ext image or its
geometry is implausible; or there is one, in which a group whose bitmap cannot be found is free; or
the image ends inside the upper half of a block number. -/
theorem ofImage?_of_truncated (image : ByteArray) :
    ¬ OnDisk.Plausible image ∧ ofImage? image .mapped = .ok none ∨
      OnDisk.Plausible image ∧ (∀ g, ¬ OnDisk.Halved image g) ∧
        (∃ a, ofImage? image .mapped = .ok (some a) ∧
          ∀ i < OnDisk.totalBlocks image - OnDisk.firstDataBlock image,
            let g := i / OnDisk.blocksPerGroup image
            let r := i % OnDisk.blocksPerGroup image
            ∃ used, a.isAllocated? (OnDisk.firstDataBlock image + i) = some used ∧
              (used = true ↔ OnDisk.Located image g ∧ OnDisk.Marks image g r)) ∨
      OnDisk.Plausible image ∧ ∃ g, OnDisk.Halved image g ∧
        ofImage? image .mapped = .error (.descriptorCut (g * OnDisk.descriptorSize image + 32)
          (image.size - OnDisk.descriptor image 0)) := by
  by_cases hgeometry : OnDisk.Plausible image
  · by_cases hhalved : ∃ g, OnDisk.Halved image g
    · obtain ⟨g, hg⟩ := hhalved
      exact .inr (.inr ⟨hgeometry, g, hg, ofImage?_of_halved hgeometry hg⟩)
    · have hwhole (g : Nat) : ¬ OnDisk.Halved image g := fun hg => hhalved ⟨g, hg⟩
      refine .inr (.inl ⟨hgeometry, hwhole, ?_⟩)
      -- Through a memory map nothing is out of reach, so no other descriptor stands in the way.
      obtain ⟨a, ha⟩ := exists_ofImage?_iff.2
        { geometry := hgeometry
          table := trivial
          not_halved := hwhole
          bitmap := fun _ _ _ _ _ => trivial : OnDisk.Readable image .mapped }
      refine ⟨a, ha, fun i hi => ?_⟩
      obtain ⟨hg, used, hused, hiff⟩ := isAllocated?_of_lt ha hi
      refine ⟨used, hused, ?_⟩
      rw [hiff, OnDisk.located_iff (hwhole _) hg]
      exact ⟨fun hmarks => ⟨hmarks.described, hmarks⟩, And.right⟩
  · exact .inl ⟨hgeometry, ofImage?_eq_none hgeometry⟩

/-- A file system of one group with 64-bit descriptors, whose image ends behind the first 32 bytes of
the descriptor. -/
def halvedImage : ByteArray := sparse 2080
  [(1028, 9), (1044, 1), (1056, 8), (1080, 0x53), (1081, 0xEF), (1120, 0x80), (1278, 64), (2048, 3)]

theorem ofImage?_halvedImage : ofImage? halvedImage .mapped = .error (.descriptorCut 32 32) := by
  have hsize : halvedImage.size = 2080 := size_sparse ..
  have hwide : OnDisk.is64Bit halvedImage = true := by
    rw [OnDisk.is64Bit, halvedImage, le32_sparse]
    decide
  have hextended : OnDisk.isExtended halvedImage = true := by
    rw [OnDisk.isExtended, hwide, hsize]
    decide
  have htotal : OnDisk.totalBlocks halvedImage = 9 := by
    rw [OnDisk.totalBlocks, hextended, halvedImage, le32_sparse, le32_sparse]
    decide
  have hfirst : OnDisk.firstDataBlock halvedImage = 1 := by
    rw [OnDisk.firstDataBlock, halvedImage, le32_sparse]
    decide
  have hgroup : OnDisk.blocksPerGroup halvedImage = 8 := by
    rw [OnDisk.blocksPerGroup, halvedImage, le32_sparse]
    decide
  have hdescriptor : OnDisk.descriptorSize halvedImage = 64 := by
    rw [OnDisk.descriptorSize, hextended, halvedImage, le16_sparse]
    decide
  have htable : OnDisk.descriptor halvedImage 0 = 2048 := by
    rw [OnDisk.descriptor, OnDisk.blockSize, hfirst, Nat.zero_mul, halvedImage, le32_sparse]
    decide
  have hgeometry : OnDisk.Plausible halvedImage :=
    { size_ge := by rw [hsize]; decide
      magic := by rw [halvedImage, le16_sparse]; decide
      exponent_le := by rw [halvedImage, le32_sparse]; decide
      blocksPerGroup_pos := by rw [hgroup]; decide
      dvd_blocksPerGroup := Nat.dvd_of_mod_eq_zero (by rw [hgroup])
      firstDataBlock_lt := by rw [hfirst, htotal]; decide }
  -- The image ends behind the first 32 bytes of a descriptor of 64.
  have hhalved : OnDisk.Halved halvedImage 0 :=
    { group_lt := by rw [OnDisk.groupCount, htotal, hfirst, hgroup]; decide
      wide := by rw [hwide, hdescriptor]; decide
      described := Nat.le_of_eq (by rw [htable, hsize])
      size_lt := by rw [htable, hsize]; decide }
  rw [ofImage?_of_halved hgeometry hhalved, hdescriptor, htable, hsize]

end ExtBlockMap

end RegionSalvage
