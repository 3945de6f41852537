import RegionSalvage.Proofs.Ext.Bitmap

/-! # Which images have an allocation

What has to be true of an image for its bitmaps to be read is said on the image itself
(`OnDisk.Readable`): its superblock is plausible, its table and its bitmaps are within reach, and it
does not end inside the upper half of the block number in a descriptor.  There is an allocation just
for the readable images (`exists_ofImage?_iff`).
-/

namespace RegionSalvage

/-- The offsets that can be read from. -/
def ImageAccess.Reaches : (access : ImageAccess) → (offset : Nat) → Prop
  | .mapped, _ => True
  | .seeking largest, offset => offset ≤ largest ∧ offset < seekLimit

namespace OnDisk

variable (image : ByteArray)

def groupCount : Nat :=
  (totalBlocks image - firstDataBlock image + blocksPerGroup image - 1) / blocksPerGroup image

/-- The image ends inside the upper half of the block number in the descriptor of group `g`. -/
structure Halved (g : Nat) : Prop where
  group_lt : g < groupCount image
  wide : is64Bit image && 64 ≤ descriptorSize image
  described : descriptor image g + 32 ≤ image.size
  size_lt : image.size < descriptor image g + 36

/-- The bitmaps of the image can be read. -/
structure Readable (access : ImageAccess) : Prop where
  geometry : Plausible image
  table : access.Reaches (descriptor image 0)
  not_halved : ∀ g, ¬ Halved image g
  bitmap : ∀ g < groupCount image, descriptor image g + 32 ≤ image.size →
    bitmapBlock image g ≠ 0 → isUninit image g = false →
      access.Reaches (bitmapBlock image g * blockSize image)

end OnDisk

theorem exists_readAt_iff (image : ByteArray) {access : ImageAccess} {offset : Nat} (count : Nat) :
    (∃ bytes, readAt image access offset count = .ok bytes) ↔ access.Reaches offset := by
  cases access with
  | mapped => exact ⟨fun _ => trivial, fun _ => ⟨_, rfl⟩⟩
  | seeking largest =>
    simp only [readAt, ImageAccess.Reaches]
    split
    · constructor
      · rintro ⟨_, hbytes⟩
        cases hbytes
      · omega
    · split
      · constructor
        · rintro ⟨_, hbytes⟩
          cases hbytes
        · omega
      · exact ⟨fun _ => by omega, fun _ => ⟨_, rfl⟩⟩

namespace Superblock

variable {sb : Superblock} {image table : ByteArray} {access : ImageAccess}

theorem Describes.groupCount_eq (hsb : sb.Describes image) :
    sb.groupCount = OnDisk.groupCount image := by
  rw [groupCount, dataBlocks, OnDisk.groupCount, hsb.totalBlocks_eq, hsb.firstDataBlock_eq,
    hsb.blocksPerGroup_eq]

/-! ## One group -/

/-- Where a descriptor has an upper half, the table ends inside it just when the image does. -/
theorem Describes.halved_iff (hsb : sb.Describes image) {g : Nat}
    (hread : g < sb.readableDescriptors (sb.tableOf image).size) :
    OnDisk.Halved image g ↔
      sb.wideDescriptors ∧ (sb.tableOf image).size < g * sb.descriptorSize + 36 := by
  have hsize := hsb.descriptorSize_ge
  have hg := ((lt_readableDescriptors (by omega)).1 hread).1
  have hdescribed := (hsb.lt_readable_iff hg).1 hread
  have hfits := descriptor_fits hg
  have hdescriptor := hsb.descriptor_eq g
  rw [hsb.wideDescriptors_eq, tableOf, size_slice]
  -- A wide descriptor has 64 bytes, so the table goes beyond its first 36 unless the image ends.
  constructor
  · intro hhalved
    have hlt := hhalved.size_lt
    exact ⟨hhalved.wide, by omega⟩
  · rintro ⟨hwide, hlt⟩
    have hwide64 := of_decide_eq_true (Bool.and_eq_true_iff.1 hwide).2
    rw [← hsb.descriptorSize_eq] at hwide64
    exact
      { group_lt := hsb.groupCount_eq ▸ hg
        wide := hwide
        described := hdescribed
        size_lt := by omega }

theorem Describes.exists_groupBitmap_iff (hsb : sb.Describes image) {g : Nat}
    (hread : g < sb.readableDescriptors (sb.tableOf image).size) :
    (∃ bits, sb.groupBitmap image access (sb.tableOf image) (g * sb.descriptorSize) = .ok bits) ↔
      ¬ OnDisk.Halved image g ∧
        (OnDisk.bitmapBlock image g ≠ 0 → OnDisk.isUninit image g = false →
          access.Reaches (OnDisk.bitmapBlock image g * OnDisk.blockSize image)) := by
  have hsize := hsb.descriptorSize_ge
  have hg := ((lt_readableDescriptors (by omega)).1 hread).1
  rw [hsb.groupBitmap_eq hg, hsb.halved_iff hread, ← hsb.blockSize_eq]
  -- A descriptor that is cut has no answer; one that names no bitmap needs no seek.
  split
  · next hhalved => exact ⟨nofun, fun h => absurd hhalved h.1⟩
  · next hwhole =>
    split
    · next hnone =>
      refine ⟨fun _ => ⟨hwhole, fun hzero hinit => ?_⟩, fun _ => ⟨_, rfl⟩⟩
      obtain hnone | hnone := hnone
      · exact absurd hnone hzero
      · exact absurd hinit (by rw [hnone]; decide)
    · next hsome =>
      rw [exists_readAt_iff]
      refine ⟨fun hreach => ⟨hwhole, fun _ _ => hreach⟩, fun h => h.2 ?_ ?_⟩
      · exact fun hzero => hsome (.inl hzero)
      · exact Bool.eq_false_iff.2 fun huninit => hsome (.inr huninit)

/-! ## All groups -/

/-- A survey comes to its end just when each group's bitmap can be read. -/
theorem exists_survey_iff {n : Nat} :
    (∃ s, (List.range n).foldlM (sb.surveyGroup image access table) {} = .ok s) ↔
      ∀ g < n, ∃ bits, sb.groupBitmap image access table (g * sb.descriptorSize) = .ok bits := by
  induction n with
  | zero => exact ⟨fun _ g hg => absurd hg (Nat.not_lt_zero g), fun _ => ⟨_, rfl⟩⟩
  | succ n ih =>
    constructor
    · rintro ⟨s, hs⟩ g hg
      obtain ⟨before, bits, hbefore, hbits, -⟩ := survey_succ_eq_ok hs
      -- Group `g` is the one just added, or it is among those of the survey before.
      obtain hlt | rfl := Nat.lt_succ_iff_lt_or_eq.1 hg
      · exact ih.1 ⟨before, hbefore⟩ g hlt
      · exact ⟨bits, hbits⟩
    · intro hall
      obtain ⟨before, hbefore⟩ := ih.2 fun g hg => hall g (by omega)
      obtain ⟨bits, hbits⟩ := hall n (Nat.lt_succ_self n)
      rw [survey_succ, hbefore]
      change ∃ s, sb.surveyGroup image access table before n = .ok s
      rw [surveyGroup_eq, hbits]
      exact ⟨_, rfl⟩

theorem exists_allocation_iff :
    (∃ a, sb.allocation image access = .ok a) ↔
      access.Reaches sb.descriptorTable ∧
        ∀ g < sb.readableDescriptors (sb.tableOf image).size, ∃ bits,
          sb.groupBitmap image access (sb.tableOf image) (g * sb.descriptorSize) = .ok bits := by
  rw [allocation, ← exists_readAt_iff image (sb.groupCount * sb.descriptorSize),
    ← exists_survey_iff]
  -- Once the table and the bitmaps are read, nothing else can fail.
  cases htable :
      readAt image access sb.descriptorTable (sb.groupCount * sb.descriptorSize) with
  | error fault => simp only [bind, Except.bind, reduceCtorEq, exists_false, false_and]
  | ok table =>
    obtain rfl : table = sb.tableOf image := readAt_eq_ok htable
    simp only [bind, Except.bind]
    cases (List.range (sb.readableDescriptors (sb.tableOf image).size)).foldlM
        (sb.surveyGroup image access (sb.tableOf image)) {} with
    | error fault => simp only [reduceCtorEq, exists_false, and_false]
    | ok survey =>
      constructor
      · intro _
        exact ⟨⟨_, rfl⟩, _, rfl⟩
      · intro _
        exact ⟨_, rfl⟩

end Superblock

namespace ExtBlockMap

variable {image : ByteArray} {access : ImageAccess}

theorem ofImage?_eq_none (h : ¬ OnDisk.Plausible image) :
    ofImage? image access = .ok none := by
  rw [ofImage?]
  cases hsb : Superblock.ofHeader? (slice image 0 extHeaderSize) with
  | none => rfl
  | some sb => exact absurd (Superblock.ofHeader?_eq_some hsb).1 h

theorem exists_ofImage?_eq (access : ImageAccess) (h : OnDisk.Plausible image) :
    ∃ sb : Superblock, sb.Describes image ∧
      ofImage? image access = (sb.allocation image access).map some := by
  obtain ⟨kind, hheader⟩ := Superblock.exists_ofHeader? h
  refine ⟨_, Superblock.describes_ofImage h kind, ?_⟩
  rw [ofImage?, hheader]
  simp only
  cases (Superblock.ofImage image kind).allocation image access <;> rfl

/-- There is an allocation just for the readable images. -/
theorem exists_ofImage?_iff :
    (∃ a, ofImage? image access = .ok (some a)) ↔ OnDisk.Readable image access := by
  by_cases hgeometry : OnDisk.Plausible image
  · obtain ⟨sb, hsb, hallocation⟩ := exists_ofImage?_eq access hgeometry
    have hsize := hsb.descriptorSize_ge
    have hsome : (∃ a, ofImage? image access = .ok (some a)) ↔
        ∃ a, sb.allocation image access = .ok a := by
      rw [hallocation]
      cases sb.allocation image access with
      | error fault => exact ⟨nofun, nofun⟩
      | ok a => exact ⟨fun _ => ⟨_, rfl⟩, fun _ => ⟨_, rfl⟩⟩
    -- The table starts with the first descriptor.
    have hstart : sb.descriptorTable = OnDisk.descriptor image 0 := by
      rw [hsb.descriptor_eq, Nat.zero_mul, Nat.add_zero]
    rw [hsome, Superblock.exists_allocation_iff, hstart]
    constructor
    · rintro ⟨htable, hgroups⟩
      have hread {g : Nat} (hg : g < OnDisk.groupCount image)
          (hdescribed : OnDisk.descriptor image g + 32 ≤ image.size) :=
        (hsb.lt_readable_iff (hsb.groupCount_eq ▸ hg)).2 hdescribed
      exact
        { geometry := hgeometry
          table := htable
          not_halved := fun g hhalved =>
            have hlt := hread hhalved.group_lt hhalved.described
            ((hsb.exists_groupBitmap_iff hlt).1 (hgroups g hlt)).1 hhalved
          bitmap := fun g hg hdescribed =>
            have hlt := hread hg hdescribed
            ((hsb.exists_groupBitmap_iff hlt).1 (hgroups g hlt)).2 }
    · intro hreadable
      refine ⟨hreadable.table, fun g hlt => (hsb.exists_groupBitmap_iff hlt).2 ?_⟩
      have hg := ((Superblock.lt_readableDescriptors (by omega)).1 hlt).1
      exact ⟨hreadable.not_halved g, hreadable.bitmap g (hsb.groupCount_eq ▸ hg)
        ((hsb.lt_readable_iff hg).1 hlt)⟩
  · rw [ofImage?_eq_none hgeometry]
    exact ⟨nofun, fun hreadable => absurd hreadable.geometry hgeometry⟩

end ExtBlockMap

end RegionSalvage
