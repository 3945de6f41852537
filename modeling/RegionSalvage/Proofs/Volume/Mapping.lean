import RegionSalvage.Proofs.Ext.Reach
import RegionSalvage.Proofs.Volume.Selection

/-! # Opening ext images with and without a memory map

Where an image cannot be mapped into memory it is read by seeking.  That makes a difference only for
an image that names a place out of reach of a seek: through a map nothing is there, by seeking the
image is refused.  Beyond the offsets that there are, the refusal is not even one of the errors that
an image is refused with (`extImage_unmapped`).
-/

namespace RegionSalvage

theorem OnDisk.Plausible.size_ne_zero {image : ByteArray} (h : Plausible image) :
    (image.size != 0) = true := by
  have hsize := h.size_ge
  exact bne_iff_ne.2 (by omega)

/-- Through a memory map, there is no allocation only where the image ends inside a descriptor. -/
theorem ExtBlockMap.ofImage?_mapped_eq_error {image : ByteArray} {fault : BitmapFault}
    (h : ofImage? image .mapped = .error fault) :
    ∃ offset available, fault = .descriptorCut offset available := by
  by_cases hgeometry : OnDisk.Plausible image
  · by_cases hhalved : ∃ g, OnDisk.Halved image g
    · obtain ⟨g, hg⟩ := hhalved
      rw [ofImage?_of_halved hgeometry hg] at h
      exact ⟨_, _, (Except.error.inj h).symm⟩
    · obtain ⟨a, ha⟩ := exists_ofImage?_iff.2
        { geometry := hgeometry
          table := trivial
          not_halved := fun g hg => hhalved ⟨g, hg⟩
          bitmap := fun _ _ _ _ _ => trivial : OnDisk.Readable image .mapped }
      rw [ha] at h
      cases h
  · rw [ofImage?_eq_none hgeometry] at h
    cases h

namespace Volume

variable {image : ByteArray} {largest : Nat}

theorem family_of_mapped (path : String) {e : ExtRefusal}
    (h : extImage image true largest = .error e) :
    (OpenError.ext path e).family = .blockSource := by
  by_cases hgeometry : OnDisk.Plausible image
  · simp only [extImage, hgeometry.size_ne_zero, Bool.and_self, if_true] at h
    split at h
    · next fault hfault =>
      obtain ⟨offset, available, rfl⟩ := ExtBlockMap.ofImage?_mapped_eq_error hfault
      cases h
      rfl
    · cases h
      rfl
    · split at h
      · cases h
        rfl
      · cases h
  · rw [extImage_of_implausible_geometry hgeometry] at h
    cases h
    rfl

theorem extImage_seeking (image : ByteArray) (largest : Nat) :
    extImage image false largest =
      match firstBeyond? largest (OnDisk.places image) with
      | none => (extImage image true largest).map fun v => { v with isMapped := false }
      | some offset => .error (.unreadableBitmap (seekFault offset)) := by
  -- Without a plausible geometry nothing behind the superblock is read.
  by_cases hgeometry : OnDisk.Plausible image
  · simp only [extImage, hgeometry.size_ne_zero, Bool.and_self, Bool.false_and,
      Bool.false_eq_true, if_true, if_false, ExtBlockMap.ofImage?_seeking]
    cases firstBeyond? largest (OnDisk.places image) with
    | some offset => rfl
    | none =>
      cases ExtBlockMap.ofImage? image .mapped with
      | error fault => rfl
      | ok found =>
        cases found with
        | none => rfl
        | some a =>
          simp only [stopAt]
          split <;> rfl
  · rw [extImage_of_implausible_geometry hgeometry, extImage_of_implausible_geometry hgeometry,
      OnDisk.places, if_neg hgeometry]
    rfl

theorem family_of_seekFault (path : String) (offset : Nat) :
    (OpenError.ext path (.unreadableBitmap (seekFault offset))).family ≠ .blockSource ↔
      seekLimit ≤ offset := by
  rw [seekFault]
  split
  · next hfar =>
    refine iff_of_true (fun heq => ?_) hfar
    cases heq
  · next hnear => exact iff_of_false (fun hne => hne rfl) hnear

/-- An ext image that is mapped into memory opens, or is refused with an error of the block family.
By seeking, the outcome is the same unless the image is to be read out of reach, and then it is
refused; the error is of another family just if that place is beyond the offsets that there are.
Whatever the largest file of the host is, no place is in reach there. -/
theorem extImage_unmapped (image : ByteArray) (largest : Nat) (path : String) :
    (∀ e, extImage image true largest = .error e →
        (OpenError.ext path e).family = .blockSource) ∧
      (extImage image false largest =
        match firstBeyond? largest (OnDisk.places image) with
        | none => (extImage image true largest).map fun v => { v with isMapped := false }
        | some offset => .error (.unreadableBitmap (seekFault offset))) ∧
      ((∃ e, extImage image false largest = .error e ∧
          (OpenError.ext path e).family ≠ .blockSource) ↔
        ∃ offset, firstBeyond? largest (OnDisk.places image) = some offset ∧
          seekLimit ≤ offset) := by
  refine ⟨fun e he => family_of_mapped path he, extImage_seeking image largest, ?_⟩
  rw [extImage_seeking]
  -- Within reach of every seek, a reading fares as it does through a map.
  cases firstBeyond? largest (OnDisk.places image) with
  | none =>
    refine iff_of_false ?_ nofun
    rintro ⟨e, he, hfamily⟩
    cases hmapped : extImage image true largest with
    | error e' =>
      rw [hmapped] at he
      cases he
      exact hfamily (family_of_mapped path hmapped)
    | ok v =>
      rw [hmapped] at he
      cases he
  | some offset =>
    constructor
    · rintro ⟨e, he, hfamily⟩
      obtain rfl := Except.error.inj he
      exact ⟨offset, rfl, (family_of_seekFault path offset).1 hfamily⟩
    · rintro ⟨offset', hplace, hfar⟩
      obtain rfl := Option.some.inj hplace
      exact ⟨_, rfl, (family_of_seekFault path offset).2 hfar⟩

/-! ## A bitmap beyond the reach of a seek -/

/-- An image of two blocks, whose only group has its bitmap at the offset 2⁶³. -/
def farBitmap : ByteArray := sparse 8192
  [(1028, 2), (1048, 2), (1056, 8), (1080, 0x53), (1081, 0xEF), (1120, 0x80), (1278, 64),
    (4130, 8)]

theorem size_farBitmap : farBitmap.size = 8192 := size_sparse ..

theorem marked_farBitmap : OnDisk.Marked farBitmap where
  size_ge := by rw [size_farBitmap]; decide
  magic := by rw [farBitmap, le16_sparse]; decide
  exponent_eq := by rw [farBitmap, le32_sparse]; decide

theorem is64Bit_farBitmap : OnDisk.is64Bit farBitmap = true := by
  rw [OnDisk.is64Bit, farBitmap, le32_sparse]
  decide

theorem isExtended_farBitmap : OnDisk.isExtended farBitmap = true := by
  rw [OnDisk.isExtended, is64Bit_farBitmap, size_farBitmap]
  decide

theorem totalBlocks_farBitmap : OnDisk.totalBlocks farBitmap = 2 := by
  rw [OnDisk.totalBlocks, isExtended_farBitmap, farBitmap, le32_sparse, le32_sparse]
  decide

theorem firstDataBlock_farBitmap : OnDisk.firstDataBlock farBitmap = 0 := by
  rw [OnDisk.firstDataBlock, farBitmap, le32_sparse]
  decide

theorem blocksPerGroup_farBitmap : OnDisk.blocksPerGroup farBitmap = 8 := by
  rw [OnDisk.blocksPerGroup, farBitmap, le32_sparse]
  decide

theorem descriptorSize_farBitmap : OnDisk.descriptorSize farBitmap = 64 := by
  rw [OnDisk.descriptorSize, isExtended_farBitmap, farBitmap, le16_sparse]
  decide

theorem groupCount_farBitmap : OnDisk.groupCount farBitmap = 1 := by
  rw [OnDisk.groupCount, totalBlocks_farBitmap, firstDataBlock_farBitmap, blocksPerGroup_farBitmap]

theorem descriptor_farBitmap : OnDisk.descriptor farBitmap 0 = 4096 := by
  rw [OnDisk.descriptor, firstDataBlock_farBitmap, marked_farBitmap.blockSize_eq, Nat.zero_mul]
  rfl

theorem bitmapBlock_farBitmap : OnDisk.bitmapBlock farBitmap 0 = 0x8000000000000 := by
  rw [OnDisk.bitmapBlock, descriptor_farBitmap, is64Bit_farBitmap, descriptorSize_farBitmap,
    farBitmap, le32_sparse, le32_sparse]
  decide

theorem plausible_farBitmap : OnDisk.Plausible farBitmap where
  size_ge := marked_farBitmap.size_ge
  magic := marked_farBitmap.magic
  exponent_le := by rw [marked_farBitmap.exponent_eq]; decide
  blocksPerGroup_pos := by rw [blocksPerGroup_farBitmap]; decide
  dvd_blocksPerGroup := by rw [blocksPerGroup_farBitmap]
  firstDataBlock_lt := by rw [firstDataBlock_farBitmap, totalBlocks_farBitmap]; decide

theorem readable_farBitmap : OnDisk.Readable farBitmap .mapped where
  geometry := plausible_farBitmap
  table := trivial
  not_halved g hhalved := by
    have hg := hhalved.group_lt
    have hsize := hhalved.size_lt
    rw [groupCount_farBitmap] at hg
    obtain rfl : g = 0 := by omega
    rw [descriptor_farBitmap, size_farBitmap] at hsize
    omega
  bitmap _ _ _ _ _ := trivial

theorem bitmapPlace?_farBitmap : OnDisk.bitmapPlace? farBitmap 0 = some seekLimit := by
  have hlocated : OnDisk.Located farBitmap 0 := by
    rw [OnDisk.Located, descriptor_farBitmap, size_farBitmap]
    split <;> decide
  have hinit : OnDisk.isUninit farBitmap 0 = false := by
    rw [OnDisk.isUninit, OnDisk.isChecksummed, farBitmap, le32_sparse]
    decide
  have hsome : ¬ (OnDisk.bitmapBlock farBitmap 0 = 0 ∨ OnDisk.isUninit farBitmap 0 = true) := by
    rw [bitmapBlock_farBitmap, hinit]
    decide
  rw [OnDisk.bitmapPlace?, if_pos ⟨hlocated, hsome⟩, bitmapBlock_farBitmap,
    marked_farBitmap.blockSize_eq]
  rfl

theorem firstBeyond?_farBitmap (hlargest : 4096 ≤ largest) :
    firstBeyond? largest (OnDisk.places farBitmap) = some seekLimit := by
  rw [OnDisk.places, if_pos plausible_farBitmap, groupCount_farBitmap, descriptor_farBitmap]
  have hplaces : (List.range 1).filterMap (OnDisk.bitmapPlace? farBitmap) = [seekLimit] := by
    change [0].filterMap _ = _
    rw [List.filterMap_cons_some bitmapPlace?_farBitmap]
    rfl
  rw [hplaces, firstBeyond?, List.find?_cons_of_neg, List.find?_cons_of_pos]
  · exact decide_eq_true (.inr (Nat.le_refl _))
  · have hnear : 4096 < seekLimit := by decide
    rw [decide_eq_true_eq]
    omega

/-- The same image opens through a memory map, and fails without one, with an error that is not of
the block family: also where each seek succeeds that there is. -/
theorem extImage_farBitmap :
    (∀ largest, 4096 ≤ largest →
        (∃ v, extImage farBitmap true largest = .ok v ∧ v.source.blockCount = 2) ∧
          extImage farBitmap false largest = .error (.unreadableBitmap .seekTooFar)) ∧
      (OpenError.ext "d" (.unreadableBitmap .seekTooFar)).family = .value := by
  refine ⟨fun largest hlargest => ⟨?_, ?_⟩, rfl⟩
  · let host : Host := { maxFileSize := largest }
    have hreadable : OnDisk.Readable farBitmap host.access := readable_farBitmap
    obtain ⟨v, hv, -, hcount⟩ := exists_extImage marked_farBitmap hreadable
    rw [totalBlocks_farBitmap, size_farBitmap] at hcount
    exact ⟨v, hv, hcount⟩
  · rw [extImage_seeking, firstBeyond?_farBitmap hlargest]
    rfl

end Volume

end RegionSalvage
