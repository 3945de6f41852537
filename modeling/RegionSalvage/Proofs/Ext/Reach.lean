import RegionSalvage.Proofs.Ext.Truncation

/-! # How far an image is read

Block numbers are wide enough to name places that no file has.  A memory map shows nothing there,
where a seek fails: beyond the largest file of the host, and in any case beyond the offsets that
there are.  `OnDisk.places` lists the places at which an ext image is read, one after the other; a
reading by seeking stops at the first of them out of reach, and goes like one of the memory map if
there is none (`ofImage?_seeking`).
-/

namespace RegionSalvage

/-- Why a seek to `offset`, which is out of reach, fails. -/
def seekFault (offset : Nat) : BitmapFault :=
  if seekLimit ≤ offset then .seekTooFar else .seekRefused

/-- A reading that stops at a seek to the place in hand, if there is one. -/
def stopAt {α : Type} (place : Option Nat) (reading : Except BitmapFault α) :
    Except BitmapFault α :=
  match place with
  | none => reading
  | some offset => .error (seekFault offset)

/-- The first place out of reach of a seek, where files have at most `largest` bytes. -/
def firstBeyond? (largest : Nat) (places : List Nat) : Option Nat :=
  places.find? fun offset => largest < offset ∨ seekLimit ≤ offset

theorem firstBeyond?_append (largest : Nat) (places more : List Nat) :
    firstBeyond? largest (places ++ more) =
      (firstBeyond? largest places).or (firstBeyond? largest more) :=
  List.find?_append

theorem firstBeyond?_cons (largest offset : Nat) (places : List Nat) :
    firstBeyond? largest (offset :: places) =
      (firstBeyond? largest [offset]).or (firstBeyond? largest places) :=
  firstBeyond?_append largest [offset] places

theorem readAt_seeking (image : ByteArray) (largest offset count : Nat) :
    readAt image (.seeking largest) offset count =
      stopAt (firstBeyond? largest [offset]) (readAt image .mapped offset count) := by
  by_cases hbeyond : largest < offset ∨ seekLimit ≤ offset
  · have hfirst : firstBeyond? largest [offset] = some offset :=
      List.find?_cons_of_pos (decide_eq_true hbeyond)
    rw [hfirst]
    simp only [readAt, stopAt, seekFault]
    split
    · rfl
    · exact if_pos (by omega)
  · have hfirst : firstBeyond? largest [offset] = none :=
      List.find?_cons_of_neg (fun h => hbeyond (of_decide_eq_true h))
    rw [hfirst]
    simp only [readAt, stopAt]
    rw [if_neg (by omega), if_neg (by omega)]

/-- A reading that goes on after one that comes to its end stops where either does. -/
theorem stopAt_bind {α β : Type} {first next : Option Nat} {reading : Except BitmapFault α}
    {k k' : α → Except BitmapFault β} {a : α} (hreading : reading = .ok a)
    (hk : k' a = stopAt next (k a)) :
    (stopAt first reading >>= k') = stopAt (first.or next) (reading >>= k) := by
  subst hreading
  cases first with
  | none => exact hk
  | some offset => rfl

theorem stopAt_map {α β : Type} (place : Option Nat) (reading : Except BitmapFault α) (f : α → β) :
    (stopAt place reading).map f = stopAt place (reading.map f) := by
  cases place <;> rfl

namespace OnDisk

instance (image : ByteArray) : Decidable (Plausible image) :=
  decidable_of_iff
    (superblockOffset + 104 ≤ image.size ∧ le16 image (superblockOffset + 56) = extMagic ∧
      le32 image (superblockOffset + 24) ≤ 6 ∧ 0 < blocksPerGroup image ∧
      8 ∣ blocksPerGroup image ∧ firstDataBlock image < totalBlocks image)
    ⟨fun ⟨hsize, hmagic, hexponent, hpos, hdvd, hfirst⟩ =>
        ⟨hsize, hmagic, hexponent, hpos, hdvd, hfirst⟩,
      fun h => ⟨h.size_ge, h.magic, h.exponent_le, h.blocksPerGroup_pos, h.dvd_blocksPerGroup,
        h.firstDataBlock_lt⟩⟩

instance (image : ByteArray) (g : Nat) : Decidable (Located image g) :=
  inferInstanceAs (Decidable (_ ≤ _))

/-- Where the bitmap of group `g` is read, if it is. -/
def bitmapPlace? (image : ByteArray) (g : Nat) : Option Nat :=
  if Located image g ∧ ¬ (bitmapBlock image g = 0 ∨ isUninit image g) then
    some (bitmapBlock image g * blockSize image)
  else none

/-- Where an ext image is read behind its superblock: at the descriptors, then at each bitmap. -/
def places (image : ByteArray) : List Nat :=
  if Plausible image then
    descriptor image 0 :: (List.range (groupCount image)).filterMap (bitmapPlace? image)
  else []

variable {image : ByteArray} {g : Nat}

theorem Located.described (h : Located image g) : descriptor image g + 32 ≤ image.size := by
  unfold Located at h
  split at h <;> omega

theorem Halved.not_located (h : Halved image g) : ¬ Located image g := by
  intro hlocated
  rw [Located, if_pos h.wide] at hlocated
  have := h.size_lt
  omega

/-- Behind a descriptor that is cut, there are no more. -/
theorem Halved.not_described_of_gt (h : Halved image g) {g' : Nat} (hlt : g < g') :
    image.size < descriptor image g' := by
  have hbehind := descriptor_add_le image hlt
  have hwide64 := of_decide_eq_true (Bool.and_eq_true_iff.1 h.wide).2
  have hsize := h.size_lt
  omega

end OnDisk

namespace Superblock

variable {sb : Superblock} {image : ByteArray} {largest : Nat}

/-! ## One group -/

theorem Describes.groupBitmap_seeking (hsb : sb.Describes image) {g : Nat}
    (hread : g < sb.readableDescriptors (sb.tableOf image).size) :
    sb.groupBitmap image (.seeking largest) (sb.tableOf image) (g * sb.descriptorSize) =
      stopAt (firstBeyond? largest (OnDisk.bitmapPlace? image g).toList)
        (sb.groupBitmap image .mapped (sb.tableOf image) (g * sb.descriptorSize)) := by
  have hsize := hsb.descriptorSize_ge
  have hg := ((lt_readableDescriptors (by omega)).1 hread).1
  have hdescribed := (hsb.lt_readable_iff hg).1 hread
  rw [hsb.groupBitmap_eq hg, hsb.groupBitmap_eq hg]
  by_cases hhalved : OnDisk.Halved image g
  · have hcut := (hsb.halved_iff hread).1 hhalved
    have hplace : OnDisk.bitmapPlace? image g = none := if_neg fun h => hhalved.not_located h.1
    rw [hplace, if_pos hcut, if_pos hcut]
    rfl
  · have hlocated := (OnDisk.located_iff hhalved (hsb.groupCount_eq ▸ hg)).2 hdescribed
    have hwhole := mt (hsb.halved_iff hread).2 hhalved
    rw [if_neg hwhole, if_neg hwhole]
    by_cases hnone : OnDisk.bitmapBlock image g = 0 ∨ OnDisk.isUninit image g
    · have hplace : OnDisk.bitmapPlace? image g = none := if_neg fun h => h.2 hnone
      rw [hplace, if_pos hnone, if_pos hnone]
      rfl
    · have hplace : OnDisk.bitmapPlace? image g =
        some (OnDisk.bitmapBlock image g * sb.blockSize) := by
        rw [hsb.blockSize_eq]
        exact if_pos ⟨hlocated, hnone⟩
      rw [hplace, if_neg hnone, if_neg hnone, readAt_seeking]
      rfl

/-! ## All groups -/

/-- The groups in front of one with a descriptor can be surveyed through a memory map. -/
theorem Describes.exists_survey (hsb : sb.Describes image) {n : Nat}
    (hn : n < sb.readableDescriptors (sb.tableOf image).size) :
    ∃ s, (List.range n).foldlM (sb.surveyGroup image .mapped (sb.tableOf image)) {} = .ok s := by
  have hsize := hsb.descriptorSize_ge
  have hgroup := ((lt_readableDescriptors (by omega)).1 hn).1
  have hdescribed := (hsb.lt_readable_iff hgroup).1 hn
  refine exists_survey_iff.2 fun g hg => ?_
  refine (hsb.exists_groupBitmap_iff (by omega)).2 ⟨fun hhalved => ?_, fun _ _ => trivial⟩
  have := hhalved.not_described_of_gt hg
  omega

theorem Describes.survey_seeking (hsb : sb.Describes image) {n : Nat}
    (hn : n ≤ sb.readableDescriptors (sb.tableOf image).size) :
    (List.range n).foldlM (sb.surveyGroup image (.seeking largest) (sb.tableOf image)) {} =
      stopAt (firstBeyond? largest ((List.range n).filterMap (OnDisk.bitmapPlace? image)))
        ((List.range n).foldlM (sb.surveyGroup image .mapped (sb.tableOf image)) {}) := by
  induction n with
  | zero => rfl
  | succ n ih =>
    rw [survey_succ, survey_succ, ih (by omega), List.range_succ, List.filterMap_append,
      firstBeyond?_append]
    obtain ⟨before, hbefore⟩ := hsb.exists_survey hn
    refine stopAt_bind hbefore ?_
    rw [surveyGroup_eq, surveyGroup_eq, hsb.groupBitmap_seeking hn, stopAt_map]
    cases hplace : OnDisk.bitmapPlace? image n <;> simp only [List.filterMap_cons, hplace] <;> rfl

/-- A group without a descriptor has no bitmap to read. -/
theorem Describes.filterMap_bitmapPlace? (hsb : sb.Describes image) :
    (List.range sb.groupCount).filterMap (OnDisk.bitmapPlace? image) =
      (List.range (sb.readableDescriptors (sb.tableOf image).size)).filterMap
        (OnDisk.bitmapPlace? image) := by
  obtain ⟨rest, hrest⟩ := Nat.exists_eq_add_of_le
    (sb.readableDescriptors_le (sb.tableOf image).size)
  have hnone : ((List.range rest).map (sb.readableDescriptors (sb.tableOf image).size + ·)).filterMap
      (OnDisk.bitmapPlace? image) = [] := by
    refine List.filterMap_eq_nil_iff.2 fun g hg => if_neg fun h => ?_
    obtain ⟨i, hi, rfl⟩ := List.mem_map.1 hg
    have hi := List.mem_range.1 hi
    have := (hsb.lt_readable_iff (by omega)).2 h.1.described
    omega
  conv_lhs => rw [hrest, List.range_add, List.filterMap_append, hnone, List.append_nil]

theorem Describes.allocation_seeking (hsb : sb.Describes image)
    (hgeometry : OnDisk.Plausible image) :
    sb.allocation image (.seeking largest) =
      stopAt (firstBeyond? largest (OnDisk.places image)) (sb.allocation image .mapped) := by
  have htable : readAt image .mapped sb.descriptorTable (sb.groupCount * sb.descriptorSize) =
    .ok (sb.tableOf image) := rfl
  have hstart : sb.descriptorTable = OnDisk.descriptor image 0 := by
    rw [hsb.descriptor_eq, Nat.zero_mul, Nat.add_zero]
  rw [OnDisk.places, if_pos hgeometry, ← hsb.groupCount_eq, hsb.filterMap_bitmapPlace?,
    firstBeyond?_cons, ← hstart, allocation, allocation, readAt_seeking, htable]
  refine stopAt_bind rfl ?_
  simp only [hsb.survey_seeking (Nat.le_refl _)]
  cases firstBeyond? largest ((List.range (sb.readableDescriptors (sb.tableOf image).size)).filterMap
    (OnDisk.bitmapPlace? image)) <;> rfl

end Superblock

namespace ExtBlockMap

/-- By seeking, an image is read as through a memory map, or as far as the first place out of
reach. -/
theorem ofImage?_seeking (image : ByteArray) (largest : Nat) :
    ofImage? image (.seeking largest) =
      stopAt (firstBeyond? largest (OnDisk.places image)) (ofImage? image .mapped) := by
  by_cases hgeometry : OnDisk.Plausible image
  · obtain ⟨kind, hheader⟩ := Superblock.exists_ofHeader? hgeometry
    have hsb := Superblock.describes_ofImage hgeometry kind
    rw [ofImage?, ofImage?, hheader]
    simp only [hsb.allocation_seeking hgeometry]
    cases firstBeyond? largest (OnDisk.places image) <;> rfl
  · rw [ofImage?_eq_none hgeometry, ofImage?_eq_none hgeometry, OnDisk.places, if_neg hgeometry]
    rfl

end ExtBlockMap

end RegionSalvage
