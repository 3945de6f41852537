import RegionSalvage.Proofs.FreeSpace.Carving
import RegionSalvage.Proofs.Scan.Ascent
import RegionSalvage.Proofs.Volume.Carvable

/-! # A file system only takes sightings away

An image that opens as an ext file system opens as a flat one too.  What a scan of the file system
delivers is what the same scan of the flat image delivers, less the sightings of blocks in use
(`Volume.harvest_ext`): wherever the file system begins and ends, no block gets another number, and
none is seen that the flat image does not have.
-/

namespace RegionSalvage

theorem filter_sightingsOf (p : Int → Bool) (block : Int) (parts : List RegionPart) :
    (sightingsOf block parts).filter (fun e => p e.block) =
      if p block then sightingsOf block parts else [] := by
  induction parts with
  | nil => simp [sightingsOf]
  | cons part rest ih =>
    rw [sightingsOf] at ih ⊢
    rw [List.map_cons, List.filter_cons, ih]
    cases p block <;> simp

namespace ExtBlockMap

/-- A block that the file system has and does not use. -/
def isFree (a : ExtBlockMap) (block : Int) : Bool := a.isAllocated? block == some false

variable {a : ExtBlockMap} {block : Int} {used : Bool}

theorem isAllocated_of_answer (h : a.isAllocated? block = some used) :
    a.isAllocated block = used := by
  simp [isAllocated, h]

theorem isFree_of_answer (h : a.isAllocated? block = some used) : a.isFree block = !used := by
  cases used <;> simp [isFree, h]

theorem isAllocated?_of_outside (h : block < a.firstDataBlock ∨ a.totalBlocks ≤ block) :
    a.isAllocated? block = some true := by
  simp [isAllocated?, h]

end ExtBlockMap

namespace Volume

variable {host : Host} {files : FileTree} {path : String} {image : ByteArray} {v : Volume}

namespace Maps

variable {source : BlockSource} {a : ExtBlockMap}

/-- The range of a source is that of the file system, as far as the image has it. -/
theorem mem_range_iff (h : Maps image source a) (block : Int) :
    source.firstIndex ≤ block ∧ block < source.blockCount ↔
      a.firstDataBlock ≤ block ∧ block < a.totalBlocks ∧
        block < (image.size / blockSize : Nat) := by
  cases h with
  | covered _ _ =>
    change a.firstDataBlock ≤ block ∧ block < min a.totalBlocks _ ↔ _
    rw [Int.lt_min]

/-- Of the blocks that a scan of the whole image selects, a scan of the file system selects those in
its range. -/
theorem itinerary_eq (h : Maps image source a) (criteria : ScanCriteria) :
    Scanner.itinerary ⟨source, criteria⟩ =
      (Scanner.itinerary ⟨.flat image, criteria⟩).filter
        (fun block => source.firstIndex ≤ block && block < source.blockCount) := by
  have hfirst := h.offers.firstIndex_nonneg
  have hcount := h.offers.blockCount_le
  -- Both lists ascend, so it is enough that they have the same blocks.
  refine (pairwise_blockRange _ _).eq_of_mem_iff ((pairwise_blockRange _ _).filter _)
    fun block => ?_
  rw [List.mem_filter, Scanner.itinerary, Scanner.mem_blockRange_bounds,
    Scanner.mem_blockRange_bounds, ScanCriteria.Selects, ScanCriteria.Selects]
  have hstart : (BlockSource.flat image).firstIndex = 0 := rfl
  have hstop : (BlockSource.flat image).blockCount = (image.size / blockSize : Nat) := rfl
  simp only [Bool.and_eq_true, decide_eq_true_eq, hstart, hstop]
  cases criteria.startBlock <;> cases criteria.maxBlock <;>
    simp only [Option.getD_none, Option.getD_some] <;> omega

/-- Of one block of the image, a scan of the file system sees all or nothing. -/
theorem classified_eq (h : Maps image source a) (criteria : ScanCriteria) {block : Int}
    (hnonneg : 0 ≤ block) (hlast : block < (image.size / blockSize : Nat)) :
    Scanner.classified ⟨source, criteria⟩ block =
      (Scanner.classified ⟨.flat image, criteria⟩ block).filter (fun e => a.isFree e.block) := by
  obtain ⟨hallocated, hanswers⟩ := h.offers.isAllocated_eq
  obtain ⟨used, hused⟩ := hanswers block
  have hplain : Scanner.classified ⟨.flat image, criteria⟩ block =
      sightingsOf block (criteria.reportable (BlockSource.imageBytes image block 1)) := by
    have hread : (BlockSource.flat image).readBlock block = _ :=
      Offers.whole.readBlock_eq hnonneg hlast
    have hfree : (BlockSource.flat image).isAllocated block = false := rfl
    simp [Scanner.classified, hread, hfree]
  rw [hplain, filter_sightingsOf, a.isFree_of_answer hused]
  -- A block in use shows nothing and is filtered out; a free one lies in the range of the source.
  cases used with
  | true => simp [Scanner.classified, hallocated, a.isAllocated_of_answer hused]
  | false =>
    have hinside : a.firstDataBlock ≤ block ∧ block < a.totalBlocks := by
      refine Decidable.byContradiction fun houtside => ?_
      rw [ExtBlockMap.isAllocated?_of_outside (by omega)] at hused
      cases hused
    have hrange := (h.mem_range_iff block).2 ⟨hinside.1, hinside.2, hlast⟩
    simp [Scanner.classified, hallocated, a.isAllocated_of_answer hused,
      h.offers.readBlock_eq hnonneg hrange.2]

/-- The sightings of a file system are the sightings of its image in free blocks. -/
theorem harvest_eq_filter (h : Maps image source a) (criteria : ScanCriteria)
    (s₁ s₂ : ScanState) :
    (Scanner.harvest ⟨source, criteria⟩ s₁).sightings.toList =
      (Scanner.harvest ⟨.flat image, criteria⟩ s₂).sightings.toList.filter
        (fun e => a.isFree e.block) := by
  have hmem {block : Int} (hblock : block ∈ Scanner.itinerary ⟨.flat image, criteria⟩) :
      0 ≤ block ∧ block < (image.size / blockSize : Nat) :=
    Offers.whole.range_of_mem_itinerary hblock
  rw [(h.offers.harvest_eq criteria s₁).1, (Offers.whole.harvest_eq criteria s₂).1,
    h.itinerary_eq criteria, List.filter_flatMap, Scanner.flatMap_filter]
  · exact List.flatMap_congr fun block hblock =>
      h.classified_eq criteria (hmem hblock).1 (hmem hblock).2
  · intro block hblock houtside
    -- A block of the image that the file system does not cover counts as in use.
    have hused : a.isAllocated? block = some true := by
      apply ExtBlockMap.isAllocated?_of_outside
      have hrange := h.mem_range_iff block
      have hlast := (hmem hblock).2
      simp only [Bool.and_eq_false_iff, decide_eq_false_iff_not] at houtside
      omega
    simp [Scanner.classified, h.offers.isAllocated_eq.1, a.isAllocated_of_answer hused]

end Maps

theorem maps_of_openWith_ext {a : ExtBlockMap} (hread : files.read path = .ok image)
    (h : openWith host files path .ext = .ok v) (ha : v.allocation = some a) :
    Maps image v.source a := by
  obtain ⟨image', hread', hv⟩ := withImage_eq_ok h
  obtain rfl : image' = image := Except.ok.inj (hread'.symm.trans hread)
  obtain ⟨a', ha', hmaps⟩ := maps_of_extImage (extImage_of_asExt hv)
  obtain rfl : a' = a := Option.some.inj (ha'.symm.trans ha)
  exact hmaps

/-- Each image that opens as an ext file system opens as a flat one too.  Whatever the criteria, the
scan of the file system delivers of the sightings of the flat image those in free blocks, in their
order, and both scans come to their ends. -/
theorem harvest_ext (h : openWith host files path .ext = .ok v) :
    ∃ flat a, openWith host files path .mmap = .ok flat ∧ v.allocation = some a ∧
      (∀ block, ∃ used, a.isAllocated? block = some used) ∧
      ∀ (criteria : ScanCriteria) (s₁ s₂ : ScanState),
        (Scanner.harvest ⟨v.source, criteria⟩ s₁).sightings.toList =
          (Scanner.harvest ⟨flat.source, criteria⟩ s₂).sightings.toList.filter
            (fun e => a.isFree e.block) ∧
        (Scanner.harvest ⟨v.source, criteria⟩ s₁).ending = .exhausted ∧
        (Scanner.harvest ⟨flat.source, criteria⟩ s₂).ending = .exhausted := by
  obtain ⟨image, hread, hv⟩ := withImage_eq_ok h
  obtain ⟨a, ha, hmaps⟩ := maps_of_extImage (extImage_of_asExt hv)
  have hflat : openWith host files path .mmap = .ok (mappedFile image host.canMap) := by
    simp only [openWith, openWith.withImage, hread]
  refine ⟨_, a, hflat, ha, hmaps.offers.isAllocated_eq.2, fun criteria s₁ s₂ => ⟨?_, ?_, ?_⟩⟩
  · exact hmaps.harvest_eq_filter criteria s₁ s₂
  · exact (hmaps.offers.harvest_eq criteria s₁).2
  · exact (Offers.whole.harvest_eq criteria s₂).2

/-! ## A file system that begins late -/

theorem Maps.geometry {source : BlockSource} {a : ExtBlockMap} (h : Maps image source a) :
    a.firstDataBlock = OnDisk.firstDataBlock image ∧ a.totalBlocks = OnDisk.totalBlocks image := by
  cases h with
  | covered hsb ha =>
    obtain ⟨-, htotal, hfirst, -⟩ := Superblock.allocation_eq_ok hsb ha
    rw [htotal, hfirst, hsb.totalBlocks_eq, hsb.firstDataBlock_eq]
    exact ⟨rfl, rfl⟩

/-- Without descriptors, each block of a file system counts as free. -/
theorem Maps.isFree_of_not_described {source : BlockSource} {a : ExtBlockMap}
    (h : Maps image source a) (hnone : ∀ g, image.size < OnDisk.descriptor image g + 32)
    {block : Int} (hfirst : a.firstDataBlock ≤ block) (hlast : block < a.totalBlocks) :
    a.isFree block = true := by
  cases h with
  | covered hsb ha =>
    obtain ⟨hanswer, hiff⟩ := Superblock.isAllocated?_of_inside hsb ha hfirst hlast
    have hclear : bitAt a.bitmap (block - a.firstDataBlock).toNat = false := by
      apply Bool.eq_false_iff.2
      intro hset
      exact absurd (hiff.1 hset).described (Nat.not_le_of_lt (hnone _))
    rw [a.isFree_of_answer hanswer, hclear]
    rfl

theorem startsChunk_lateStart {block : Int} (h : block = 3 ∨ block = 4) :
    startsChunk (BlockSource.imageBytes lateStart block 1) = true := by
  have hsize := size_lateStart
  rw [startsChunk_imageBytes_iff (by omega) (by omega), lateStart, be32_sparse, be32_sparse]
  obtain rfl | rfl := h <;> decide

theorem harvest_ext_lateStart :
    ∃ v flat, openWith {} (treeOf lateStart) "d" .ext = .ok v ∧
      openWith {} (treeOf lateStart) "d" .mmap = .ok flat ∧
      let criteria : ScanCriteria :=
        { maxTime := 2000000000, skipSparse := false, startBlock := some 3 }
      (Scanner.harvest ⟨flat.source, criteria⟩ {}).sightings.toList =
          [⟨3, .chunkHeader⟩, ⟨4, .chunkHeader⟩] ∧
        (Scanner.harvest ⟨v.source, criteria⟩ {}).sightings.toList = [⟨4, .chunkHeader⟩] := by
  obtain ⟨v, hopen, -⟩ := openWith_ext_lateStart
  obtain ⟨flat, a, hflat, ha, -, hharvest⟩ := harvest_ext hopen
  have hmaps : Maps lateStart v.source a := maps_of_openWith_ext (read_treeOf lateStart) hopen ha
  obtain ⟨hfirst, htotal⟩ := hmaps.geometry
  rw [firstDataBlock_lateStart] at hfirst
  rw [totalBlocks_lateStart] at htotal
  -- Block 3 is in front of the first data block; of block 4 there is no descriptor.
  have hused : a.isFree 3 = false :=
    a.isFree_of_answer (ExtBlockMap.isAllocated?_of_outside (.inl (by omega)))
  have hfree : a.isFree 4 = true := by
    refine hmaps.isFree_of_not_described (fun g => ?_) (by omega) (by omega)
    rw [OnDisk.descriptor, firstDataBlock_lateStart, marked_lateStart.blockSize_eq, size_lateStart,
      blockSize]
    omega
  have hplain : flat.source = .flat lateStart := by
    rw [openWith_mmap_treeOf] at hflat
    cases hflat
    rfl
  refine ⟨v, flat, hopen, hflat, ?_⟩
  have hsize := size_lateStart
  have hchunk {block : Int} (h : block = 3 ∨ block = 4) := startsChunk_lateStart h
  generalize lateStart = image at *
  intro criteria
  have hcount : (BlockSource.flat image).blockCount = 5 := by
    change ((image.size / blockSize : Nat) : Int) = 5
    rw [hsize]
    rfl
  have hsees {block : Int} (h : block = 3 ∨ block = 4) :
      Scanner.classified ⟨.flat image, criteria⟩ block = [⟨block, .chunkHeader⟩] :=
    Scanner.classified_of_startsChunk (show 0x02789CFF < earliestTime by decide) rfl rfl
      (Offers.whole.readBlock_eq (by omega) (by omega)) (hchunk h)
  have hblocks : Scanner.itinerary ⟨.flat image, criteria⟩ = [3, 4] := by
    have hbounds : criteria.bounds (.flat image) = (3, 5) := by
      simp only [ScanCriteria.bounds, criteria, BlockSource.flat, BlockSource.ofImage, hsize]
      rfl
    rw [Scanner.itinerary, hbounds]
    rfl
  have hall : (Scanner.harvest ⟨flat.source, criteria⟩ {}).sightings.toList =
      [⟨3, .chunkHeader⟩, ⟨4, .chunkHeader⟩] := by
    rw [hplain, (Offers.whole.harvest_eq criteria {}).1, hblocks, List.flatMap_cons,
      List.flatMap_singleton, hsees (.inl rfl), hsees (.inr rfl)]
    rfl
  refine ⟨hall, ?_⟩
  rw [(hharvest criteria {} {}).1, hall]
  simp [hused, hfree]

end Volume

end RegionSalvage
