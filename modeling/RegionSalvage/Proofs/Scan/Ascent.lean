import RegionSalvage.Proofs.Block.Reading
import RegionSalvage.Proofs.Region.Signature
import RegionSalvage.Proofs.Scan.Exactness
import RegionSalvage.Proofs.Scan.Independence

/-! # A block is sighted once

The three tests of a sector look at the same fields, and what one of them asks of a field the others
refuse: the mark of a chunk header is no plausible offset, and a plausible time is neither an offset
nor the mark.  With a window that starts late enough a block is therefore sighted at most
once, and the sightings of a walk ascend strictly.
-/

namespace RegionSalvage

/-! ## Signatures exclude each other -/

section Exclusion

variable {minTime maxTime : Int}

theorem not_offsets_and_chunk (b : ByteArray) (rejectDuplicates : Bool) :
    ¬ (isOffsetTable b rejectDuplicates = true ∧ startsChunk b = true) := by
  rintro ⟨htable, hchunk⟩
  obtain ⟨field, hfield, hmark⟩ := mark_mem_tableFields hchunk
  have hoffset := field_div_le_maxOffset htable hfield
  simp only [hmark, chunkHeaderMark, maxOffset] at hoffset
  omega

theorem not_offsets_and_times (hmin : 0x00FFFFFF < minTime) (b : ByteArray)
    (rejectDuplicates : Bool) :
    ¬ (isOffsetTable b rejectDuplicates = true ∧ isTimestampTable b minTime maxTime = true) := by
  rintro ⟨htable, htimes⟩
  obtain ⟨⟨field, hfield, hne⟩, hwindow⟩ := isTimestampTable_iff.1 htimes
  have hoffset := field_div_le_maxOffset htable hfield
  have htime := (hwindow field hfield hne).1
  simp only [maxOffset] at hoffset
  omega

theorem not_chunk_and_times (hmin : 0x02789CFF < minTime) (b : ByteArray) :
    ¬ (startsChunk b = true ∧ isTimestampTable b minTime maxTime = true) := by
  rintro ⟨hchunk, htimes⟩
  obtain ⟨field, hfield, hmark⟩ := mark_mem_tableFields hchunk
  simp only [chunkHeaderMark] at hmark
  have htime := ((isTimestampTable_iff.1 htimes).2 field hfield (by omega)).1
  omega

end Exclusion

theorem SectorKinds.length_parts_le_one {k : SectorKinds}
    (hchunk : ¬ (k.offsets = true ∧ k.chunkHeader = true))
    (htimes : ¬ (k.offsets = true ∧ k.timestamps = true))
    (hboth : ¬ (k.chunkHeader = true ∧ k.timestamps = true)) : k.parts.length ≤ 1 := by
  obtain ⟨_, timestamps, offsets, chunkHeader⟩ := k
  cases timestamps <;> cases offsets <;> cases chunkHeader <;> simp [parts] at *

theorem ScanCriteria.length_reportable_le_one {criteria : ScanCriteria}
    (hmin : 0x02789CFF < criteria.minTime) (b : ByteArray) :
    (criteria.reportable b).length ≤ 1 := by
  simp only [reportable]
  split
  · simp
  · exact SectorKinds.length_parts_le_one (not_offsets_and_chunk b _)
      (not_offsets_and_times (by omega) b _) (not_chunk_and_times hmin b)

theorem Scanner.classified_of_startsChunk {scanner : Scanner} {block : Int} {bytes : ByteArray}
    (hmin : 0x02789CFF < scanner.criteria.minTime) (hskip : scanner.criteria.skipSparse = false)
    (hfree : scanner.source.isAllocated block = false)
    (hread : scanner.source.readBlock block = .ok bytes) (hchunk : startsChunk bytes = true) :
    scanner.classified block = [⟨block, .chunkHeader⟩] := by
  let criteria := scanner.criteria
  have htable : isOffsetTable bytes criteria.rejectDuplicates = false :=
    Bool.eq_false_iff.2 fun h => not_offsets_and_chunk bytes _ ⟨h, hchunk⟩
  have htimes : isTimestampTable bytes criteria.minTime criteria.maxTime = false :=
    Bool.eq_false_iff.2 fun h => not_chunk_and_times hmin bytes ⟨hchunk, h⟩
  have hparts : (criteria.kindsOf bytes).parts = [.chunkHeader] := by
    rw [ScanCriteria.kindsOf, SectorKinds.ofBytes, htable, htimes, hchunk]
    rfl
  have hreport : criteria.reportable bytes = [.chunkHeader] := by
    rw [ScanCriteria.reportable, hparts, hskip]
    rfl
  simp only [classified, hfree, hread, Bool.false_eq_true, if_false]
  exact congrArg (sightingsOf block) hreport

/-! ## Images with chunk headers -/

theorem startsChunk_imageBytes_iff {image : ByteArray} {block : Int} (hnonneg : 0 ≤ block)
    (hinside : 4096 * (block + 1) ≤ image.size) :
    startsChunk (BlockSource.imageBytes image block 1) = true ↔
      be32 image (4096 * block).toNat ≤ maxRecordLength ∧
        be32 image ((4096 * block).toNat + 4) / 256 = chunkHeaderMark := by
  have hsize : 8 ≤ (BlockSource.imageBytes image block 1).size := by
    rw [BlockSource.imageBytes, size_slice]
    omega
  rw [startsChunk_iff, and_iff_right hsize, BlockSource.imageBytes, be32_slice (by omega),
    be32_slice (by omega), Nat.add_zero]

/-- Two blocks, each of which starts a chunk. -/
def twoHeaders : ByteArray :=
  sparse 8192 [(4, 2), (5, 0x78), (6, 0x9C), (4100, 2), (4101, 0x78), (4102, 0x9C)]

theorem startsChunk_twoHeaders {block : Int} (h : block = 0 ∨ block = 1) :
    startsChunk (BlockSource.imageBytes twoHeaders block 1) = true := by
  have hsize : twoHeaders.size = 8192 := size_sparse ..
  rw [startsChunk_imageBytes_iff (by omega) (by omega), twoHeaders, be32_sparse, be32_sparse]
  obtain rfl | rfl := h <;> decide

/-- Three blocks, of which the first and the last start chunks, with zeros between them. -/
def twoHeadersApart : ByteArray :=
  sparse 12288 [(4, 2), (5, 0x78), (6, 0x9C), (8196, 2), (8197, 0x78), (8198, 0x9C)]

theorem size_twoHeadersApart : twoHeadersApart.size = 12288 := size_sparse ..

theorem blocks_twoHeadersApart : ((twoHeadersApart.size / blockSize : Nat) : Int) = 3 := by
  rw [size_twoHeadersApart]
  rfl

theorem startsChunk_twoHeadersApart {block : Int} (h : block = 0 ∨ block = 2) :
    startsChunk (BlockSource.imageBytes twoHeadersApart block 1) = true := by
  have hsize := size_twoHeadersApart
  rw [startsChunk_imageBytes_iff (by omega) (by omega), twoHeadersApart, be32_sparse, be32_sparse]
  obtain rfl | rfl := h <;> decide

theorem octet_twoHeadersApart {i : Nat} (h : 4096 ≤ i ∧ i < 8192) :
    octet twoHeadersApart i = 0 := by
  have hnone : [(4, (2 : UInt8)), (5, 0x78), (6, 0x9C), (8196, 2), (8197, 0x78),
      (8198, 0x9C)].lookup i = none := by
    rw [List.lookup_eq_none_iff]
    simp
    omega
  rw [twoHeadersApart, octet_sparse, if_pos (by omega), hnone]
  rfl

theorem readBlock_twoHeaders {block : Int} (h : block = 0 ∨ block = 1) :
    (BlockSource.inMemory twoHeaders [] 0 {}).readBlock block =
      .ok (BlockSource.imageBytes twoHeaders block 1) := by
  have hsize : twoHeaders.size = 8192 := size_sparse ..
  exact BlockSource.read_inMemory _ _ (by decide) (by omega) (by omega)

/-! ## Sightings ascend -/

/-- One sighting is in front of the other, in an earlier block. -/
def Sighting.IsBelow (a b : Sighting) : Prop := a.block < b.block

namespace Scanner

variable {scanner : Scanner} (hmin : 0x02789CFF < scanner.criteria.minTime)

include hmin

theorem isBelow_classified (block : Int) :
    (scanner.classified block).Pairwise Sighting.IsBelow := by
  have hone : (scanner.classified block).length ≤ 1 := by
    unfold classified
    split
    · simp
    · split
      · simp
      · simpa [sightingsOf] using ScanCriteria.length_reportable_le_one hmin _
  cases hsightings : scanner.classified block with
  | nil => exact .nil
  | cons e rest =>
    cases rest with
    | nil => exact List.pairwise_singleton _ e
    | cons _ _ => simp [hsightings] at hone

theorem isBelow_flatMap_classified {blocks : List Int} (h : blocks.Pairwise (· < ·)) :
    (blocks.flatMap scanner.classified).Pairwise Sighting.IsBelow := by
  refine List.pairwise_flatMap.2 ⟨fun block _ => isBelow_classified hmin block, h.imp ?_⟩
  intro block other hlt a ha e he
  rw [Sighting.IsBelow, (mem_classified ha).1, (mem_classified he).1]
  exact hlt

omit hmin in
/-- A walk delivers no more than there is to see in its blocks. -/
theorem outlook_sublist (scanner : Scanner) (blocks : List Int) :
    (scanner.outlook blocks).sightings.Sublist (blocks.flatMap scanner.classified) := by
  induction blocks with
  | nil => exact .slnil
  | cons block rest ih =>
    rw [outlook, List.flatMap_cons]
    split
    · exact List.nil_sublist _
    · rw [sightingsOf_visit]
      exact ih.append_left _

theorem isBelow_prospect (start stop : Int) :
    (scanner.prospect (.unstarted start stop)).sightings.Pairwise Sighting.IsBelow :=
  (isBelow_flatMap_classified hmin (pairwise_blockRange start stop)).sublist
    (scanner.outlook_sublist _)

theorem isBelow_journey (s : ScanState) (ts : List Turn) :
    ∀ j ∈ (scanner.turns { state := s } ts).journeys,
      j.delivered.Pairwise Sighting.IsBelow := by
  intro j hj
  have hcourse := scanner.onCourse_turns s ts j hj
  rw [hcourse.delivered_eq]
  exact (isBelow_prospect hmin j.start j.stop).sublist (List.take_sublist _ _)

end Scanner

/-- No byte string looks like an offset table and a chunk header, and none looks like a table of
times besides, if the window of the times starts late enough.  So under such a window, which the
default one is, each journey of a scanner sights each block at most once, in ascending order,
however the journeys take turns and whatever becomes of the state that they share. -/
theorem sightings_strictly_ascend :
    (∀ b rejectDuplicates,
      ¬ (isOffsetTable b rejectDuplicates = true ∧ startsChunk b = true)) ∧
    (∀ b rejectDuplicates minTime maxTime, 0x00FFFFFF < minTime →
      ¬ (isOffsetTable b rejectDuplicates = true ∧
        isTimestampTable b minTime maxTime = true)) ∧
    (∀ b minTime maxTime, 0x02789CFF < minTime →
      ¬ (startsChunk b = true ∧ isTimestampTable b minTime maxTime = true)) ∧
    0x02789CFF < earliestTime ∧
    ∀ scanner : Scanner, 0x02789CFF < scanner.criteria.minTime →
      (∀ (s : ScanState) (ts : List Turn), ∀ j ∈ (scanner.turns { state := s } ts).journeys,
        j.delivered.Pairwise Sighting.IsBelow) ∧
      ∀ (s : ScanState) (start stop : Int),
        (scanner.drain (.unstarted start stop) s).sightings.toList.Pairwise Sighting.IsBelow := by
  refine ⟨not_offsets_and_chunk, fun b rejectDuplicates _ _ hmin =>
    not_offsets_and_times hmin b rejectDuplicates, fun b _ _ hmin => not_chunk_and_times hmin b,
    by decide, fun scanner hmin => ⟨Scanner.isBelow_journey hmin, fun s start stop => ?_⟩⟩
  rw [(scanner.drain_eq (.unstarted start stop) s).1]
  exact Scanner.isBelow_prospect hmin start stop

theorem sightings_strictly_ascend_twoHeaders :
    let scanner : Scanner :=
      ⟨.inMemory twoHeaders [] 0 {}, { maxTime := 2000000000, skipSparse := false }⟩
    let delivered := (scanner.drain (.unstarted 0 2) {}).sightings.toList
    0x02789CFF < scanner.criteria.minTime ∧
      delivered = [⟨0, .chunkHeader⟩, ⟨1, .chunkHeader⟩] ∧
      delivered.Pairwise Sighting.IsBelow := by
  intro scanner delivered
  have hmin : 0x02789CFF < scanner.criteria.minTime := by decide
  refine ⟨hmin, ?_, (sightings_strictly_ascend.2.2.2.2 scanner hmin).2 {} 0 2⟩
  have hsees {block : Int} (h : block = 0 ∨ block = 1) :
      scanner.classified block = [⟨block, .chunkHeader⟩] :=
    Scanner.classified_of_startsChunk hmin rfl rfl (readBlock_twoHeaders h)
      (startsChunk_twoHeaders h)
  have hclear : ∀ block ∈ [(0 : Int), 1], scanner.obstacle? block = none := by
    intro block hblock
    exact Scanner.obstacle?_of_readBlock (readBlock_twoHeaders (by simpa using hblock))
  have hrange : blockRange 0 2 = [0, 1] := by decide
  have hdelivered : delivered = _ := (scanner.drain_eq (.unstarted 0 2) {}).1
  rw [hdelivered, Scanner.prospect, hrange, Scanner.outlook_of_clear hclear, List.flatMap_cons,
    List.flatMap_singleton, hsees (.inl rfl), hsees (.inr rfl)]
  rfl

end RegionSalvage
