import RegionSalvage.Proofs.FreeSpace.BlockTable
import RegionSalvage.Proofs.FreeSpace.Dump
import RegionSalvage.Proofs.Scan.Exactness
import RegionSalvage.Proofs.Volume.Selection

/-! # What opens can be carved to the end

How far a scan goes is said by the criteria and by the source, how far a source goes by the size of
its file and by a superblock, and how far a bitmap goes by the geometry of its groups.  None of them
goes beyond what the next one has: all blocks that a scan or a dump comes to are there
(`Volume.Offers.harvest_ending`, `Volume.Offers.written_eq`), and all of them have their bits.
-/

namespace RegionSalvage

namespace Volume

variable {host : Host} {files : FileTree} {path : String} {image : ByteArray} {v : Volume}

namespace Offers

variable {source : BlockSource} {allocation : Option ExtBlockMap}

theorem range_of_mem_itinerary (h : Offers image source allocation) {criteria : ScanCriteria}
    {block : Int} (hblock : block ∈ Scanner.itinerary ⟨source, criteria⟩) :
    0 ≤ block ∧ block < source.blockCount := by
  have hselects := (Scanner.mem_blockRange_bounds criteria source block).1 hblock
  have hfirst := h.firstIndex_nonneg
  rw [ScanCriteria.Selects] at hselects
  omega

theorem readBlock_of_mem_itinerary (h : Offers image source allocation) {criteria : ScanCriteria}
    {block : Int} (hblock : block ∈ Scanner.itinerary ⟨source, criteria⟩) :
    source.readBlock block = .ok (BlockSource.imageBytes image block 1) := by
  obtain ⟨hnonneg, hlast⟩ := h.range_of_mem_itinerary hblock
  exact h.readBlock_eq hnonneg hlast

theorem harvest_eq (h : Offers image source allocation) (criteria : ScanCriteria) (s : ScanState) :
    (Scanner.harvest ⟨source, criteria⟩ s).sightings.toList =
        (Scanner.itinerary ⟨source, criteria⟩).flatMap (Scanner.classified ⟨source, criteria⟩) ∧
      (Scanner.harvest ⟨source, criteria⟩ s).ending = .exhausted :=
  Scanner.harvest_of_clear
    (fun _ hblock => Scanner.obstacle?_of_readBlock (h.readBlock_of_mem_itinerary hblock)) s

theorem written_eq (h : Offers image source allocation) {streams : DumpStreams}
    (hasked : (streams.data || streams.table) = true)
    (hcount : streams.table = true → allocation = none →
      source.blockCount ≤ 0x10000000000000000) :
    (dumpFreeBlocks source streams).written = .ok (Dump.kept source).length := by
  apply Dump.written_of_passes hasked
  intro block hfirst hlast _
  have hnonneg := h.firstIndex_nonneg
  refine ⟨fun htable => ?_, _, h.readBlock_eq (by omega) hlast⟩
  have hbound : source.blockCount ≤ 0x10000000000000000 := by
    cases allocation with
    | none => exact hcount htable rfl
    | some a => exact h.blockCount_le_of_some
  exact BlockTable.holds_iff.2 ⟨by omega, by omega⟩

end Offers

/-- Whatever opens can be carved to the end, while the file stays as it is: no block that a scan
selects is out of range or comes back short, no question about a block goes past the bitmap, and a
dump writes all it is to write.  The entries of a table have 64 bits, which is too few for a flat
image beyond 2⁷⁶ bytes only. -/
theorem carvable_of_openWith {backend : Backend} (h : openWith host files path backend = .ok v) :
    ∃ image, files.read path = .ok image ∧ v.sourceOver image = v.source ∧
      (∀ a, v.allocation = some a → v.source.isAllocated = a.isAllocated ∧
        ∀ block, ∃ used, a.isAllocated? block = some used) ∧
      (∀ criteria : ScanCriteria,
        (∀ block ∈ Scanner.itinerary ⟨v.source, criteria⟩,
          v.source.readBlock block = .ok (BlockSource.imageBytes image block 1)) ∧
        ∀ s, (Scanner.harvest ⟨v.source, criteria⟩ s).ending = .exhausted) ∧
      ∀ streams : DumpStreams, (streams.data || streams.table) = true →
        (streams.table = true → v.allocation = none →
          v.source.blockCount ≤ 0x10000000000000000) →
        (dumpFreeBlocks v.source streams).written = .ok (Dump.kept v.source).length := by
  obtain ⟨image, hread, hoffers⟩ := offers_of_openWith h
  refine ⟨image, hread, hoffers.sourceOver_eq, fun a ha => ?_, fun criteria => ⟨?_, ?_⟩, ?_⟩
  · exact (ha ▸ hoffers).isAllocated_eq
  · exact fun _ hblock => hoffers.readBlock_of_mem_itinerary hblock
  · exact fun s => (hoffers.harvest_eq criteria s).2
  · exact fun _ hasked hcount => hoffers.written_eq hasked hcount

/-! ## A file system that begins late -/

theorem openWith_ext_of_readable (hread : files.read path = .ok image)
    (hmarked : OnDisk.Marked image) (hreadable : OnDisk.Readable image host.access) :
    ∃ v, openWith host files path .ext = .ok v ∧ v.source.blockCount =
      min (OnDisk.totalBlocks image : Int) (image.size / blockSize : Nat) := by
  obtain ⟨v, hv, -, hcount⟩ := exists_extImage hmarked hreadable
  exact ⟨v, by simp only [openWith, openWith.withImage, openWith.asExt, hread, hv], hcount⟩

def lateContents : List (Nat × UInt8) :=
  [(1028, 6), (1044, 4), (1048, 2), (1056, 8), (1080, 0x53), (1081, 0xEF),
    (12292, 2), (12293, 0x78), (12294, 0x9C), (16388, 2), (16389, 0x78), (16390, 0x9C)]

/-- An image of five blocks with a file system of blocks 4 and 5, so that the last of them is
missing and so are the descriptors.  Blocks 3 and 4 start chunks. -/
def lateStart : ByteArray := sparse 20480 lateContents

theorem size_lateStart : lateStart.size = 20480 := size_sparse ..

theorem marked_lateStart : OnDisk.Marked lateStart where
  size_ge := by rw [size_lateStart]; decide
  magic := by rw [lateStart, le16_sparse]; decide
  exponent_eq := by rw [lateStart, le32_sparse]; decide

theorem is64Bit_lateStart : OnDisk.is64Bit lateStart = false := by
  rw [OnDisk.is64Bit, lateStart, le32_sparse]
  decide

theorem firstDataBlock_lateStart : OnDisk.firstDataBlock lateStart = 4 := by
  rw [OnDisk.firstDataBlock, lateStart, le32_sparse]
  decide

theorem totalBlocks_lateStart : OnDisk.totalBlocks lateStart = 6 := by
  rw [OnDisk.totalBlocks, OnDisk.isExtended, is64Bit_lateStart, Bool.false_and, lateStart,
    le32_sparse]
  decide

theorem blocksPerGroup_lateStart : OnDisk.blocksPerGroup lateStart = 8 := by
  rw [OnDisk.blocksPerGroup, lateStart, le32_sparse]
  decide

theorem readable_lateStart : OnDisk.Readable lateStart .mapped := by
  apply marked_lateStart.readable is64Bit_lateStart
  · rw [blocksPerGroup_lateStart]
    decide
  · rw [blocksPerGroup_lateStart]
  · rw [firstDataBlock_lateStart, totalBlocks_lateStart]
    decide

theorem openWith_ext_lateStart :
    ∃ v, openWith {} (treeOf lateStart) "d" .ext = .ok v ∧ v.source.blockCount = 5 := by
  have hreadable : OnDisk.Readable lateStart (Host.access {}) := readable_lateStart
  obtain ⟨v, hopen, hcount⟩ :=
    openWith_ext_of_readable (read_treeOf lateStart) marked_lateStart hreadable
  rw [totalBlocks_lateStart, size_lateStart] at hcount
  exact ⟨v, hopen, hcount⟩

theorem carvable_lateStart :
    ∃ v, openWith {} (treeOf lateStart) "d" .ext = .ok v ∧ v.source.blockCount = 5 ∧
      (Scanner.harvest ⟨v.source, { maxTime := 0, startBlock := some (-7) }⟩ {}).ending =
        .exhausted ∧
      (dumpFreeBlocks v.source ⟨true, true⟩).written = .ok (Dump.kept v.source).length := by
  obtain ⟨v, hopen, hcount⟩ := openWith_ext_lateStart
  obtain ⟨image, -, -, -, hscan, hdump⟩ := carvable_of_openWith hopen
  have hbound : v.source.blockCount ≤ 0x10000000000000000 := by omega
  exact ⟨v, hopen, hcount, (hscan _).2 {}, hdump ⟨true, true⟩ rfl fun _ _ => hbound⟩

end Volume

end RegionSalvage
