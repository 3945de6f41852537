import RegionSalvage.Proofs.Block.Reading
import RegionSalvage.Proofs.Region.Density
import RegionSalvage.Proofs.Scan.Exactness

/-! # What is lost with sparse sectors

A scan that drops sparse sectors may drop a table with few slots.  At the default threshold no
offset table is lost but one of four slots whose sector has less than ten bytes that are not zero;
`Scanner.sights_offsets_iff` says this of every scan and every block that it comes to, and
`Scanner.misses_fourSlots` has such a table.
-/

namespace RegionSalvage

namespace SectorKinds

theorem offsets_mem_parts_iff {k : SectorKinds} : .offsets ∈ k.parts ↔ k.offsets = true := by
  obtain ⟨_, timestamps, offsets, chunkHeader⟩ := k
  cases timestamps <;> cases offsets <;> cases chunkHeader <;> simp [parts]

end SectorKinds

namespace Scanner

variable {scanner : Scanner}

/-! ## What a scan comes to -/

/-- The scan selects the block, and nothing in front of it stops the scan. -/
def Reaches (scanner : Scanner) (block : Int) : Prop :=
  block ∈ scanner.itinerary ∧
    ∀ b ∈ scanner.itinerary, b < block → scanner.obstacle? b = none

theorem obstacle?_of_mem_classified {e : Sighting} {block : Int}
    (h : e ∈ scanner.classified block) : scanner.obstacle? block = none := by
  obtain ⟨-, -, bytes, hread⟩ := mem_classified h
  exact obstacle?_of_readBlock hread

/-- A scan delivers what there is to see in the blocks that it comes to. -/
theorem mem_harvest_iff {e : Sighting} (s : ScanState) :
    e ∈ (scanner.harvest s).sightings.toList ↔
      scanner.Reaches e.block ∧ e ∈ scanner.classified e.block := by
  have hascends : scanner.itinerary.Pairwise (· < ·) := pairwise_blockRange _ _
  have hown {blocks : List Int} : e ∈ blocks.flatMap scanner.classified ↔
      e.block ∈ blocks ∧ e ∈ scanner.classified e.block := by
    rw [List.mem_flatMap]
    constructor
    · rintro ⟨block, hblock, he⟩
      rw [(mem_classified he).1]
      exact ⟨hblock, he⟩
    · rintro ⟨hblock, he⟩
      exact ⟨e.block, hblock, he⟩
  rw [(scanner.harvest_eq s).1]
  -- Either nothing stops the scan, or it comes as far as the first obstacle.
  rcases scanner.outlook_ascending 0 0 hascends {} with ⟨hclear, houtlook, -⟩ |
    ⟨block, hmem, error, hobstacle, hclear, houtlook, -⟩
  · rw [houtlook, hown]
    refine and_congr_left fun _ => ⟨fun hblock => ⟨hblock, ?_⟩, And.left⟩
    exact fun b hb _ => hclear b hb
  · rw [houtlook, hown, List.mem_filter, decide_eq_true_iff]
    refine and_congr_left fun he => ⟨?_, ?_⟩
    · rintro ⟨hblock, hlt⟩
      exact ⟨hblock, fun b hb hbelow => hclear b hb (Int.lt_trans hbelow hlt)⟩
    · -- The obstacle is neither in front of a block that is reached nor at one that is sighted.
      rintro ⟨hblock, hreached⟩
      refine ⟨hblock, lt_of_le_of_ne (Int.le_of_not_gt fun hlt => ?_) fun heq => ?_⟩
      · exact nomatch (hreached block hmem hlt).symm.trans hobstacle
      · rw [heq] at he
        exact nomatch (obstacle?_of_mem_classified he).symm.trans hobstacle

/-! ## Offset tables -/

theorem offsets_mem_classified_iff {block : Int} {bytes : ByteArray}
    (hfree : scanner.source.isAllocated block = false)
    (hread : scanner.source.readBlock block = .ok bytes)
    (htable : isOffsetTable bytes scanner.criteria.rejectDuplicates = true) :
    ⟨block, .offsets⟩ ∈ scanner.classified block ↔
      ¬ (scanner.criteria.skipSparse = true ∧
        isSparse bytes scanner.criteria.sparseThreshold scanner.criteria.sparseUnit = true) := by
  have hmem (parts : List RegionPart) :
      ⟨block, .offsets⟩ ∈ sightingsOf block parts ↔ .offsets ∈ parts := by
    simp [sightingsOf]
  have hkind : (scanner.criteria.kindsOf bytes).offsets = true := htable
  simp only [classified, hfree, hread, Bool.false_eq_true, if_false, hmem]
  rw [ScanCriteria.reportable, ← Bool.and_eq_true_iff]
  change _ ∈ (if scanner.criteria.skipSparse && isSparse bytes _ _ then [] else _) ↔ _
  split
  · next hdropped => simp [hdropped]
  · next hkept => simp [hkept, SectorKinds.offsets_mem_parts_iff, hkind]

/-- At the default sparseness, every offset table in a free, readable block has eight bytes that
are not zero, and a scan that comes to it sights it, unless just four of its slots are populated and
less than ten of its bytes are not zero: then it is passed over as sparse. -/
theorem sights_offsets_iff (source : BlockSource) (criteria : ScanCriteria) (s : ScanState)
    {block : Int} {bytes : ByteArray} (hfree : source.isAllocated block = false)
    (hread : source.readBlock block = .ok bytes) (htable : isOffsetTable bytes true = true) :
    let scanner : Scanner := ⟨source, { criteria with
      skipSparse := true, sparseThreshold := defaultSparseThreshold, sparseUnit := .byte }⟩
    8 ≤ nonzeroCount bytes .byte ∧
      (scanner.visit block = .found .sparse ↔
        populatedSlots bytes = 4 ∧ nonzeroCount bytes .byte < 10) ∧
      (⟨block, .offsets⟩ ∈ (scanner.harvest s).sightings.toList ↔
        scanner.Reaches block ∧
          ¬ (populatedSlots bytes = 4 ∧ nonzeroCount bytes .byte < 10)) := by
  intro scanner
  obtain ⟨hdense, hsparse⟩ := isSparse_offsetTable_iff htable
  have hsparse : isSparse bytes scanner.criteria.sparseThreshold scanner.criteria.sparseUnit =
      true ↔ populatedSlots bytes = 4 ∧ nonzeroCount bytes .byte < 10 := hsparse
  refine ⟨hdense, ?_, ?_⟩
  · have hvisit : scanner.visit block = .found (scanner.criteria.findings bytes) := by
      have hfree : scanner.source.isAllocated block = false := hfree
      have hread : scanner.source.readBlock block = .ok bytes := hread
      simp only [visit, hfree, hread, Bool.false_eq_true, if_false]
    have hskip : scanner.criteria.skipSparse = true := rfl
    rw [hvisit, ← hsparse, ScanCriteria.findings, hskip, Bool.true_and]
    split
    · next hdropped => exact iff_of_true rfl hdropped
    · next hkept =>
      refine iff_of_false (fun heq => ?_) hkept
      cases heq
  · -- A table that is not dropped as sparse is sighted when the walk comes to it.
    have hsees : ⟨block, .offsets⟩ ∈ scanner.classified block ↔ _ :=
      offsets_mem_classified_iff hfree hread
        (isOffsetTable_of_reject htable criteria.rejectDuplicates)
    rw [hsparse, and_iff_right (show scanner.criteria.skipSparse = true from rfl)] at hsees
    rw [mem_harvest_iff, hsees]

end Scanner

/-! ## Tables of four slots -/

/-- A sector with a table of four slots; the offsets of the last two have a byte to choose. -/
def fourSlots (high : UInt8) : ByteArray :=
  padZeros 4080 ⟨#[0, 0, 2, 1, 0, 0, 3, 1, 0, high, 4, 1, 0, high, 5, 1]⟩

theorem size_fourSlots (high : UInt8) : (fourSlots high).size = 4096 := size_padZeros ..

theorem tableFields_fourSlots (high : UInt8) : tableFields (fourSlots high) =
    (List.range 1024).map fun i =>
      be32 ⟨#[0, 0, 2, 1, 0, 0, 3, 1, 0, high, 4, 1, 0, high, 5, 1]⟩ (4 * i) := by
  have hfields : min blockSize 4096 / 4 = 1024 := rfl
  rw [tableFields_eq, size_fourSlots, hfields]
  simp only [be32, fourSlots, octet_padZeros]

theorem isOffsetTable_fourSlots {high : UInt8} (h : high = 0 ∨ high = 1) :
    isOffsetTable (fourSlots high) true = true := by
  rw [isOffsetTable, tableFields_fourSlots]
  obtain rfl | rfl := h <;> decide +kernel

theorem populatedSlots_fourSlots {high : UInt8} (h : high = 0 ∨ high = 1) :
    populatedSlots (fourSlots high) = 4 := by
  rw [populatedSlots, tableFields_fourSlots]
  obtain rfl | rfl := h <;> decide +kernel

theorem nonzeroCount_padZeros (n : Nat) (b : ByteArray) :
    nonzeroCount (padZeros n b) .byte = nonzeroCount b .byte := by
  induction n generalizing b with
  | zero => rfl
  | succ n ih =>
    rw [padZeros, ih]
    exact Array.countP_push_of_neg (by decide)

/-- An image of one block is that block. -/
theorem readBlock_of_size {image : ByteArray} (hsize : image.size = 4096) :
    (BlockSource.inMemory image [] 0 {}).readBlock 0 = .ok image := by
  have hwhole := slice_append_left image .empty
  rw [ByteArray.append_empty, hsize] at hwhole
  rw [BlockSource.readBlock, BlockSource.read_inMemory [] 0 (by decide) (by decide) (by omega)]
  exact congrArg Except.ok hwhole

theorem nonzeroCount_fourSlots (high : UInt8) : nonzeroCount (fourSlots high) .byte =
    nonzeroCount ⟨#[0, 0, 2, 1, 0, 0, 3, 1, 0, high, 4, 1, 0, high, 5, 1]⟩ .byte :=
  nonzeroCount_padZeros ..

namespace Scanner

/-- A scan of one block comes to it. -/
theorem reaches_of_size {image : ByteArray} (hsize : image.size = 4096) (criteria : ScanCriteria)
    (hstart : criteria.startBlock = none) (hmax : criteria.maxBlock = none) :
    Reaches ⟨.inMemory image [] 0 {}, criteria⟩ 0 := by
  have hbounds : criteria.bounds (.inMemory image [] 0 {}) = (0, 1) := by
    simp only [ScanCriteria.bounds, hstart, hmax, BlockSource.inMemory, hsize]
    rfl
  refine ⟨?_, fun b hb hbelow => ?_⟩
  · rw [itinerary, hbounds, mem_blockRange]
    decide
  · rw [itinerary, hbounds, mem_blockRange] at hb
    omega

theorem sights_offsets_iff_fourSlots :
    let source := BlockSource.inMemory (fourSlots 1) [] 0 {}
    let scanner : Scanner := ⟨source, { maxTime := 2000000000 }⟩
    source.isAllocated 0 = false ∧ source.readBlock 0 = .ok (fourSlots 1) ∧
      isOffsetTable (fourSlots 1) true = true ∧
      populatedSlots (fourSlots 1) = 4 ∧ nonzeroCount (fourSlots 1) .byte = 10 ∧
      ⟨0, .offsets⟩ ∈ (scanner.harvest {}).sightings.toList := by
  have hread := readBlock_of_size (size_fourSlots 1)
  have htable := isOffsetTable_fourSlots (.inr rfl)
  have hbytes : nonzeroCount (fourSlots 1) .byte = 10 := by
    rw [nonzeroCount_fourSlots]
    decide
  have hslots := populatedSlots_fourSlots (.inr rfl : (1 : UInt8) = 0 ∨ (1 : UInt8) = 1)
  have hreached := reaches_of_size (size_fourSlots 1) { maxTime := 2000000000 } rfl rfl
  -- From here on the bytes are not looked at.
  generalize fourSlots 1 = image at *
  obtain ⟨-, -, hsights⟩ := sights_offsets_iff (.inMemory image [] 0 {})
    { maxTime := 2000000000 } {} rfl hread htable
  rw [hbytes] at hsights
  exact ⟨rfl, hread, htable, hslots, hbytes,
    hsights.2 ⟨hreached, fun hdropped => absurd hdropped.2 (by decide)⟩⟩

/-- A scan with the default settings comes to a free block with an offset table, and does not see
it. -/
theorem misses_fourSlots :
    let source := BlockSource.inMemory (fourSlots 0) [] 0 {}
    let scanner : Scanner := ⟨source, { maxTime := 2000000000 }⟩
    source.isAllocated 0 = false ∧ source.readBlock 0 = .ok (fourSlots 0) ∧
      isOffsetTable (fourSlots 0) true = true ∧ scanner.Reaches 0 ∧
      ⟨0, .offsets⟩ ∉ (scanner.harvest {}).sightings.toList := by
  intro source scanner
  have hread := readBlock_of_size (size_fourSlots 0)
  have htable := isOffsetTable_fourSlots (.inl rfl)
  refine ⟨rfl, hread, htable, reaches_of_size (size_fourSlots 0) _ rfl rfl, ?_⟩
  have hsparse : isSparse (fourSlots 0) defaultSparseThreshold .byte = true := by
    rw [isSparse, nonzeroCount_fourSlots]
    decide
  have hsees : ⟨0, .offsets⟩ ∈ scanner.classified 0 ↔ _ :=
    offsets_mem_classified_iff rfl hread htable
  rw [mem_harvest_iff, hsees]
  exact fun hsighted => hsighted.2 ⟨rfl, hsparse⟩

end Scanner

end RegionSalvage
