import RegionSalvage.Proofs.FreeSpace.BlockTable
import RegionSalvage.Proofs.FreeSpace.Dump
import RegionSalvage.Proofs.Region.Blank
import RegionSalvage.Proofs.Scan.Ascent

/-! # A dump is scanned like its source

The blocks that a dump keeps stand back to back in its data.  A scan of the data sees at the place of
each of them what a scan of the source sees in the block itself, and the blocks that are left out
are those in which no scan sees anything.
-/

namespace RegionSalvage

/-- A sighting in the data of a dump, as one in the blocks that the dump was made of. -/
def Sighting.tracedBack (ids : List Nat) (e : Sighting) : Sighting :=
  { e with block := ids.getD e.block.toNat 0 }

theorem tracedBack_sightingsOf {ids : List Nat} {i id : Nat} (h : ids[i]? = some id)
    (parts : List RegionPart) :
    (sightingsOf i parts).map (·.tracedBack ids) = sightingsOf id parts := by
  rw [sightingsOf, List.map_map]
  apply List.map_congr_left
  intro part _
  simp [Sighting.tracedBack, h]

/-- Each free block in the range of the source can be read, and its number is not negative. -/
def BlockSource.Accessible (source : BlockSource) : Prop :=
  ∀ block, source.firstIndex ≤ block → block < source.blockCount →
    source.isAllocated block = false → 0 ≤ block ∧ ∃ bytes, source.readBlock block = .ok bytes

namespace Scanner

variable {source : BlockSource} {blocks : List Int} {data : ByteArray}

/-! ## Blocks back to back -/

theorem classified_backToBack (criteria : ScanCriteria)
    (hread : source.readBlocks blocks = .ok data) {i : Nat} {block : Int}
    (hblock : blocks[i]? = some block) (hfree : source.isAllocated block = false)
    (hnonneg : 0 ≤ block) :
    (classified ⟨.inMemory data [] 0 {}, criteria⟩ i).map
        (·.tracedBack (blocks.map Int.toNat)) = classified ⟨source, criteria⟩ block := by
  have hid : (blocks.map Int.toNat)[i]? = some block.toNat := by
    rw [List.getElem?_map, hblock]
    rfl
  have hplace := BlockSource.readBlock_backToBack hread hblock
  have hbytes := BlockSource.readBlock_of_readBlocks hread hblock
  have hempty : BlockSource.isAllocated (.inMemory data [] 0 {}) i = false := rfl
  simp only [classified, hempty, hfree, hplace, hbytes, Bool.false_eq_true, if_false]
  rw [tracedBack_sightingsOf hid, Int.toNat_of_nonneg hnonneg]

theorem itinerary_backToBack {criteria : ScanCriteria} (hstart : criteria.startBlock = none)
    (hstop : criteria.maxBlock = none) (hread : source.readBlocks blocks = .ok data) :
    itinerary ⟨.inMemory data [] 0 {}, criteria⟩ = consecutive 0 blocks.length := by
  have hsize : data.size = 4096 * blocks.length := BlockSource.size_readBlocks hread
  have hcount : data.size / blockSize = blocks.length := by
    rw [hsize]
    exact Nat.mul_div_cancel_left _ (by decide)
  have hbounds : criteria.bounds (.inMemory data [] 0 {}) = (0, (blocks.length : Int)) := by
    simp only [ScanCriteria.bounds, hstart, hstop, BlockSource.inMemory, hcount]
    rw [Int.max_eq_right (by omega)]
  rw [itinerary, hbounds, blockRange, Int.sub_zero, Int.toNat_natCast]

theorem collect_backToBack {criteria : ScanCriteria} (hstart : criteria.startBlock = none)
    (hstop : criteria.maxBlock = none) (hread : source.readBlocks blocks = .ok data)
    (hblocks : ∀ block ∈ blocks, source.isAllocated block = false ∧ 0 ≤ block) :
    ∃ found, collect ⟨.inMemory data [] 0 {}, criteria⟩ = .ok found ∧
      (∀ e ∈ found, 0 ≤ e.block ∧ e.block < blocks.length) ∧
      found.map (·.tracedBack (blocks.map Int.toNat)) =
        blocks.flatMap (classified ⟨source, criteria⟩) := by
  have hitinerary := itinerary_backToBack hstart hstop hread
  refine ⟨_, collect_of_clear ?_, ?_, ?_⟩
  · intro i hi
    rw [hitinerary] at hi
    obtain ⟨n, hn, rfl⟩ := mem_consecutive_zero.1 hi
    -- Block `n` of the data is the block of place `n` in the list.
    have hplace := BlockSource.readBlock_backToBack hread (List.getElem?_eq_getElem hn)
    have hbytes := BlockSource.readBlock_of_readBlocks hread (List.getElem?_eq_getElem hn)
    exact obstacle?_of_readBlock (hplace.trans hbytes)
  · intro e he
    obtain ⟨i, hi, hei⟩ := List.mem_flatMap.1 he
    rw [hitinerary] at hi
    rw [(mem_classified hei).1]
    have hrange := mem_consecutive.1 hi
    omega
  · rw [hitinerary, List.map_flatMap]
    apply flatMap_consecutive
    intro i block hblock
    obtain ⟨hfree, hnonneg⟩ := hblocks block (List.mem_of_getElem? hblock)
    exact classified_backToBack criteria hread hblock hfree hnonneg

/-! ## Blocks that are left out -/

theorem classified_of_not_kept {block : Int} (h : Dump.keeps source block = false)
    (criteria : ScanCriteria) : classified ⟨source, criteria⟩ block = [] := by
  simp only [classified]
  cases hfree : source.isAllocated block with
  | true => rfl
  | false =>
    cases hread : source.readBlock block with
    | error e => rfl
    | ok bytes =>
      -- The block is free and can be read, so it is zeros that a dump leaves it out for.
      simp only [Dump.keeps, hfree, hread, Bool.not_false, Bool.true_and,
        Bool.not_eq_false'] at h
      simp only [Bool.false_eq_true, if_false, criteria.reportable_of_isZeroBlock h]
      rfl

theorem flatMap_filter {α β : Type} {p : α → Bool} {f : α → List β} {xs : List α}
    (h : ∀ x ∈ xs, p x = false → f x = []) : (xs.filter p).flatMap f = xs.flatMap f := by
  induction xs with
  | nil => rfl
  | cons x rest ih =>
    have hrest := ih fun y hy => h y (List.mem_cons_of_mem x hy)
    cases hp : p x with
    | true => rw [List.filter_cons_of_pos hp, List.flatMap_cons, List.flatMap_cons, hrest]
    | false =>
      rw [List.filter_cons_of_neg (by rw [hp]; decide), hrest, List.flatMap_cons,
        h x List.mem_cons_self hp, List.nil_append]

theorem obstacle?_of_accessible (h : source.Accessible) (criteria : ScanCriteria) {block : Int}
    (hblock : block ∈ itinerary ⟨source, criteria⟩) :
    obstacle? ⟨source, criteria⟩ block = none := by
  have hselects := (mem_blockRange_bounds criteria source block).1 hblock
  rw [ScanCriteria.Selects] at hselects
  cases hfree : source.isAllocated block with
  | true => simp [obstacle?, hfree]
  | false =>
    obtain ⟨-, bytes, hbytes⟩ := h block (by omega) (by omega) hfree
    exact obstacle?_of_readBlock hbytes

/-- A scan of the whole source sees what there is to see in the blocks that a dump keeps. -/
theorem collect_of_accessible (h : source.Accessible) {criteria : ScanCriteria}
    (hstart : criteria.startBlock = none) (hstop : criteria.maxBlock = none) :
    collect ⟨source, criteria⟩ =
      .ok ((Dump.kept source).flatMap (classified ⟨source, criteria⟩)) := by
  have hitinerary : itinerary ⟨source, criteria⟩ =
      blockRange source.firstIndex source.blockCount := by
    simp only [itinerary, ScanCriteria.bounds, hstart, hstop, blockRange]
    congr 1
    omega
  rw [collect_of_clear fun block => obstacle?_of_accessible h criteria, hitinerary, Dump.kept,
    flatMap_filter fun block _ hnot => classified_of_not_kept hnot criteria]

/-- No scan at all sees anything in the other blocks. -/
theorem mem_kept_of_collect (h : source.Accessible) (criteria : ScanCriteria) :
    ∃ found, collect ⟨source, criteria⟩ = .ok found ∧
      ∀ e ∈ found, e.block ∈ Dump.kept source := by
  refine ⟨_, collect_of_clear fun block => obstacle?_of_accessible h criteria, ?_⟩
  intro e he
  obtain ⟨block, hblock, hclassified⟩ := List.mem_flatMap.1 he
  have hselects := (mem_blockRange_bounds criteria source block).1 hblock
  rw [ScanCriteria.Selects] at hselects
  rw [(mem_classified hclassified).1]
  apply List.mem_filter.2
  refine ⟨mem_blockRange.2 ⟨by omega, by omega⟩, ?_⟩
  cases hkeeps : Dump.keeps source block with
  | true => rfl
  | false =>
    rw [classified_of_not_kept hkeeps] at hclassified
    cases hclassified

end Scanner

/-- A dump can go on at each block of an accessible source. -/
theorem Dump.passable_of_accessible {source : BlockSource} (hcount : source.blockCount ≤ 2 ^ 64)
    (haccess : source.Accessible) {block : Int} (hfirst : source.firstIndex ≤ block)
    (hlast : block < source.blockCount) : Dump.Passable source block := by
  intro hfree
  obtain ⟨hnonneg, hbytes⟩ := haccess block hfirst hlast hfree
  exact ⟨BlockTable.holds_iff.2 ⟨hnonneg, by omega⟩, hbytes⟩

/-- Of a source whose free blocks can all be read and numbered, a dump is complete.  Its table names
the free blocks that are not zeros; a scan of its data brings what a scan of the source brings,
each sighting at its place in the table; and no scan of the source, of whatever part of it, sees
anything in a block that the dump has left out. -/
theorem collect_dumpFreeBlocks {source : BlockSource} (hcount : source.blockCount ≤ 2 ^ 64)
    (haccess : source.Accessible) :
    ∃ data table : ByteArray,
      let ids := BlockTable.decode table
      dumpFreeBlocks source ⟨true, true⟩ =
        { written := .ok ids.length, data := some data, table := some table } ∧
      (∀ block : Int, (∃ id ∈ ids, (id : Int) = block) ↔
        source.firstIndex ≤ block ∧ block < source.blockCount ∧
          source.isAllocated block = false ∧
            ∃ bytes, source.readBlock block = .ok bytes ∧ isZeroBlock bytes = false) ∧
      (∀ criteria : ScanCriteria, criteria.startBlock = none → criteria.maxBlock = none →
        ∃ found, Scanner.collect ⟨.inMemory data [] 0 {}, criteria⟩ = .ok found ∧
          (∀ e ∈ found, 0 ≤ e.block ∧ e.block < ids.length) ∧
          Scanner.collect ⟨source, criteria⟩ = .ok (found.map (·.tracedBack ids))) ∧
      ∀ criteria : ScanCriteria, ∃ found, Scanner.collect ⟨source, criteria⟩ = .ok found ∧
        ∀ e ∈ found, ∃ id ∈ ids, (id : Int) = e.block := by
  have hpassable : ∀ block, source.firstIndex ≤ block → block < source.blockCount →
      Dump.Passable source block :=
    fun _ => Dump.passable_of_accessible hcount haccess
  obtain ⟨data, hread, hdump⟩ := Dump.dumpFreeBlocks_of_passable hpassable
  have hkept : ∀ block ∈ Dump.kept source, source.isAllocated block = false ∧ 0 ≤ block ∧
      BlockTable.holds block = true := by
    intro block hblock
    obtain ⟨hfirst, hlast, hfree, -⟩ := Dump.mem_kept.1 hblock
    exact ⟨hfree, (haccess block hfirst hlast hfree).1, (hpassable block hfirst hlast hfree).1⟩
  -- The table says which blocks these are, because their numbers fit into it.
  have hids := BlockTable.decode_encode fun block hblock => (hkept block hblock).2.2
  have hmem (block : Int) :
      (∃ id ∈ (Dump.kept source).map Int.toNat, (id : Int) = block) ↔ block ∈ Dump.kept source := by
    constructor
    · rintro ⟨id, hid, rfl⟩
      obtain ⟨block, hblock, rfl⟩ := List.mem_map.1 hid
      rwa [Int.toNat_of_nonneg (hkept block hblock).2.1]
    · intro hblock
      exact ⟨_, List.mem_map_of_mem hblock, Int.toNat_of_nonneg (hkept block hblock).2.1⟩
  refine ⟨data, BlockTable.encode (Dump.kept source), ?_⟩
  simp only [hids, List.length_map]
  refine ⟨hdump, fun block => (hmem block).trans Dump.mem_kept, ?_, fun criteria => ?_⟩
  · intro criteria hstart hstop
    obtain ⟨found, hfound, hrange, htraced⟩ := Scanner.collect_backToBack hstart hstop hread
      fun block hblock => ⟨(hkept block hblock).1, (hkept block hblock).2.1⟩
    exact ⟨found, hfound, hrange, by rw [Scanner.collect_of_accessible haccess hstart hstop, htraced]⟩
  · obtain ⟨found, hfound, hblocks⟩ := Scanner.mem_kept_of_collect haccess criteria
    exact ⟨found, hfound, fun e he => (hmem e.block).2 (hblocks e he)⟩

theorem accessible_inMemory (image : ByteArray) (allocated : List Int) {first : Int}
    (hfirst : 0 ≤ first) : (BlockSource.inMemory image allocated first {}).Accessible := by
  intro block hblock hlast _
  change first ≤ block at hblock
  change block < (image.size / blockSize : Nat) at hlast
  unfold blockSize at hlast
  exact ⟨by omega, _, BlockSource.read_inMemory _ _ (by decide) (by omega) (by omega)⟩

/-! ### A dump of one block -/

theorem blockCount_twoHeadersApart_used :
    (BlockSource.inMemory twoHeadersApart [0] 0 {}).blockCount = 3 := blocks_twoHeadersApart

theorem readBlock_twoHeadersApart_used {block : Int} (hnonneg : 0 ≤ block) (hlast : block < 3) :
    (BlockSource.inMemory twoHeadersApart [0] 0 {}).readBlock block =
      .ok (BlockSource.imageBytes twoHeadersApart block 1) := by
  have hsize := size_twoHeadersApart
  exact BlockSource.read_inMemory _ _ (by decide) hnonneg (by omega)

theorem isZeroBlock_between_twoHeadersApart :
    isZeroBlock (BlockSource.imageBytes twoHeadersApart 1 1) = true := by
  apply isZeroBlock_iff.2
  intro i
  by_cases hi : i < 4096
  · rw [BlockSource.imageBytes, octet_slice (by omega)]
    exact octet_twoHeadersApart (by omega)
  · exact octet_of_le (by rw [BlockSource.imageBytes, size_slice]; omega)

theorem kept_twoHeadersApart : Dump.kept (.inMemory twoHeadersApart [0] 0 {}) = [2] := by
  have hcount := blockCount_twoHeadersApart_used
  have hblank := readBlock_twoHeadersApart_used (show (0 : Int) ≤ 1 by decide) (by decide)
  have hfound := readBlock_twoHeadersApart_used (show (0 : Int) ≤ 2 by decide) (by decide)
  have hzero := isZeroBlock_between_twoHeadersApart
  have hnonzero : isZeroBlock (BlockSource.imageBytes twoHeadersApart 2 1) = false := by
    apply Bool.eq_false_iff.2
    intro h
    have hnone := startsChunk_of_isZeroBlock h
    rw [startsChunk_twoHeadersApart (.inr rfl)] at hnone
    cases hnone
  generalize twoHeadersApart = image at hcount hblank hfound hzero hnonzero ⊢
  -- The first block is in use, and the one behind it is blank.
  have hkeeps₀ : Dump.keeps (.inMemory image [0] 0 {}) 0 = false := rfl
  have hkeeps₁ : Dump.keeps (.inMemory image [0] 0 {}) 1 = false := by
    simp [Dump.keeps, hblank, hzero]
  have hkeeps₂ : Dump.keeps (.inMemory image [0] 0 {}) 2 = true :=
    Dump.keeps_iff.2 ⟨rfl, _, hfound, hnonzero⟩
  have hrange : blockRange (BlockSource.inMemory image [0] 0 {}).firstIndex
      (BlockSource.inMemory image [0] 0 {}).blockCount = [0, 1, 2] := by
    rw [hcount]
    rfl
  rw [Dump.kept, hrange]
  simp [hkeeps₀, hkeeps₁, hkeeps₂]

/-- The first block is in use and the second is zeros, so the third is all that a dump keeps; what is
seen in block 0 of the data is a sighting of block 2. -/
theorem collect_dumpFreeBlocks_twoHeadersApart :
    let source := BlockSource.inMemory twoHeadersApart [0] 0 {}
    let criteria : ScanCriteria := { maxTime := 2000000000, skipSparse := false }
    source.blockCount ≤ 2 ^ 64 ∧ source.Accessible ∧
      ∃ data table, dumpFreeBlocks source ⟨true, true⟩ =
          { written := .ok 1, data := some data, table := some table } ∧
        BlockTable.decode table = [2] ∧
        Scanner.collect ⟨.inMemory data [] 0 {}, criteria⟩ = .ok [⟨0, .chunkHeader⟩] ∧
        Scanner.collect ⟨source, criteria⟩ = .ok [⟨2, .chunkHeader⟩] := by
  have hcount := blockCount_twoHeadersApart_used
  have hread := readBlock_twoHeadersApart_used (show (0 : Int) ≤ 2 by decide) (by decide)
  have hchunk := startsChunk_twoHeadersApart (.inr rfl)
  have hkept := kept_twoHeadersApart
  generalize twoHeadersApart = image at hcount hread hchunk hkept ⊢
  intro source criteria
  have haccess : source.Accessible := accessible_inMemory image [0] (by decide)
  have hbound : source.blockCount ≤ 2 ^ 64 := by
    change (BlockSource.inMemory image [0] 0 {}).blockCount ≤ 2 ^ 64
    omega
  have hsees : Scanner.classified ⟨source, criteria⟩ 2 = [⟨2, .chunkHeader⟩] :=
    Scanner.classified_of_startsChunk (show 0x02789CFF < earliestTime by decide) rfl rfl hread
      hchunk
  have hsource : Scanner.collect ⟨source, criteria⟩ = .ok [⟨2, .chunkHeader⟩] := by
    rw [Scanner.collect_of_accessible haccess rfl rfl, hkept, List.flatMap_singleton, hsees]
  obtain ⟨data, table, hdump, -, hscan, -⟩ := collect_dumpFreeBlocks hbound haccess
  have hids : BlockTable.decode table = [2] := by
    have htable := Dump.table_of_passable fun _ => Dump.passable_of_accessible hbound haccess
    rw [hdump, hkept] at htable
    rw [Option.some.inj htable]
    rfl
  obtain ⟨found, hfound, hinside, htraced⟩ := hscan criteria rfl rfl
  rw [hids] at hdump hinside htraced
  -- The only sighting of the source is traced back from the only block of the data.
  rw [hsource, Except.ok.injEq] at htraced
  obtain ⟨e, rfl, he⟩ := List.map_eq_singleton_iff.1 htraced.symm
  have hblock := hinside e List.mem_cons_self
  have hplace : e.block = 0 := by
    simp only [List.length_singleton] at hblock
    omega
  have hpart : e.part = .chunkHeader := congrArg Sighting.part he
  refine ⟨hbound, haccess, data, table, hdump, hids, ?_, hsource⟩
  rw [hfound, ← hplace, ← hpart]

end RegionSalvage
