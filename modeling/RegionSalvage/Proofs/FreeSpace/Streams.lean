import RegionSalvage.Proofs.FreeSpace.BlockTable
import RegionSalvage.Proofs.FreeSpace.Carving

/-! # The two streams of a dump stay in step

A dump goes through its source up to an end (`Dump.EndsAt`): the end of the source, or the first
free block that cannot be read.  Wherever that is, the data and the table are about the same blocks,
which are the free ones before the end that have something in them (`Dump.Streams`).  The one stream
does not depend on whether the other was asked for.
-/

namespace RegionSalvage

namespace Dump

/-- A dump is to keep a block: it is free, and something is in it. -/
def Wanted (source : BlockSource) (block : Int) : Prop :=
  source.isAllocated block = false ∧
    ∃ bytes, source.readBlock block = .ok bytes ∧ ∃ i, octet bytes i ≠ 0

/-- No free block before `stop` keeps a dump from coming there. -/
def Reaches (source : BlockSource) (stop : Int) : Prop :=
  ∀ block, source.firstIndex ≤ block → block < stop → source.isAllocated block = false →
    ∃ bytes, source.readBlock block = .ok bytes

/-- Where a dump ends, and why if that is not the end of its source. -/
inductive EndsAt (source : BlockSource) : Int → Option ReadError → Prop where
  | complete : Reaches source source.blockCount → EndsAt source source.blockCount none
  | broken {block : Int} {e : ReadError} : Reaches source block →
      source.firstIndex ≤ block → block < source.blockCount →
      source.isAllocated block = false → source.readBlock block = .error e →
      EndsAt source block (some e)

/-- What a dump reports at its end: how many blocks it has written, or why there are no more. -/
def outcome (count : Nat) : Option ReadError → Except DumpError Nat
  | none => .ok count
  | some e => .error (.unreadable e)

/-- The streams of a dump that has come to `stop`. -/
structure Streams (source : BlockSource) (stop : Int) (blocks : List Int)
    (data table : ByteArray) : Prop where
  ascending : blocks.Pairwise (· < ·)
  mem_iff : ∀ block, block ∈ blocks ↔
    source.firstIndex ≤ block ∧ block < stop ∧ Wanted source block
  read : source.readBlocks blocks = .ok data
  size_data : data.size = 4096 * blocks.length
  size_table : table.size = 8 * blocks.length
  decode : (BlockTable.decode table).map Int.ofNat = blocks

variable {source : BlockSource} {stop block : Int}

theorem keeps_iff_wanted : keeps source block = true ↔ Wanted source block := by
  rw [keeps_iff, Wanted]
  have hnonzero (bytes : ByteArray) : isZeroBlock bytes = false ↔ ∃ i, octet bytes i ≠ 0 := by
    rw [Bool.eq_false_iff, ne_eq, isZeroBlock_iff, not_forall]
  simp only [hnonzero]

theorem mem_keptBefore : block ∈ keptBefore source stop ↔
    source.firstIndex ≤ block ∧ block < stop ∧ Wanted source block := by
  rw [keptBefore, List.mem_filter, mem_blockRange, keeps_iff_wanted, and_assoc]

/-- Of an image a dump is to keep the free blocks in which the image has something. -/
theorem wanted_iff_of_readBlock {image : ByteArray} (hblock : 0 ≤ block)
    (hread : source.readBlock block = .ok (BlockSource.imageBytes image block 1)) :
    Wanted source block ↔ source.isAllocated block = false ∧
      ∃ i < blockSize, octet image ((4096 * block).toNat + i) ≠ 0 := by
  have hsize := BlockSource.size_readBlock hread
  constructor
  · rintro ⟨hfree, bytes, hbytes, i, hi⟩
    obtain rfl := Except.ok.inj (hread.symm.trans hbytes)
    have hlt : i < blockSize := by
      apply Nat.lt_of_not_le
      intro hle
      exact hi (octet_of_le (hsize ▸ hle))
    exact ⟨hfree, i, hlt, BlockSource.octet_imageBytes hblock hlt ▸ hi⟩
  · rintro ⟨hfree, i, hlt, hi⟩
    exact ⟨hfree, _, hread, i, (BlockSource.octet_imageBytes hblock hlt).symm ▸ hi⟩

/-! ## How far a dump comes -/

theorem Reaches.succ (h : Reaches source stop)
    (hstop : source.isAllocated stop = false → ∃ bytes, source.readBlock stop = .ok bytes) :
    Reaches source (stop + 1) := by
  intro block hfirst hlast hfree
  by_cases hbefore : block < stop
  · exact h block hfirst hbefore hfree
  · obtain rfl : block = stop := by omega
    exact hstop hfree

/-- A dump comes through the next blocks, or there is a first one of them that it cannot read. -/
theorem reaches_or_broken (source : BlockSource) (n : Nat) :
    Reaches source (source.firstIndex + n) ∨
      ∃ block e, Reaches source block ∧ source.firstIndex ≤ block ∧
        block < source.firstIndex + n ∧ source.isAllocated block = false ∧
        source.readBlock block = .error e := by
  induction n with
  | zero =>
    left
    intro block hfirst hlast
    omega
  | succ n ih =>
    rcases ih with hreach | ⟨block, e, hreach, hfirst, hlast, hfree, hread⟩
    · -- So far nothing was in the way: the next block decides.
      have hnext : source.firstIndex + (n + 1 : Nat) = source.firstIndex + n + 1 := by omega
      rw [hnext]
      cases hfree : source.isAllocated (source.firstIndex + n) with
      | true => exact .inl (hreach.succ fun h => absurd (hfree.symm.trans h) (by decide))
      | false =>
        cases hread : source.readBlock (source.firstIndex + n) with
        | ok bytes => exact .inl (hreach.succ fun _ => ⟨bytes, hread⟩)
        | error e => exact .inr ⟨_, e, hreach, by omega, by omega, hfree, hread⟩
    · exact .inr ⟨block, e, hreach, hfirst, by omega, hfree, hread⟩

theorem exists_endsAt (source : BlockSource) : ∃ stop failure, EndsAt source stop failure := by
  by_cases hempty : source.blockCount < source.firstIndex
  · refine ⟨_, _, .complete ?_⟩
    intro block hfirst hlast
    omega
  · have hend : source.firstIndex + (source.blockCount - source.firstIndex).toNat =
        source.blockCount := by omega
    have hcases := reaches_or_broken source (source.blockCount - source.firstIndex).toNat
    rw [hend] at hcases
    rcases hcases with hreach | ⟨block, e, hreach, hfirst, hlast, hfree, hread⟩
    · exact ⟨_, _, .complete hreach⟩
    · exact ⟨_, _, .broken hreach hfirst hlast hfree hread⟩

theorem EndsAt.le_blockCount {failure : Option ReadError} (h : EndsAt source stop failure) :
    stop ≤ source.blockCount := by
  cases h with
  | complete _ => exact Int.le_refl _
  | broken _ _ hlast _ _ => exact Int.le_of_lt hlast

/-! ## What it has kept by then -/

theorem Reaches.passes (h : Reaches source stop)
    (hnumber : ∀ block < stop, ∀ bytes, source.readBlock block = .ok bytes →
      BlockTable.holds block = true) (numbered : Bool) {block : Int}
    (hfirst : source.firstIndex ≤ block) (hlast : block < stop) :
    Passes source numbered block := by
  intro hfree
  obtain ⟨bytes, hbytes⟩ := h block hfirst hlast hfree
  exact ⟨fun _ => hnumber block hlast bytes hbytes, bytes, hbytes⟩

theorem ofSource_of_endsAt {failure : Option ReadError} (h : EndsAt source stop failure)
    (hnumber : ∀ block < source.blockCount, ∀ bytes, source.readBlock block = .ok bytes →
      BlockTable.holds block = true)
    {data : ByteArray} (hdata : source.readBlocks (keptBefore source stop) = .ok data)
    (numbered : Bool) :
    ofSource source numbered =
      { blocks := (keptBefore source stop).toArray, data
        failure := failure.map DumpError.unreadable } := by
  cases h with
  | complete hreach =>
    exact ofSource_of_passes (fun block => hreach.passes hnumber numbered) hdata
  | broken hreach hfirst hlast hfree hread =>
    have hbefore := fun block hblock => hnumber block (Int.lt_trans hblock hlast)
    exact ofSource_of_unreadable hfirst hlast hfree hread
      (fun block => hreach.passes hbefore numbered) hdata

theorem dumpFreeBlocks_of_endsAt {failure : Option ReadError} (h : EndsAt source stop failure)
    (hnumber : ∀ block < source.blockCount, ∀ bytes, source.readBlock block = .ok bytes →
      BlockTable.holds block = true)
    {data : ByteArray} (hdata : source.readBlocks (keptBefore source stop) = .ok data)
    {streams : DumpStreams} (hasked : (streams.data || streams.table) = true) :
    dumpFreeBlocks source streams =
      { written := outcome (keptBefore source stop).length failure
        data := if streams.data then some data else none
        table := if streams.table then some (BlockTable.encode (keptBefore source stop))
          else none } := by
  rw [dumpFreeBlocks_of_asked hasked, ofSource_of_endsAt h hnumber hdata]
  cases failure with
  | none => rfl
  | some e => rfl

theorem streams_keptBefore
    (hnumber : ∀ block ∈ keptBefore source stop, BlockTable.holds block = true)
    {data : ByteArray} (hdata : source.readBlocks (keptBefore source stop) = .ok data) :
    Streams source stop (keptBefore source stop) data
      (BlockTable.encode (keptBefore source stop)) where
  ascending := (pairwise_blockRange _ _).filter _
  mem_iff _ := mem_keptBefore
  read := hdata
  size_data := BlockSource.size_readBlocks hdata
  size_table := BlockTable.size_encode _
  decode := by
    rw [BlockTable.decode_encode hnumber, List.map_map]
    -- The numbers are not negative, so nothing is lost when they are written without a sign.
    refine (List.map_congr_left fun block hblock => ?_).trans (List.map_id _)
    exact Int.toNat_of_nonneg (BlockTable.holds_iff.1 (hnumber block hblock)).1

end Dump

/-- A dump of a source of at most `2 ^ 64` blocks has an end, and there its streams are in step:
they hold the free blocks before it that have something in them, in ascending order, the table
their numbers and the data their bytes.  It reports how many these are, or the error that ended it.
Neither stream depends on whether the other was asked for, and a ragged tail of a table does not
change what is read of it. -/
theorem dumpFreeBlocks_inStep {source : BlockSource} (hcount : source.blockCount ≤ 2 ^ 64)
    (hnegative : ∀ block < 0, ∃ e, source.readBlock block = .error e) :
    (∃ stop failure, Dump.EndsAt source stop failure) ∧
      (∀ stop failure, Dump.EndsAt source stop failure →
        ∃ (blocks : List Int) (data table : ByteArray),
          Dump.Streams source stop blocks data table ∧
            ∀ streams : DumpStreams, (streams.data || streams.table) = true →
              dumpFreeBlocks source streams =
                { written := Dump.outcome blocks.length failure
                  data := if streams.data then some data else none
                  table := if streams.table then some table else none }) ∧
      ∀ table tail : ByteArray, BlockTable.entrySize ∣ table.size →
        tail.size < BlockTable.entrySize →
          BlockTable.decode (table ++ tail) = BlockTable.decode table := by
  -- A block that can be read is not in front of the image, so its number fits into an entry.
  have hnumber : ∀ block < source.blockCount, ∀ bytes, source.readBlock block = .ok bytes →
      BlockTable.holds block = true := by
    intro block hlast bytes hbytes
    refine BlockTable.holds_iff.2 ⟨?_, by omega⟩
    apply Int.not_lt.1
    intro hblock
    obtain ⟨e, herror⟩ := hnegative block hblock
    exact nomatch hbytes.symm.trans herror
  refine ⟨Dump.exists_endsAt source, ?_, ?_⟩
  · intro stop failure hend
    obtain ⟨data, hdata⟩ := Dump.exists_readBlocks_keptBefore source stop
    have hkept : ∀ block ∈ Dump.keptBefore source stop, BlockTable.holds block = true := by
      intro block hblock
      obtain ⟨-, hlast, -, bytes, hbytes, -⟩ := Dump.mem_keptBefore.1 hblock
      exact hnumber block (Int.lt_of_lt_of_le hlast hend.le_blockCount) bytes hbytes
    exact ⟨_, data, _, Dump.streams_keptBefore hkept hdata,
      fun _ => Dump.dumpFreeBlocks_of_endsAt hend hnumber hdata⟩
  · intro table tail hwhole hshort
    rw [BlockTable.decode_join hwhole, BlockTable.decode_ragged hshort, List.append_nil]

/-- Three blocks, of which the first is zeros. -/
def threeBlocks : ByteArray := sparse 12288 [(4096, 7), (8192, 1)]

/-- Of the three blocks the third cannot be read: the second, which has something in it, is all that
a dump brings.  Three odd bytes behind its table do no harm. -/
theorem dumpFreeBlocks_inStep_badThird :
    let source := BlockSource.inMemory threeBlocks [] 0 { unreadable := [2] }
    source.blockCount ≤ 2 ^ 64 ∧ (∀ block < 0, ∃ e, source.readBlock block = .error e) ∧
      ∃ data table : ByteArray,
        dumpFreeBlocks source ⟨true, true⟩ =
          { written := .error (.unreadable .badSector), data := some data, table := some table } ∧
        dumpFreeBlocks source ⟨true, false⟩ =
          { written := .error (.unreadable .badSector), data := some data, table := none } ∧
        source.readBlock 1 = .ok data ∧ data.size = 4096 ∧ table.size = 8 ∧
        BlockTable.decode table = [1] ∧ BlockTable.decode (table ++ ⟨#[5, 6, 7]⟩) = [1] := by
  have hsize : threeBlocks.size = 12288 := size_sparse ..
  have hoctet := octet_sparse 12288 [(4096, 7), (8192, 1)]
  rw [← threeBlocks] at hoctet
  have hfirst (i : Nat) (hi : i < 4096) : octet threeBlocks i = 0 := by
    rw [hoctet, if_pos (by omega), List.lookup_cons, beq_eq_false_iff_ne.2 (by omega),
      List.lookup_cons, beq_eq_false_iff_ne.2 (by omega)]
    rfl
  have hsecond : octet threeBlocks 4096 ≠ 0 := by
    rw [hoctet]
    decide
  generalize threeBlocks = image at hsize hfirst hsecond ⊢
  clear hoctet
  intro source
  have hserves : source.Serves image := .inMemory [] 0 [2]
  have hstart : source.firstIndex = 0 := rfl
  have hcount : source.blockCount = 3 := by
    change ((image.size / blockSize : Nat) : Int) = 3
    rw [hsize]
    rfl
  have hread {block : Int} (hnonneg : 0 ≤ block) (hlast : block < 2) :
      source.readBlock block = .ok (BlockSource.imageBytes image block 1) := by
    apply BlockSource.readBlock_inMemory_of_not_mem [] 0 _ hnonneg (by omega)
    rw [List.mem_singleton]
    omega
  have hbound : source.blockCount ≤ 2 ^ 64 := by omega
  have hnegative : ∀ block < 0, ∃ e, source.readBlock block = .error e :=
    fun _ => hserves.exists_error_of_neg
  have hend : Dump.EndsAt source 2 (some .badSector) := by
    refine .broken (fun block hblock hlast _ => ⟨_, hread (by omega) hlast⟩) ?_ ?_ rfl rfl
    · rw [hstart]
      decide
    · rw [hcount]
      decide
  obtain ⟨-, hstreams, hragged⟩ := dumpFreeBlocks_inStep hbound hnegative
  obtain ⟨blocks, data, table, hstep, hdump⟩ := hstreams 2 _ hend
  have hblocks : blocks = [1] := by
    apply hstep.ascending.eq_of_mem_iff (List.pairwise_singleton _ _)
    intro block
    rw [hstep.mem_iff, List.mem_singleton]
    constructor
    · rintro ⟨hfrom, hlast, hwanted⟩
      obtain ⟨-, i, hi, hnonzero⟩ :=
        (Dump.wanted_iff_of_readBlock (by omega) (hread (by omega) hlast)).1 hwanted
      -- Up to the second block the image is zeros.
      have hle : 4096 ≤ (4096 * block).toNat + i := by
        apply Nat.le_of_not_lt
        intro hlt
        exact hnonzero (hfirst _ hlt)
      unfold blockSize at hi
      omega
    · rintro rfl
      refine ⟨by omega, by decide, ?_⟩
      exact (Dump.wanted_iff_of_readBlock (by decide) (hread (by decide) (by decide))).2
        ⟨rfl, 0, by decide, hsecond⟩
  obtain ⟨-, -, hdata, hdatasize, htablesize, hdecode⟩ := hstep
  rw [hblocks] at hdata hdatasize htablesize hdecode
  have hone : BlockTable.decode table = [1] :=
    List.map_injective_iff.2 (fun _ _ => Int.ofNat.inj) hdecode
  refine ⟨hbound, hnegative, data, table, hdump ⟨true, true⟩ rfl, hdump ⟨true, false⟩ rfl, ?_,
    hdatasize, htablesize, hone, ?_⟩
  · rw [← hdata, BlockSource.readBlocks_singleton]
  · rw [hragged table _ ⟨1, htablesize⟩ (by decide), hone]

end RegionSalvage
