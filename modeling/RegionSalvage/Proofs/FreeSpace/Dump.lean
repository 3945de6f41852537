import RegionSalvage.FreeSpace.Dump
import RegionSalvage.Proofs.Block.Runs

/-! # What a dump keeps

Of a source that has no free block that cannot be read, a dump keeps the free blocks that are not
zeros (`Dump.keeps`), in ascending order, with the bytes that the source has for them.
-/

namespace RegionSalvage

namespace Dump

/-- Whether a dump keeps a block. -/
def keeps (source : BlockSource) (block : Int) : Bool :=
  !source.isAllocated block &&
    match source.readBlock block with
    | .error _ => false
    | .ok bytes => !isZeroBlock bytes

/-- The blocks that a dump keeps, if nothing ends it early. -/
def kept (source : BlockSource) : List Int :=
  (blockRange source.firstIndex source.blockCount).filter (keeps source)

/-- Those of them that lie before `stop`. -/
def keptBefore (source : BlockSource) (stop : Int) : List Int :=
  (blockRange source.firstIndex stop).filter (keeps source)

variable {source : BlockSource}

theorem keeps_iff {block : Int} :
    keeps source block = true ↔ source.isAllocated block = false ∧
      ∃ bytes, source.readBlock block = .ok bytes ∧ isZeroBlock bytes = false := by
  rw [keeps, Bool.and_eq_true, Bool.not_eq_true']
  cases source.readBlock block with
  | error e => exact ⟨fun h => absurd h.2 nofun, fun ⟨_, _, h, _⟩ => absurd h nofun⟩
  | ok bytes =>
    simp only [Bool.not_eq_true', Except.ok.injEq]
    constructor
    · exact fun ⟨hfree, hzero⟩ => ⟨hfree, bytes, rfl, hzero⟩
    · rintro ⟨hfree, _, rfl, hzero⟩
      exact ⟨hfree, hzero⟩

theorem mem_kept {block : Int} :
    block ∈ kept source ↔ source.firstIndex ≤ block ∧ block < source.blockCount ∧
      source.isAllocated block = false ∧
        ∃ bytes, source.readBlock block = .ok bytes ∧ isZeroBlock bytes = false := by
  rw [kept, List.mem_filter, mem_blockRange, keeps_iff, and_assoc]

/-- A dump can go on at a block: it is in use, or it can be read and its number can be written. -/
def Passable (source : BlockSource) (block : Int) : Prop :=
  source.isAllocated block = false →
    BlockTable.holds block = true ∧ ∃ bytes, source.readBlock block = .ok bytes

/-- A dump, `numbered` or not, can go on at a block. -/
def Passes (source : BlockSource) (numbered : Bool) (block : Int) : Prop :=
  source.isAllocated block = false →
    (numbered = true → BlockTable.holds block = true) ∧ ∃ bytes, source.readBlock block = .ok bytes

theorem Passable.passes {block : Int} (h : Passable source block) (numbered : Bool) :
    Passes source numbered block := by
  intro hfree
  obtain ⟨hnumber, hbytes⟩ := h hfree
  exact ⟨fun _ => hnumber, hbytes⟩

/-- A dump goes over a block that it does not keep, and takes up one that it keeps. -/
theorem walk_succ {stop block : Int} {left : Nat} {numbered : Bool} (d : Dump)
    (hblock : block = stop - (left + 1 : Nat)) (h : Passes source numbered block) :
    keeps source block = false ∧
        walk source numbered stop (left + 1) d = walk source numbered stop left d ∨
      keeps source block = true ∧ ∃ bytes, source.readBlock block = .ok bytes ∧
        walk source numbered stop (left + 1) d =
          walk source numbered stop left (d.keep block bytes) := by
  simp only [walk, keeps, ← hblock]
  cases hfree : source.isAllocated block with
  | true => exact .inl ⟨rfl, rfl⟩
  | false =>
    obtain ⟨hnumber, bytes, hbytes⟩ := h hfree
    have hwritable : (numbered && !BlockTable.holds block) = false := by
      cases numbered with
      | false => rfl
      | true => rw [hnumber rfl]; rfl
    simp only [hbytes, hwritable, Bool.not_false, Bool.true_and, Bool.false_eq_true, if_false]
    cases isZeroBlock bytes with
    | true => exact .inl ⟨rfl, rfl⟩
    | false => exact .inr ⟨rfl, bytes, rfl, rfl⟩

/-- A dump that has also kept the given blocks, with their bytes. -/
def keepAll (d : Dump) (blocks : List Int) (data : ByteArray) : Dump :=
  { d with blocks := d.blocks ++ blocks.toArray, data := d.data ++ data }

theorem keepAll_nil (d : Dump) : d.keepAll [] .empty = d := by
  simp only [keepAll, ByteArray.append_empty, Array.append_empty]

theorem keepAll_keep (d : Dump) (block : Int) (blocks : List Int) (bytes data : ByteArray) :
    (d.keep block bytes).keepAll blocks data = d.keepAll (block :: blocks) (bytes ++ data) := by
  have hblocks : d.blocks.push block ++ blocks.toArray = d.blocks ++ (block :: blocks).toArray := by
    rw [List.toArray_cons, ← Array.append_assoc, Array.append_singleton]
  simp only [keepAll, keep, ByteArray.append_assoc, hblocks]

/-- As far as it can go on, a dump keeps what is to be kept; then it sees to the rest. -/
theorem walk_add {numbered : Bool} {stop : Int} {front left : Nat} {blocks kept : List Int}
    {data : ByteArray} (d : Dump)
    (hblocks : blocks = consecutive (stop - (front + left : Nat)) front)
    (h : ∀ block ∈ blocks, Passes source numbered block)
    (hkept : blocks.filter (keeps source) = kept) (hdata : source.readBlocks kept = .ok data) :
    walk source numbered stop (front + left) d =
      walk source numbered stop left (d.keepAll kept data) := by
  induction front generalizing d blocks kept data with
  | zero =>
    rw [consecutive_zero] at hblocks
    subst hblocks hkept
    cases hdata
    change _ = walk source numbered stop left (d.keepAll [] .empty)
    rw [Nat.zero_add, keepAll_nil]
  | succ front ih =>
    have hnext : stop - (front + 1 + left : Nat) + 1 = stop - (front + left : Nat) := by omega
    rw [consecutive_succ, hnext] at hblocks
    subst hblocks
    have hrest := fun block hblock => h block (List.mem_cons_of_mem _ hblock)
    rw [Nat.add_right_comm]
    -- The next block is passed over, or it is the first of those that are kept.
    obtain ⟨hpass, hwalk⟩ | ⟨hkeep, bytes, hbytes, hwalk⟩ :=
      walk_succ d (by rw [Nat.add_right_comm]) (h _ List.mem_cons_self)
    · rw [List.filter_cons_of_neg (by rw [hpass]; decide)] at hkept
      rw [hwalk, ih d rfl hrest hkept hdata]
    · rw [List.filter_cons_of_pos hkeep] at hkept
      subst hkept
      obtain ⟨single, others, hsingle, hothers, rfl⟩ :=
        BlockSource.readBlocks_cons_eq_ok_iff.1 hdata
      obtain rfl := Except.ok.inj (hbytes.symm.trans hsingle)
      rw [hwalk, ih _ rfl hrest rfl hothers, keepAll_keep]

/-- What a dump has kept when it comes to `stop`. -/
theorem ofSource_eq_walk {numbered : Bool} {stop : Int} {data : ByteArray}
    (hstop : (source.blockCount - source.firstIndex).toNat =
      (stop - source.firstIndex).toNat + (source.blockCount - stop).toNat)
    (h : ∀ block, source.firstIndex ≤ block → block < stop → Passes source numbered block)
    (hdata : source.readBlocks (keptBefore source stop) = .ok data) :
    ofSource source numbered =
      walk source numbered source.blockCount (source.blockCount - stop).toNat
        { blocks := (keptBefore source stop).toArray, data } := by
  have hfront : blockRange source.firstIndex stop =
      consecutive (source.blockCount -
        ((stop - source.firstIndex).toNat + (source.blockCount - stop).toNat : Nat))
        (stop - source.firstIndex).toNat := by
    rw [blockRange]
    -- An empty range may start anywhere, so only its length counts.
    by_cases hempty : (stop - source.firstIndex).toNat = 0
    · rw [hempty]
      rfl
    · congr 1
      omega
  have hpasses : ∀ block ∈ blockRange source.firstIndex stop, Passes source numbered block := by
    intro block hblock
    obtain ⟨hfirst, hlast⟩ := mem_blockRange.1 hblock
    exact h block hfirst hlast
  rw [ofSource, hstop, walk_add {} hfront hpasses rfl hdata]
  simp only [keepAll, ByteArray.empty_append, Array.empty_append]
  rfl

theorem exists_readBlocks_keptBefore (source : BlockSource) (stop : Int) :
    ∃ data, source.readBlocks (keptBefore source stop) = .ok data := by
  apply BlockSource.exists_readBlocks_eq_ok_iff.2
  intro block hblock
  obtain ⟨-, bytes, hbytes, -⟩ := keeps_iff.1 (List.mem_filter.1 hblock).2
  exact ⟨bytes, hbytes⟩

theorem ofSource_of_passes {numbered : Bool} {data : ByteArray}
    (h : ∀ block, source.firstIndex ≤ block → block < source.blockCount →
      Passes source numbered block)
    (hdata : source.readBlocks (kept source) = .ok data) :
    ofSource source numbered = { blocks := (kept source).toArray, data } := by
  have hnone : (source.blockCount - source.blockCount).toNat = 0 := by omega
  rw [ofSource_eq_walk (by omega) h hdata, hnone]
  rfl

/-- The first free block that cannot be read ends a dump. -/
theorem ofSource_of_unreadable {numbered : Bool} {block : Int} {e : ReadError} {data : ByteArray}
    (hfirst : source.firstIndex ≤ block) (hlast : block < source.blockCount)
    (hfree : source.isAllocated block = false) (hread : source.readBlock block = .error e)
    (h : ∀ earlier, source.firstIndex ≤ earlier → earlier < block →
      Passes source numbered earlier)
    (hdata : source.readBlocks (keptBefore source block) = .ok data) :
    ofSource source numbered =
      { blocks := (keptBefore source block).toArray, data, failure := some (.unreadable e) } := by
  obtain ⟨left, hleft⟩ : ∃ left, (source.blockCount - block).toNat = left + 1 :=
    ⟨(source.blockCount - block).toNat - 1, by omega⟩
  have hblock : source.blockCount - (left + 1 : Nat) = block := by omega
  rw [ofSource_eq_walk (by omega) h hdata, hleft]
  simp only [walk, hblock, hfree, hread, Bool.false_eq_true, if_false, fail]

/-! ## What is written -/

theorem dumpFreeBlocks_of_asked {streams : DumpStreams}
    (hasked : (streams.data || streams.table) = true) :
    dumpFreeBlocks source streams =
      let d := ofSource source streams.table
      { written := match d.failure with
          | none => .ok d.blocks.size
          | some e => .error e
        data := if streams.data then some d.data else none
        table := if streams.table then some d.table else none } := by
  have hsome : (!streams.data && !streams.table) = false := by
    rw [← Bool.not_or, hasked]
    rfl
  rw [dumpFreeBlocks, hsome]
  rfl

/-- A dump that can go on everywhere writes what it keeps, whichever streams it is to write. -/
theorem written_of_passes {streams : DumpStreams} (hasked : (streams.data || streams.table) = true)
    (h : ∀ block, source.firstIndex ≤ block → block < source.blockCount →
      Passes source streams.table block) :
    (dumpFreeBlocks source streams).written = .ok (kept source).length := by
  obtain ⟨data, hdata⟩ := exists_readBlocks_keptBefore source source.blockCount
  rw [dumpFreeBlocks_of_asked hasked, ofSource_of_passes h hdata]
  rfl

/-- The streams of a complete dump. -/
theorem dumpFreeBlocks_of_passable
    (h : ∀ block, source.firstIndex ≤ block → block < source.blockCount →
      Passable source block) :
    ∃ data, source.readBlocks (kept source) = .ok data ∧
      dumpFreeBlocks source ⟨true, true⟩ =
        { written := .ok (kept source).length, data := some data
          table := some (BlockTable.encode (kept source)) } := by
  obtain ⟨data, hdata⟩ := exists_readBlocks_keptBefore source source.blockCount
  have hdump := ofSource_of_passes
    (fun block hfirst hlast => (h block hfirst hlast).passes true) hdata
  refine ⟨data, hdata, ?_⟩
  rw [dumpFreeBlocks_of_asked rfl, hdump]
  rfl

theorem table_of_passable
    (h : ∀ block, source.firstIndex ≤ block → block < source.blockCount →
      Passable source block) :
    (dumpFreeBlocks source ⟨true, true⟩).table = some (BlockTable.encode (kept source)) := by
  obtain ⟨_, -, hdump⟩ := dumpFreeBlocks_of_passable h
  rw [hdump]

end Dump

end RegionSalvage
