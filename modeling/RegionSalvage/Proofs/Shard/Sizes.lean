import RegionSalvage.Proofs.Shard.Cover

/-! # Shards divide their range evenly

The shards of a range are all alike, and what does not come out even goes to the last of them
(`map_rangeSize_shards`).  A range that is worth a shard is not cut into shards that are not: there
are no more of them than it is worth (`le_size_of_worth`).
-/

namespace RegionSalvage

/-- How many blocks a range has. -/
def rangeSize (range : Int × Int) : Int := range.2 - range.1

variable {start stop : Int}

/-- Each of as many shards as the blocks are worth has that worth, and so has a single one. -/
theorem le_size_of_worth {total worth parts : Int} (hworth : worth ≤ total) (hpos : 0 < parts)
    (hparts : parts ≤ max 1 (total / max 1 worth)) : worth ≤ total / parts := by
  by_cases hone : parts = 1
  · simpa [hone] using hworth
  · -- The quotient bounds the number of several shards; turned around, it bounds their size.
    have hmany : parts ≤ total / max 1 worth := by omega
    rw [Int.le_ediv_iff_mul_le (by omega), Int.mul_comm] at hmany
    have hsize : max 1 worth ≤ total / parts := by rwa [Int.le_ediv_iff_mul_le hpos]
    omega

/-- The last shard is larger than the others by the remainder. -/
theorem map_rangeSize_shards (h : start < stop) (workers minBlocks : Int) :
    let ranges := shards start stop workers minBlocks
    let size := (stop - start) / ranges.length
    ranges.map rangeSize =
      List.replicate (ranges.length - 1) size ++ [size + (stop - start) % ranges.length] := by
  obtain ⟨last, size, _, hsize, _, hshards⟩ := shards_eq h workers minBlocks
  have hlength : (shards start stop workers minBlocks).length = last + 1 := by simp [hshards]
  have hstep (i : Nat) : (i + 1 : Nat) * size = i * size + size := by
    rw [Int.natCast_add, Int.add_mul]
    omega
  have hequal : ∀ i ∈ List.range last, rangeSize (shardAt start stop size last i) = size := by
    intro i hi
    rw [rangeSize, shardAt, if_neg (Nat.ne_of_lt (List.mem_range.1 hi)), hstep]
    omega
  have hlast : rangeSize (shardAt start stop size last last) =
      size + (stop - start) % (last + 1 : Nat) := by
    have hdivision := Int.mul_ediv_add_emod (stop - start) (last + 1 : Nat)
    rw [← hsize, hstep] at hdivision
    rw [rangeSize, shardAt, if_pos rfl]
    omega
  simp only [hlength, ← hsize, Nat.add_sub_cancel]
  rw [hshards, List.map_map, List.range_succ, List.map_append, List.map_singleton,
    Function.comp_apply, hlast]
  congr 1
  rw [List.eq_replicate_iff]
  simpa using hequal

/-- Shards divide their range evenly.  An empty range has none.  Any other is split by at least one
and at most as many as there are workers, none of them with less than `minBlocks` if the range has as
much; they have one size, but for the last one, to which fewer blocks are added than there are
shards. -/
theorem shards_split_evenly (start stop workers minBlocks : Int) :
    let ranges := shards start stop workers minBlocks
    (stop ≤ start → ranges = []) ∧
    (start < stop →
      ranges ≠ [] ∧ (ranges.length : Int) ≤ max 1 workers ∧ Splits start stop ranges ∧
      (minBlocks ≤ stop - start → ∀ range ∈ ranges, minBlocks ≤ rangeSize range) ∧
      ∃ size excess : Int, 0 ≤ excess ∧ excess < ranges.length ∧
        ranges.map rangeSize =
          List.replicate (ranges.length - 1) size ++ [size + excess]) := by
  intro ranges
  refine ⟨fun h => shards_eq_nil h workers minBlocks, fun h => ?_⟩
  obtain ⟨last, _, hcount, _, _, hshards⟩ := shards_eq h workers minBlocks
  have hlength : ranges.length = last + 1 := by simp [ranges, hshards]
  rw [← hlength] at hcount
  have hpos : 0 < (ranges.length : Int) := by omega
  have hexcess := Int.emod_nonneg (stop - start) (Int.ne_of_gt hpos)
  have hsizes : ranges.map rangeSize = _ := map_rangeSize_shards h workers minBlocks
  refine ⟨?_, by omega, splits_shards h workers minBlocks, fun hworth range hrange => ?_,
    _, _, hexcess, Int.emod_lt_of_pos _ hpos, hsizes⟩
  · intro hnil
    simp [hnil] at hpos
  · have hleast : minBlocks ≤ (stop - start) / ranges.length :=
      le_size_of_worth hworth hpos (by omega)
    have hsize := List.mem_map_of_mem (f := rangeSize) hrange
    rw [hsizes, List.mem_append, List.mem_replicate, List.mem_singleton] at hsize
    -- The range has the common size, or it is the last one.
    rcases hsize with ⟨_, hsize⟩ | hsize
    · rw [hsize]
      exact hleast
    · rw [hsize]
      exact Int.le_trans hleast (Int.le_add_of_nonneg_right hexcess)

example : shards 0 103 2 40 = [(0, 51), (51, 103)] := by decide

end RegionSalvage
