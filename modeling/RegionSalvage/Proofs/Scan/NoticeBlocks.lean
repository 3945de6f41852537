import RegionSalvage.Proofs.Scan.Visited

/-! # Where notices are due

A walk gives notice at the first block of its range and at whole intervals behind it; the sign of
the interval is of no account.  `filter_isNoticeDue` says that the test of a scan selects these blocks,
`noticeBlocks_succ` how they grow block by block.
-/

namespace RegionSalvage

/-- The blocks below `stop` that lie a number of whole intervals behind `start`. -/
def noticeBlocks (interval start stop : Int) : List Int :=
  (List.range ((stop - start).toNat ⌈/⌉ interval.natAbs)).map fun (j : Nat) => start + j * |interval|

variable {interval start stop block : Int}

theorem mem_noticeBlocks :
    block ∈ noticeBlocks interval start stop ↔
      interval ≠ 0 ∧ block < stop ∧ ∃ j : Nat, block = start + j * |interval| := by
  by_cases hzero : interval = 0
  · simp [noticeBlocks, hzero]
  · have hpos : 0 < interval.natAbs := Int.natAbs_pos.2 hzero
    -- The count of the blocks is the least one with which they come to `stop`.
    have hcount (j : Nat) : j < (stop - start).toNat ⌈/⌉ interval.natAbs ↔
        start + j * |interval| < stop := by
      rw [← Nat.not_le, ceilDiv_le_iff_le_mul hpos, Nat.mul_comm, Int.abs_eq_natAbs,
        ← Int.natCast_mul]
      omega
    simp only [noticeBlocks, List.mem_map, List.mem_range, hcount, hzero, ne_eq, not_false_eq_true,
      true_and]
    constructor
    · rintro ⟨j, hj, rfl⟩
      exact ⟨hj, j, rfl⟩
    · rintro ⟨hblock, j, rfl⟩
      exact ⟨j, hblock, rfl⟩

theorem pairwise_noticeBlocks (interval start stop : Int) :
    (noticeBlocks interval start stop).Pairwise (· < ·) := by
  by_cases hzero : interval = 0
  · simp [noticeBlocks, hzero]
  · have hpos : 0 < |interval| := abs_pos.2 hzero
    apply List.pairwise_map.2 (List.pairwise_lt_range.imp _)
    intro i j hij
    have := Int.mul_lt_mul_of_pos_right (Int.ofNat_lt.2 hij) hpos
    omega

theorem noticeBlocks_of_le (interval : Int) (h : stop ≤ start) :
    noticeBlocks interval start stop = [] := by
  simp [noticeBlocks, Int.toNat_of_nonpos (Int.sub_nonpos_of_le h)]

/-- A scan from `start` on gives notice at these blocks. -/
theorem filter_isNoticeDue (criteria : ScanCriteria) (start stop : Int) :
    (blockRange start stop).filter (criteria.isNoticeDue start) =
      noticeBlocks criteria.progressInterval start stop := by
  have hblocks := (pairwise_blockRange start stop).filter (criteria.isNoticeDue start)
  have hnotices := pairwise_noticeBlocks criteria.progressInterval start stop
  -- Both lists ascend, so it is enough that they have the same members.
  apply hblocks.eq_of_mem_iff hnotices
  intro block
  simp only [mem_noticeBlocks, List.mem_filter, mem_blockRange, ScanCriteria.isNoticeDue,
    Bool.and_eq_true, bne_iff_ne, beq_iff_eq, ← Int.dvd_iff_emod_eq_zero]
  constructor
  · rintro ⟨⟨hstart, hstop⟩, hzero, hdvd⟩
    obtain ⟨j, hj⟩ := Int.natAbs_dvd_natAbs.2 hdvd
    refine ⟨hzero, hstop, j, ?_⟩
    rw [Int.abs_eq_natAbs, Int.mul_comm, ← Int.natCast_mul, ← hj]
    omega
  · rintro ⟨hzero, hstop, j, rfl⟩
    have hreach : 0 ≤ j * |criteria.progressInterval| := by positivity
    refine ⟨⟨by omega, hstop⟩, hzero, ?_⟩
    rw [add_sub_cancel_left]
    exact (self_dvd_abs _).mul_left _

example : noticeBlocks (-4) 0 10 = [0, 4, 8] := by decide

/-- One block further on there is one notice more, if it is due. -/
theorem noticeBlocks_succ (criteria : ScanCriteria) (h : start ≤ block) :
    noticeBlocks criteria.progressInterval start (block + 1) =
      noticeBlocks criteria.progressInterval start block ++
        if criteria.isNoticeDue start block then [block] else [] := by
  rw [← filter_isNoticeDue, ← filter_isNoticeDue, blockRange_append h (by omega),
    List.filter_append, blockRange_single, List.filter_singleton]
  cases criteria.isNoticeDue start block <;> rfl

end RegionSalvage
