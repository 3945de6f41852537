import RegionSalvage.Proofs.Block.Consecutive
import RegionSalvage.Shard.Ranges

/-! # Shards cover their range

The shards of a range split it (`Splits`): no block is left out, none is in two of them, and their
starts ascend.  `shards_eq` says what the shards are in terms of their common size; that this size
is positive, because there are never more shards than blocks, is what everything else rests on.
-/

namespace RegionSalvage

/-- The ranges follow one another from `start` to `stop`, and none of them is empty. -/
structure Splits (start stop : Int) (ranges : List (Int × Int)) : Prop where
  first_eq : ranges.head?.map Prod.fst = some start
  last_eq : ranges.getLast?.map Prod.snd = some stop
  adjacent : ranges.IsChain fun a b => a.2 = b.1
  lt : ∀ range ∈ ranges, range.1 < range.2

namespace Splits

variable {start stop : Int} {range : Int × Int} {ranges : List (Int × Int)}

/-- Behind the first of several ranges the others split what is left. -/
theorem tail {next : Int × Int} (h : Splits start stop (range :: next :: ranges)) :
    range.1 = start ∧ range.1 < range.2 ∧ Splits range.2 stop (next :: ranges) := by
  obtain ⟨hfirst, hlast, hadjacent, hlt⟩ := h
  rw [List.isChain_cons_cons] at hadjacent
  rw [List.getLast?_cons_cons] at hlast
  have hrest : ∀ other ∈ next :: ranges, other.1 < other.2 :=
    fun other hother => hlt other (List.mem_cons_of_mem range hother)
  exact ⟨by simpa using hfirst, hlt range (by simp),
    by simp [hadjacent.1], hlast, hadjacent.2, hrest⟩

/-- Range by range, one comes through all blocks of the whole, in order. -/
theorem flatMap_blockRange (h : Splits start stop ranges) :
    ranges.flatMap (fun range => blockRange range.1 range.2) = blockRange start stop ∧
      start < stop := by
  cases ranges with
  | nil => cases h.first_eq
  | cons range rest =>
    -- The blocks of the first range join those of the others, which begin where it ends.
    induction rest generalizing start range with
    | nil =>
      have hfirst : range.1 = start := by simpa using h.first_eq
      have hlast : range.2 = stop := by simpa using h.last_eq
      have hlt := h.lt range (by simp)
      simp [← hfirst, ← hlast, hlt]
    | cons next rest ih =>
      obtain ⟨rfl, hlt, hrest⟩ := h.tail
      obtain ⟨hblocks, hle⟩ := ih next hrest
      rw [List.flatMap_cons, hblocks, ← blockRange_append (by omega) (by omega)]
      exact ⟨rfl, by omega⟩

theorem pairwise_lt (h : Splits start stop ranges) : ranges.Pairwise fun a b => a.1 < b.1 := by
  have hchain : (ranges.map Prod.fst).IsChain (· < ·) := by
    rw [List.isChain_map]
    apply h.adjacent.imp_of_mem_imp
    intro a b ha _ hab
    rw [← hab]
    exact h.lt a ha
  exact List.pairwise_map.1 (List.isChain_iff_pairwise.1 hchain)

end Splits

/-! ## The shards of a range -/

/-- Shard number `i` of `last + 1` shards of a range. -/
def shardAt (start stop size : Int) (last i : Nat) : Int × Int :=
  (start + i * size, if i = last then stop else start + (i + 1 : Nat) * size)

theorem shards_eq_nil {start stop : Int} (h : stop ≤ start) (workers minBlocks : Int) :
    shards start stop workers minBlocks = [] := by
  rw [shards]
  exact if_pos (by omega)

/-- There are no more shards than blocks, so each of them has a block. -/
theorem shards_eq {start stop : Int} (h : start < stop) (workers minBlocks : Int) :
    ∃ (last : Nat) (size : Int),
      (last + 1 : Nat) = max 1 (min workers ((stop - start) / max 1 minBlocks)) ∧
      size = (stop - start) / (last + 1 : Nat) ∧ 0 < size ∧
      shards start stop workers minBlocks =
        (List.range (last + 1)).map (shardAt start stop size last) := by
  -- The worth of a shard is at least one block, so the quotient is at most the number of blocks.
  have hself := Int.ediv_le_self (max 1 minBlocks) (show 0 ≤ stop - start by omega)
  simp only [shards, if_neg (show ¬ stop - start ≤ 0 by omega)]
  generalize hparts : max 1 (min workers ((stop - start) / max 1 minBlocks)) = parts
  have hpos : 0 < parts := by omega
  have hfew : parts ≤ stop - start := by omega
  have hlast : ((parts - 1).toNat + 1 : Nat) = parts := by omega
  refine ⟨(parts - 1).toNat, (stop - start) / parts, hlast, by rw [hlast], ?_, ?_⟩
  · have : 1 ≤ (stop - start) / parts := (Int.le_ediv_iff_mul_le hpos).2 (by omega)
    omega
  · rw [show parts.toNat = (parts - 1).toNat + 1 by omega]
    apply List.map_congr_left
    intro i _
    have hiff : (i : Int) = parts - 1 ↔ i = (parts - 1).toNat := by omega
    rw [shardAt, Int.natCast_add, Int.add_mul]
    simp only [hiff]
    congr 2
    omega

theorem splits_shards {start stop : Int} (h : start < stop) (workers minBlocks : Int) :
    Splits start stop (shards start stop workers minBlocks) := by
  obtain ⟨last, size, _, hsize, hpos, hshards⟩ := shards_eq h workers minBlocks
  -- As many shards of the common size as there are fit into the range.
  have hfit : (last + 1 : Nat) * size ≤ stop - start := by
    rw [hsize]
    exact Int.mul_ediv_self_le (by omega)
  have hstep (i : Nat) : (i + 1 : Nat) * size = i * size + size := by
    rw [Int.natCast_add, Int.add_mul]
    omega
  rw [hshards]
  constructor
  · simp [shardAt, List.range_succ_eq_map]
  · simp [shardAt, List.range_succ]
  · rw [List.isChain_map, List.isChain_range_succ]
    intro i hi
    simp [shardAt, Nat.ne_of_lt hi]
  · intro range hrange
    obtain ⟨i, hi, rfl⟩ := List.mem_map.1 hrange
    have hle : i ≤ last := by simpa [Nat.lt_succ_iff] using hi
    simp only [shardAt]
    split
    · -- The last shard takes what is left, which is no less than the common size.
      next heq =>
      subst heq
      have := hstep i
      omega
    · have := hstep i
      omega

/-- Shard by shard, one comes through all blocks of the range, in order. -/
theorem flatMap_shards (start stop workers minBlocks : Int) :
    (shards start stop workers minBlocks).flatMap (fun range => blockRange range.1 range.2) =
      blockRange start stop := by
  by_cases h : start < stop
  · exact (splits_shards h workers minBlocks).flatMap_blockRange.1
  · rw [shards_eq_nil (by omega), blockRange, show (stop - start).toNat = 0 by omega]
    rfl

theorem pairwise_shards (start stop workers minBlocks : Int) :
    (shards start stop workers minBlocks).Pairwise fun a b => a.1 < b.1 := by
  by_cases h : start < stop
  · exact (splits_shards h workers minBlocks).pairwise_lt
  · rw [shards_eq_nil (by omega)]
    exact .nil

end RegionSalvage
