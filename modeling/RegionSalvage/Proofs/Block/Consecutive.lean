import Mathlib
import RegionSalvage.Block.Chain

/-! # Blocks in a row

The numbers of consecutive blocks, given by the first one and a count (`consecutive`), by a count
and the block behind the last one (`blocksBefore`), or by both ends (`blockRange`).  They ascend,
and adjacent rows join into one.
-/

namespace RegionSalvage

@[simp] theorem consecutive_zero (index : Int) : consecutive index 0 = [] := rfl

theorem consecutive_succ (index : Int) (count : Nat) :
    consecutive index (count + 1) = index :: consecutive (index + 1) count := by
  simp only [consecutive, List.range_succ_eq_map, List.map_cons, List.map_map]
  congr 1
  · simp
  · apply List.map_congr_left
    intro i _
    simp only [Function.comp_apply, Nat.succ_eq_add_one]
    omega

theorem consecutive_add (index : Int) (m n : Nat) :
    consecutive index (m + n) = consecutive index m ++ consecutive (index + m) n := by
  induction m generalizing index with
  | zero => simp
  | succ m ih =>
    rw [show m + 1 + n = (m + n) + 1 by omega, consecutive_succ, consecutive_succ, ih,
      List.cons_append]
    congr 3
    omega

theorem getElem?_consecutive {index : Int} {count i : Nat} (h : i < count) :
    (consecutive index count)[i]? = some (index + i) := by
  simp [consecutive, List.getElem?_range h]

theorem mem_consecutive {index : Int} {count : Nat} {block : Int} :
    block ∈ consecutive index count ↔ index ≤ block ∧ block < index + count := by
  simp only [consecutive, List.mem_map, List.mem_range]
  constructor
  · rintro ⟨i, hi, rfl⟩
    omega
  · rintro ⟨hlower, hupper⟩
    exact ⟨(block - index).toNat, by omega, by omega⟩

theorem mem_consecutive_zero {n : Nat} {block : Int} :
    block ∈ consecutive 0 n ↔ ∃ i < n, block = (i : Nat) := by
  rw [mem_consecutive]
  exact ⟨fun h => ⟨block.toNat, by omega, by omega⟩, fun ⟨i, hi, hblock⟩ => by omega⟩

/-- A list is gone through place by place. -/
theorem flatMap_consecutive {α β : Type} {xs : List α} {f : Int → List β} {g : α → List β}
    (h : ∀ (i : Nat) (x : α), xs[i]? = some x → f i = g x) :
    (consecutive 0 xs.length).flatMap f = xs.flatMap g := by
  rw [List.flatMap_def, List.flatMap_def]
  congr 1
  apply List.ext_getElem?
  intro i
  rw [List.getElem?_map, List.getElem?_map]
  cases hx : xs[i]? with
  | none =>
    have hlength := List.getElem?_eq_none_iff.1 hx
    rw [List.getElem?_eq_none (by rwa [length_consecutive])]
    rfl
  | some x =>
    have hi := (List.getElem?_eq_some_iff.1 hx).1
    rw [getElem?_consecutive hi, Int.zero_add]
    exact congrArg some (h i x hx)

theorem pairwise_consecutive (index : Int) (count : Nat) :
    (consecutive index count).Pairwise (· < ·) := by
  induction count generalizing index with
  | zero => exact .nil
  | succ count ih =>
    rw [consecutive_succ]
    refine .cons ?_ (ih (index + 1))
    intro block hblock
    have := (mem_consecutive.1 hblock).1
    omega

/-- The last `left` blocks before `stop`. -/
def blocksBefore (stop : Int) (left : Nat) : List Int := consecutive (stop - left) left

@[simp] theorem blocksBefore_zero (stop : Int) : blocksBefore stop 0 = [] := rfl

theorem blocksBefore_succ (stop : Int) (left : Nat) :
    blocksBefore stop (left + 1) = (stop - (left + 1 : Nat)) :: blocksBefore stop left := by
  rw [blocksBefore, consecutive_succ, blocksBefore]
  congr 2
  omega

@[simp] theorem length_blocksBefore (stop : Int) (left : Nat) :
    (blocksBefore stop left).length = left := by
  simp [blocksBefore]

/-- The blocks `[start, stop)` in ascending order. -/
def blockRange (start stop : Int) : List Int := consecutive start (stop - start).toNat

theorem blocksBefore_toNat (start stop : Int) :
    blocksBefore stop (stop - start).toNat = blockRange start stop := by
  rw [blocksBefore, blockRange]
  by_cases h : start ≤ stop
  · congr 1
    omega
  · rw [show (stop - start).toNat = 0 by omega]
    rfl

theorem mem_blockRange {start stop block : Int} :
    block ∈ blockRange start stop ↔ start ≤ block ∧ block < stop := by
  rw [blockRange, mem_consecutive]
  omega

theorem pairwise_blockRange (start stop : Int) : (blockRange start stop).Pairwise (· < ·) :=
  pairwise_consecutive _ _

theorem blockRange_append {start middle stop : Int} (h₁ : start ≤ middle) (h₂ : middle ≤ stop) :
    blockRange start stop = blockRange start middle ++ blockRange middle stop := by
  have hcount : (stop - start).toNat = (middle - start).toNat + (stop - middle).toNat := by omega
  rw [blockRange, hcount, consecutive_add, blockRange, blockRange]
  congr 2
  omega

end RegionSalvage
