import RegionSalvage.Proofs.Bytes
import RegionSalvage.Proofs.Scan.Exactness

/-! # Nothing is seen in zeros

A block of zeros looks like no part of a region file: a table of times needs one time, a table of
offsets four populated slots, and a chunk header its mark.  The thresholds and windows of a scan have
no say in this.
-/

namespace RegionSalvage

theorem data_eq_zeros_iff {b : ByteArray} {n : Nat} (hsize : b.size = n) :
    (b.data == (zeros n).data) = true ↔ ∀ i, octet b i = 0 := by
  rw [beq_iff_eq, ← ByteArray.ext_iff, eq_zeros_iff]
  exact ⟨fun h => h.2, fun h => ⟨hsize, h⟩⟩

/-- None of the short cuts changes the answer. -/
theorem isZeroBlock_iff {b : ByteArray} : isZeroBlock b = true ↔ ∀ i, octet b i = 0 := by
  rw [isZeroBlock]
  split
  · next hempty => exact ⟨fun _ i => octet_of_le (by omega), fun _ => rfl⟩
  split
  · next hwhole => exact data_eq_zeros_iff hwhole
  split
  · next hends =>
    refine ⟨nofun, fun h => ?_⟩
    rw [h, h] at hends
    cases hends
  · exact data_eq_zeros_iff rfl

variable {b : ByteArray} (h : isZeroBlock b = true)

include h

theorem be32_of_isZeroBlock (i : Nat) : be32 b i = 0 := by
  have hzero := isZeroBlock_iff.1 h
  rw [be32, hzero, hzero, hzero, hzero]

theorem isZeroBlock_slice (start stop : Nat) : isZeroBlock (slice b start stop) = true := by
  apply isZeroBlock_iff.2
  intro i
  by_cases hi : start + i < stop
  · rw [octet_slice hi, isZeroBlock_iff.1 h]
  · exact octet_of_le (by rw [size_slice]; omega)

theorem mem_tableFields_of_isZeroBlock {field : Nat} (hfield : field ∈ tableFields b) :
    field = 0 := by
  obtain ⟨i, -, rfl⟩ := List.mem_map.1 hfield
  exact be32_of_isZeroBlock (isZeroBlock_slice h 0 blockSize) _

theorem isTimestampTable_of_isZeroBlock (minTime maxTime : Int) :
    isTimestampTable b minTime maxTime = false := by
  have hnone : (tableFields b).filter (· != 0) = [] := by
    apply List.filter_eq_nil_iff.2
    intro field hfield
    rw [mem_tableFields_of_isZeroBlock h hfield]
    decide
  rw [isTimestampTable, hnone]
  rfl

theorem isOffsetTable_of_isZeroBlock (rejectDuplicates : Bool) :
    isOffsetTable b rejectDuplicates = false := by
  let slots := (tableFields b).map fun (field : Nat) => OffsetEntry.ofField field
  have hnone : slots.filter OffsetEntry.isPopulated = [] := by
    apply List.filter_eq_nil_iff.2
    intro slot hslot
    obtain ⟨field, hfield, rfl⟩ := List.mem_map.1 hslot
    rw [mem_tableFields_of_isZeroBlock h hfield]
    decide
  change (slots.all _ && (decide (minPopulatedSlots ≤ (slots.filter _).length) && _ && _)) = false
  rw [hnone, decide_eq_false (by decide), Bool.false_and, Bool.false_and, Bool.and_false]

theorem startsChunk_of_isZeroBlock : startsChunk b = false := by
  rw [startsChunk, be32_of_isZeroBlock h, be32_of_isZeroBlock h]
  exact Bool.and_false _

/-- Whatever a scan looks for, it reports nothing of a block of zeros. -/
theorem ScanCriteria.reportable_of_isZeroBlock (criteria : ScanCriteria) :
    criteria.reportable b = [] := by
  have hparts : (criteria.kindsOf b).parts = [] := by
    rw [kindsOf, SectorKinds.ofBytes, isTimestampTable_of_isZeroBlock h,
      isOffsetTable_of_isZeroBlock h, startsChunk_of_isZeroBlock h]
    rfl
  rw [reportable, hparts, ite_self]

end RegionSalvage
