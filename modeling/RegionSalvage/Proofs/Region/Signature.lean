import RegionSalvage.Proofs.Bytes
import RegionSalvage.Region.Signature

/-! # What the tests of a sector ask for

The tests of a sector, taken apart into conditions on its fields: what a table asks of every field,
where the mark of a chunk header stands among them, and how counts of nonzero words and of nonzero
bytes compare.
-/

namespace RegionSalvage

variable {b : ByteArray}

/-! ## Fields -/

theorem lt_of_mem_tableFields {field : Nat} (h : field ∈ tableFields b) : field < 0x100000000 := by
  obtain ⟨i, _, rfl⟩ := List.mem_map.1 h
  exact be32_lt _ _

/-- A word of the first block is a field of the table. -/
theorem be32_mem_tableFields {i : Nat} (hsize : 4 * i + 4 ≤ b.size)
    (hblock : 4 * i + 4 ≤ blockSize) : be32 b (4 * i) ∈ tableFields b := by
  refine List.mem_map.2 ⟨i, ?_, ?_⟩
  · rw [List.mem_range, size_slice]
    omega
  · rw [be32_slice (by omega), Nat.zero_add]

theorem OffsetEntry.offset_ofField {field : Nat} (h : field < 0x100000000) :
    (OffsetEntry.ofField field).offset = field / 256 := by
  simp only [ofField]
  omega

/-! ## Tests -/

theorem isTimestampTable_iff {minTime maxTime : Int} :
    isTimestampTable b minTime maxTime = true ↔
      (∃ field ∈ tableFields b, field ≠ 0) ∧
        ∀ field ∈ tableFields b, field ≠ 0 → minTime ≤ field ∧ field ≤ maxTime := by
  simp [isTimestampTable, Decidable.or_iff_not_imp_left]

theorem isOffsetTable_iff {rejectDuplicates : Bool} :
    let slots := (tableFields b).map fun (field : Nat) => OffsetEntry.ofField field
    let populated := slots.filter OffsetEntry.isPopulated
    isOffsetTable b rejectDuplicates = true ↔
      (∀ slot ∈ slots, slot.offset ≤ maxOffset) ∧ minPopulatedSlots ≤ populated.length ∧
        (rejectDuplicates = true → (OffsetEntry.claims populated).length = populated.length) ∧
        OffsetEntry.fit tableSectors (OffsetEntry.claims populated) = true := by
  cases rejectDuplicates <;> simp [isOffsetTable, and_assoc]

theorem startsChunk_iff :
    startsChunk b = true ↔
      8 ≤ b.size ∧ be32 b 0 ≤ maxRecordLength ∧ be32 b 4 / 256 = chunkHeaderMark := by
  simp [startsChunk, and_assoc]

/-- The offset in no slot of an offset table is too large, populated or not. -/
theorem field_div_le_maxOffset {rejectDuplicates : Bool} {field : Nat}
    (h : isOffsetTable b rejectDuplicates = true) (hfield : field ∈ tableFields b) :
    field / 256 ≤ maxOffset := by
  have hslot := (isOffsetTable_iff.1 h).1 _ (List.mem_map_of_mem hfield)
  rwa [OffsetEntry.offset_ofField (lt_of_mem_tableFields hfield)] at hslot

/-- The mark of a chunk header stands in the second field. -/
theorem mark_mem_tableFields (h : startsChunk b = true) :
    ∃ field ∈ tableFields b, field / 256 = chunkHeaderMark := by
  obtain ⟨hsize, -, hmark⟩ := startsChunk_iff.1 h
  exact ⟨be32 b 4, be32_mem_tableFields (i := 1) (by omega) (by decide), hmark⟩

/-! ## Counts -/

theorem countP_octets (b : ByteArray) :
    (List.range b.size).countP (fun i => octet b i != 0) = nonzeroCount b .byte := by
  have hoctets : (List.range b.size).map (octet b) = b.data.toList.map UInt8.toNat := by
    apply List.ext_getElem
    · rw [List.length_map, List.length_map, List.length_range]
      rfl
    · intro i hi _
      simp only [List.length_map, List.length_range] at hi
      simp only [List.getElem_map, List.getElem_range, octet_of_lt hi]
      rfl
  have hcount := congrArg (List.countP (· != 0)) hoctets
  rw [List.countP_map, List.countP_map] at hcount
  rw [nonzeroCount, ← Array.countP_toList]
  refine Eq.trans hcount (List.countP_congr fun byte _ => ?_)
  simp [← UInt8.toNat_inj]

theorem countP_range_succ (p : Nat → Bool) (n : Nat) :
    (List.range (n + 1)).countP p = (List.range n).countP p + (p n).toNat := by
  rw [List.range_succ, List.countP_append]
  cases h : p n <;> simp [h]

theorem toNat_bne_zero (n : Nat) : (n != 0).toNat = min n 1 := by
  cases n <;> simp

/-- If every word that counts has `k` bytes that count, the bytes are `k` times as many. -/
theorem mul_countP_words_le {p q : Nat → Bool} {k n : Nat}
    (h : ∀ i < n, p i = true → k ≤ (List.range 4).countP fun j => q (4 * i + j)) :
    k * (List.range n).countP p ≤ (List.range (4 * n)).countP q := by
  induction n with
  | zero => simp
  | succ n ih =>
    -- Each further word brings four further bytes.
    rw [countP_range_succ, Nat.mul_add, Nat.mul_succ, List.range_add, List.countP_append,
      List.countP_map]
    refine Nat.add_le_add (ih fun i hi => h i (Nat.lt_succ_of_lt hi)) ?_
    cases hp : p n with
    | false => exact Nat.zero_le _
    | true =>
      rw [Bool.toNat_true, Nat.mul_one]
      exact h n (Nat.lt_succ_self n) hp

/-- How many of the four bytes from position `i` on are not zero. -/
theorem countP_four_octets (b : ByteArray) (i : Nat) :
    ((List.range 4).countP fun j => octet b (i + j) != 0) =
      min (octet b i) 1 + min (octet b (i + 1)) 1 + min (octet b (i + 2)) 1 +
        min (octet b (i + 3)) 1 := by
  simp only [countP_range_succ, toNat_bne_zero, List.range_zero, List.countP_nil, Nat.zero_add,
    Nat.add_zero]

theorem countP_octets_le {n : Nat} (h : n ≤ b.size) :
    (List.range n).countP (fun i => octet b i != 0) ≤ nonzeroCount b .byte := by
  rw [← countP_octets]
  exact (List.range_sublist.2 h).countP_le

/-- A word that is not zero has a byte that is not zero. -/
theorem nonzeroCount_word_le (b : ByteArray) : nonzeroCount b .word ≤ nonzeroCount b .byte := by
  have hword : ∀ i < b.size / 4, (be32 b (4 * i) != 0) = true →
      1 ≤ (List.range 4).countP fun j => octet b (4 * i + j) != 0 := by
    intro i _ hne
    rw [countP_four_octets]
    have hne := bne_iff_ne.1 hne
    rw [be32] at hne
    omega
  calc nonzeroCount b .word
      = 1 * (List.range (b.size / 4)).countP (fun i => be32 b (4 * i) != 0) := by
        rw [Nat.one_mul]
        exact List.countP_map
    _ ≤ (List.range (4 * (b.size / 4))).countP (fun i => octet b i != 0) :=
        mul_countP_words_le hword
    _ ≤ nonzeroCount b .byte := countP_octets_le (Nat.mul_div_le b.size 4)

end RegionSalvage
