import RegionSalvage.FreeSpace.BlockTable
import RegionSalvage.Proofs.Bytes

/-! # Tables of block numbers are read as they were written

A table gives back the numbers that it was made of, in their order (`decode_encode`): behind whole
entries a table is read as what stands there would be by itself (`decode_join`), which is the number
of an entry, and nothing at all where too little is left for one (`decode_ragged`).
-/

namespace RegionSalvage

namespace BlockTable

theorem holds_iff {block : Int} :
    holds block = true ↔ 0 ≤ block ∧ block < 0x10000000000000000 := by
  rw [holds, Bool.and_eq_true, decide_eq_true_eq, decide_eq_true_eq]

theorem decode_join {front back : ByteArray} (h : entrySize ∣ front.size) :
    decode (front ++ back) = decode front ++ decode back := by
  obtain ⟨n, hn⟩ := h
  unfold entrySize at hn
  have hcount : (front ++ back).size / entrySize = n + back.size / entrySize := by
    rw [ByteArray.size_append, hn, entrySize]
    omega
  have hfront : front.size / entrySize = n := by
    rw [hn, entrySize]
    omega
  rw [decode, hcount, List.range_add, List.map_append, List.map_map, decode, decode, hfront]
  -- The entries in front are read from the front, the others from the back.
  congr 1
  · apply List.map_congr_left
    intro i hi
    have hlt := List.mem_range.1 hi
    exact le64_append_left (by unfold entrySize; omega)
  · apply List.map_congr_left
    intro i _
    have hplace : entrySize * (n + i) = front.size + entrySize * i := by
      rw [hn, Nat.mul_add, entrySize]
    rw [Function.comp_apply, hplace, le64_append_right]

theorem decode_ragged {tail : ByteArray} (h : tail.size < entrySize) : decode tail = [] := by
  rw [decode, Nat.div_eq_of_lt h]
  rfl

theorem decode_entry {block : Int} (h : holds block = true) :
    decode (append .empty block) = [block.toNat] := by
  have hlt := (holds_iff.1 h).2
  have hword : le64 (leBytes 8 block.toNat .empty) 0 = block.toNat :=
    le64_leBytes (by omega) .empty
  have hcount : (append .empty block).size / entrySize = 1 := by
    rw [size_append]
    rfl
  rw [decode, hcount]
  exact congrArg (fun n => [n]) hword

theorem decode_append {table : ByteArray} (hsize : entrySize ∣ table.size) {block : Int}
    (h : holds block = true) : decode (append table block) = decode table ++ [block.toNat] := by
  have happend : append table block = table ++ append .empty block := leBytes_eq_append ..
  rw [happend, decode_join hsize, decode_entry h]

/-- A table gives back the numbers that it was made of. -/
theorem decode_encode {blocks : List Int} (h : ∀ block ∈ blocks, holds block = true) :
    decode (encode blocks) = blocks.map Int.toNat := by
  have key : ∀ (blocks : List Int) (table : ByteArray), entrySize ∣ table.size →
      (∀ block ∈ blocks, holds block = true) →
      decode (blocks.foldl append table) = decode table ++ blocks.map Int.toNat := by
    intro blocks
    induction blocks with
    | nil =>
      intro table _ _
      rw [List.foldl_nil, List.map_nil, List.append_nil]
    | cons block rest ih =>
      intro table hsize h
      have hgrown : entrySize ∣ (append table block).size := by
        rw [size_append]
        exact Nat.dvd_add hsize (Nat.dvd_refl _)
      rw [List.foldl_cons, ih _ hgrown fun b hb => h b (List.mem_cons_of_mem _ hb),
        decode_append hsize (h block List.mem_cons_self), List.append_assoc, List.map_cons,
        List.singleton_append]
  exact key blocks .empty (Nat.dvd_zero _) h

end BlockTable

end RegionSalvage
