import RegionSalvage.Proofs.Region.OffsetTable

/-! # No genuine offset table is turned away

A region file keeps its chunks apart: they lie behind the two tables and do not overlap.  So the
chunks in front of an offset lie between the tables and this offset, one beside the other, and take
no more sectors than there are (`two_add_sum_le`).  This is all that the test of an offset table
asks for, so it accepts every table that was written for such a file, in whatever order and with
whatever gaps the chunks lie.
-/

namespace RegionSalvage

/-! ## Writing a table -/

/-- The four bytes of a field, the high byte first. -/
def fieldBytes (field : Nat) : ByteArray :=
  ⟨#[UInt8.ofNat (field / 0x1000000), UInt8.ofNat (field / 0x10000), UInt8.ofNat (field / 0x100),
    UInt8.ofNat field]⟩

/-- Fields one after the other. -/
def encodeFields : List Nat → ByteArray
  | [] => .empty
  | field :: fields => fieldBytes field ++ encodeFields fields

/-- The field that a slot is written as: the offset above the eight bits of the length. -/
def OffsetEntry.toField (e : OffsetEntry) : Nat := e.offset <<< 8 ||| e.length

/-- The sector with the given slots, and zeros behind them. -/
def tableOf (slots : List OffsetEntry) : ByteArray :=
  encodeFields (slots.map OffsetEntry.toField) ++ zeros (blockSize - 4 * slots.length)

theorem size_encodeFields (fields : List Nat) : (encodeFields fields).size = 4 * fields.length := by
  induction fields with
  | nil => rfl
  | cons field fields ih =>
    rw [encodeFields, ByteArray.size_append, ih, List.length_cons]
    change 4 + _ = _
    omega

theorem words_fieldBytes {field : Nat} (h : field < 0x100000000) :
    words (fieldBytes field) = [field] := by
  have hsize : (fieldBytes field).size = 4 := rfl
  have hword : be32 (fieldBytes field) 0 = field := be32_of_digits h rfl rfl rfl rfl
  rw [words, hsize]
  exact congrArg (· :: []) hword

/-- Fields are read as they were written. -/
theorem words_encodeFields {fields : List Nat} (h : ∀ field ∈ fields, field < 0x100000000) :
    words (encodeFields fields) = fields := by
  induction fields with
  | nil => rfl
  | cons field fields ih =>
    obtain ⟨hfield, hfields⟩ := List.forall_mem_cons.1 h
    rw [encodeFields, words_append ⟨1, rfl⟩, words_fieldBytes hfield, ih hfields,
      List.singleton_append]

/-! ## Slots and their fields -/

namespace OffsetEntry

variable {e f : OffsetEntry}

theorem toField_eq (hlength : e.length ≤ 0xFF) : e.toField = 256 * e.offset + e.length := by
  rw [toField, Nat.shiftLeft_eq, Nat.mul_comm]
  exact (Nat.two_pow_add_eq_or_of_lt (Nat.lt_succ_of_le hlength) e.offset).symm

theorem toField_div (hlength : e.length ≤ 0xFF) : e.toField / 256 = e.offset := by
  rw [toField_eq hlength]
  omega

theorem toField_mod (hlength : e.length ≤ 0xFF) : e.toField % 256 = e.length := by
  rw [toField_eq hlength]
  omega

theorem isPopulated_iff : e.isPopulated = true ↔ e.length ≠ 0 := bne_iff_ne

/-- The sectors that a slot gives to its chunk. -/
def sectors (e : OffsetEntry) : Finset Nat := Finset.Ico e.offset (e.offset + e.length)

theorem disjoint_sectors (h : e.offset + e.length ≤ f.offset ∨ f.offset + f.length ≤ e.offset) :
    Disjoint e.sectors f.sectors := by
  apply Finset.disjoint_left.2
  intro sector he hf
  have he := Finset.mem_Ico.1 he
  have hf := Finset.mem_Ico.1 hf
  omega

theorem offset_mem_sectors (h : e.isPopulated = true) : e.offset ∈ e.sectors := by
  have hlength := isPopulated_iff.1 h
  exact Finset.mem_Ico.2 ⟨Nat.le_refl _, by omega⟩

theorem offset_ne_of_disjoint (he : e.isPopulated = true) (hf : f.isPopulated = true)
    (h : Disjoint e.sectors f.sectors) : e.offset ≠ f.offset := by
  intro hsame
  have hmem := offset_mem_sectors hf
  rw [← hsame] at hmem
  exact Finset.disjoint_left.1 h (offset_mem_sectors he) hmem

end OffsetEntry

/-- The slots of a region file whose chunks are kept apart. -/
structure KeptApart (slots : List OffsetEntry) : Prop where
  length_le : slots.length ≤ 1024
  populated : 4 ≤ slots.countP OffsetEntry.isPopulated
  offset_le : ∀ slot ∈ slots, slot.offset ≤ 0xFFFF
  /-- A slot has eight bits for its length. -/
  length_le_byte : ∀ slot ∈ slots, slot.length ≤ 0xFF
  behind_tables : ∀ slot ∈ slots, slot.isPopulated = true → 2 ≤ slot.offset
  disjoint : (slots.filter OffsetEntry.isPopulated).Pairwise fun e f => Disjoint e.sectors f.sectors

/-! ## Room -/

/-- Intervals that lie apart, and behind the two tables, take no more in front of one of them than
there is between the tables and this one. -/
theorem two_add_sum_le {lengths : Nat → Nat} {offset : Nat}
    (hbehind : ∀ o, lengths o ≠ 0 → 2 ≤ o)
    (hdisjoint : ∀ o o', lengths o ≠ 0 → lengths o' ≠ 0 → o ≠ o' →
      Disjoint (Finset.Ico o (o + lengths o)) (Finset.Ico o' (o' + lengths o')))
    (hoffset : lengths offset ≠ 0) :
    2 + ∑ smaller ∈ Finset.range offset, lengths smaller ≤ offset := by
  have hapart : (Finset.range offset : Set Nat).PairwiseDisjoint
      fun o => Finset.Ico o (o + lengths o) := by
    intro o _ o' _ hne
    by_cases hzero : lengths o = 0 ∨ lengths o' = 0
    · rcases hzero with hzero | hzero
      · simp [Function.onFun, hzero]
      · simp [Function.onFun, hzero]
    · rw [not_or] at hzero
      exact hdisjoint o o' hzero.1 hzero.2 hne
  -- An interval that starts in front of the offset ends there, for the offset is not in it.
  have hinside : (Finset.range offset).biUnion (fun o => Finset.Ico o (o + lengths o)) ⊆
      Finset.Ico 2 offset := by
    intro sector hsector
    obtain ⟨o, ho, hmem⟩ := Finset.mem_biUnion.1 hsector
    obtain ⟨hstart, hstop⟩ := Finset.mem_Ico.1 hmem
    have hlt := Finset.mem_range.1 ho
    have hlength : lengths o ≠ 0 := by omega
    have hfirst := hbehind o hlength
    have hnot := Finset.disjoint_right.1 (hdisjoint o offset hlength hoffset (by omega))
      (Finset.mem_Ico.2 (show offset ≤ offset ∧ offset < offset + lengths offset by omega))
    rw [Finset.mem_Ico] at hnot
    exact Finset.mem_Ico.2 ⟨by omega, by omega⟩
  have hcard : ∑ smaller ∈ Finset.range offset, lengths smaller ≤ offset - 2 := by
    calc ∑ o ∈ Finset.range offset, lengths o
        = ∑ o ∈ Finset.range offset, (Finset.Ico o (o + lengths o)).card := by
          simp only [Nat.card_Ico, Nat.add_sub_cancel_left]
      _ = ((Finset.range offset).biUnion fun o => Finset.Ico o (o + lengths o)).card :=
          (Finset.card_biUnion hapart).symm
      _ ≤ (Finset.Ico 2 offset).card := Finset.card_le_card hinside
      _ = offset - 2 := Nat.card_Ico 2 offset
  have htwo := hbehind offset hoffset
  omega

/-! ## The table of a region file -/

namespace KeptApart

variable {slots : List OffsetEntry} (h : KeptApart slots)

include h

theorem toField_lt {slot : OffsetEntry} (hslot : slot ∈ slots) : slot.toField < 0x100000000 := by
  have hoffset := h.offset_le slot hslot
  have hlength := h.length_le_byte slot hslot
  rw [OffsetEntry.toField_eq hlength]
  omega

theorem tableFields_tableOf :
    tableFields (tableOf slots) =
      slots.map OffsetEntry.toField ++ List.replicate (1024 - slots.length) 0 := by
  have hlength := h.length_le
  have hsize : (tableOf slots).size = blockSize := by
    rw [tableOf, ByteArray.size_append, size_encodeFields, List.length_map, size_zeros]
    unfold blockSize
    omega
  have hzeros : blockSize - 4 * slots.length = 4 * (1024 - slots.length) := by
    unfold blockSize
    omega
  have hfields : ∀ field ∈ slots.map OffsetEntry.toField, field < 0x100000000 :=
    List.forall_mem_map.2 fun _ => h.toField_lt
  rw [tableFields, ← hsize, slice_whole, tableOf, words_append ⟨_, size_encodeFields _⟩,
    words_encodeFields hfields, hzeros, words_zeros]

/-- The fields of populated slots are those that have a length. -/
theorem filter_tableFields :
    (tableFields (tableOf slots)).filter (fun field => field % 256 ≠ 0) =
      (slots.filter OffsetEntry.isPopulated).map OffsetEntry.toField := by
  have hunused :
      (List.replicate (1024 - slots.length) 0).filter (fun field => field % 256 ≠ 0) = [] :=
    List.filter_replicate_of_neg (by decide)
  rw [h.tableFields_tableOf, List.filter_append, hunused, List.append_nil, List.filter_map]
  congr 1
  apply List.filter_congr
  intro slot hslot
  rw [Function.comp_apply, Bool.eq_iff_iff, decide_eq_true_iff,
    OffsetEntry.toField_mod (h.length_le_byte slot hslot), OffsetEntry.isPopulated_iff]

/-- Chunks that do not overlap start at different offsets. -/
theorem nodup_offsets :
    (((tableFields (tableOf slots)).filter fun field => field % 256 ≠ 0).map (· / 256)).Nodup := by
  rw [h.filter_tableFields, List.map_map, List.Nodup, List.pairwise_map]
  refine h.disjoint.imp_of_mem fun {e f} he hf hdisjoint => ?_
  obtain ⟨he, hpopulated⟩ := List.mem_filter.1 he
  obtain ⟨hf, hpopulated'⟩ := List.mem_filter.1 hf
  rw [Function.comp_apply, Function.comp_apply, OffsetEntry.toField_div (h.length_le_byte e he),
    OffsetEntry.toField_div (h.length_le_byte f hf)]
  exact OffsetEntry.offset_ne_of_disjoint hpopulated hpopulated' hdisjoint

/-- Where the table has a length, it is that of a slot. -/
theorem exists_slot {offset : Nat} (hlength : lengthAt (tableFields (tableOf slots)) offset ≠ 0) :
    ∃ slot ∈ slots.filter OffsetEntry.isPopulated, slot.sectors =
      Finset.Ico offset (offset + lengthAt (tableFields (tableOf slots)) offset) ∧
        slot.offset = offset := by
  obtain ⟨field, hfield, hpopulated, rfl⟩ : ∃ field ∈ tableFields (tableOf slots),
      field % 256 ≠ 0 ∧ field / 256 = offset := by
    simpa using mt lengthAt_eq_zero_iff.2 hlength
  have hmem : field ∈ (tableFields (tableOf slots)).filter fun field => field % 256 ≠ 0 :=
    List.mem_filter.2 ⟨hfield, decide_eq_true hpopulated⟩
  rw [h.filter_tableFields] at hmem
  obtain ⟨slot, hslot, rfl⟩ := List.mem_map.1 hmem
  have hbyte := h.length_le_byte slot (List.mem_of_mem_filter hslot)
  refine ⟨slot, hslot, ?_, (OffsetEntry.toField_div hbyte).symm⟩
  rw [lengthAt_of_mem h.nodup_offsets hfield hpopulated, OffsetEntry.toField_div hbyte,
    OffsetEntry.toField_mod hbyte, OffsetEntry.sectors]

/-- The chunks at two offsets lie apart. -/
theorem disjoint_of_ne {e f : OffsetEntry} (he : e ∈ slots.filter OffsetEntry.isPopulated)
    (hf : f ∈ slots.filter OffsetEntry.isPopulated) (hne : e ≠ f) :
    Disjoint e.sectors f.sectors := by
  have : Std.Symm fun e f : OffsetEntry => Disjoint e.sectors f.sectors :=
    ⟨fun _ _ hapart => hapart.symm⟩
  exact h.disjoint.forall he hf hne

theorem room {offset : Nat} (hlength : lengthAt (tableFields (tableOf slots)) offset ≠ 0) :
    2 + ∑ smaller ∈ Finset.range offset, lengthAt (tableFields (tableOf slots)) smaller ≤
      offset := by
  refine two_add_sum_le (fun o ho => ?_) (fun o o' ho ho' hne => ?_) hlength
  · obtain ⟨slot, hslot, -, rfl⟩ := h.exists_slot ho
    obtain ⟨hslot, hpopulated⟩ := List.mem_filter.1 hslot
    exact h.behind_tables slot hslot hpopulated
  · obtain ⟨slot, hslot, hsectors, rfl⟩ := h.exists_slot ho
    obtain ⟨slot', hslot', hsectors', rfl⟩ := h.exists_slot ho'
    rw [← hsectors, ← hsectors']
    exact h.disjoint_of_ne hslot hslot' fun hsame => hne (congrArg OffsetEntry.offset hsame)

theorem rules (rejectDuplicates : Bool) :
    OffsetTableRules (tableFields (tableOf slots)) rejectDuplicates where
  offset_le := by
    intro field hfield
    rw [h.tableFields_tableOf, List.mem_append] at hfield
    rcases hfield with hused | hunused
    · obtain ⟨slot, hslot, rfl⟩ := List.mem_map.1 hused
      rw [OffsetEntry.toField_div (h.length_le_byte slot hslot)]
      exact h.offset_le slot hslot
    · rw [(List.mem_replicate.1 hunused).2]
      decide
  populated := by
    rw [List.countP_eq_length_filter, h.filter_tableFields, List.length_map,
      ← List.countP_eq_length_filter]
    exact h.populated
  distinct := fun _ => h.nodup_offsets
  room := fun _ => h.room

end KeptApart

/-- The table of a region file whose chunks are kept apart passes for one, whether or not slots may
share an offset. -/
theorem isOffsetTable_tableOf {slots : List OffsetEntry} (h : KeptApart slots)
    (rejectDuplicates : Bool) : isOffsetTable (tableOf slots) rejectDuplicates = true :=
  (isOffsetTable_iff_rules _ _).2 (h.rules rejectDuplicates)

/-- Slots in no order, with an unused one among them and gaps between their chunks. -/
def scatteredSlots : List OffsetEntry := [⟨8, 3⟩, ⟨2, 1⟩, ⟨0, 0⟩, ⟨0xFF00, 255⟩, ⟨3, 2⟩, ⟨40, 7⟩]

theorem isOffsetTable_scatteredSlots :
    KeptApart scatteredSlots ∧ isOffsetTable (tableOf scatteredSlots) true = true := by
  have hapart : KeptApart scatteredSlots :=
    { length_le := by decide
      populated := by decide
      offset_le := by decide
      length_le_byte := by decide
      behind_tables := by decide
      disjoint := by
        have hapart : (scatteredSlots.filter OffsetEntry.isPopulated).Pairwise fun e f =>
          e.offset + e.length ≤ f.offset ∨ f.offset + f.length ≤ e.offset := by decide
        exact hapart.imp OffsetEntry.disjoint_sectors }
  exact ⟨hapart, isOffsetTable_tableOf hapart true⟩

end RegionSalvage
