import RegionSalvage.Proofs.Region.Signature

/-! # How dense an offset table is

A populated slot of an offset table names a length, and an offset behind the tables that a region
file starts with.  So two of its four bytes at least are not zero, and a table with its four slots
has eight such bytes.  That is less than a sector needs not to be sparse: only a fifth slot makes
sure of it (`isSparse_offsetTable_iff`).
-/

namespace RegionSalvage

namespace OffsetEntry

/-! ## Claims -/

theorem mem_insertClaim {e f : OffsetEntry} {claims : List OffsetEntry} (h : f ∈ claims) :
    f ∈ insertClaim e claims := by
  induction claims with
  | nil => exact nomatch h
  | cons g rest ih =>
    unfold insertClaim
    split
    · exact List.mem_cons_of_mem _ h
    · split
      · exact h
      · rcases List.mem_cons.1 h with rfl | hrest
        · exact List.mem_cons_self
        · exact List.mem_cons_of_mem _ (ih hrest)

theorem exists_mem_insertClaim (e : OffsetEntry) (claims : List OffsetEntry) :
    ∃ f ∈ insertClaim e claims, f.offset = e.offset := by
  induction claims with
  | nil => exact ⟨e, List.mem_cons_self, rfl⟩
  | cons g rest ih =>
    unfold insertClaim
    split
    · exact ⟨e, List.mem_cons_self, rfl⟩
    · split
      · next hsame => exact ⟨g, List.mem_cons_self, hsame.symm⟩
      · obtain ⟨f, hf, hoffset⟩ := ih
        exact ⟨f, List.mem_cons_of_mem _ hf, hoffset⟩

/-- Every slot has a claim at its offset, its own or that of a later slot. -/
theorem exists_mem_claims {e : OffsetEntry} {slots : List OffsetEntry} (h : e ∈ slots) :
    ∃ f ∈ claims slots, f.offset = e.offset := by
  induction slots with
  | nil => exact nomatch h
  | cons slot slots ih =>
    rcases List.mem_cons.1 h with rfl | hrest
    · exact exists_mem_insertClaim _ _
    · obtain ⟨f, hf, hoffset⟩ := ih hrest
      exact ⟨f, mem_insertClaim hf, hoffset⟩

/-- Claims that fit behind some sectors start behind them. -/
theorem le_offset_of_fit {used : Nat} {claims : List OffsetEntry} (h : fit used claims = true)
    {e : OffsetEntry} (he : e ∈ claims) : used ≤ e.offset := by
  induction claims generalizing used with
  | nil => exact nomatch he
  | cons f rest ih =>
    obtain ⟨hfirst, hrest⟩ := Bool.and_eq_true_iff.1 h
    rcases List.mem_cons.1 he with rfl | hlater
    · exact of_decide_eq_true hfirst
    · exact Nat.le_of_add_right_le (ih hrest hlater)

end OffsetEntry

/-! ## Populated slots -/

variable {b : ByteArray} {rejectDuplicates : Bool}

/-- How many slots of a table are populated. -/
def populatedSlots (b : ByteArray) : Nat :=
  (tableFields b).countP fun (field : Nat) => (OffsetEntry.ofField field).isPopulated

theorem tableFields_eq (b : ByteArray) :
    tableFields b = (List.range (min blockSize b.size / 4)).map fun i => be32 b (4 * i) := by
  rw [tableFields, words, size_slice, Nat.zero_min, Nat.sub_zero]
  apply List.map_congr_left
  intro i hi
  rw [List.mem_range] at hi
  rw [be32_slice (by omega), Nat.zero_add]

theorem minPopulatedSlots_le (h : isOffsetTable b rejectDuplicates = true) :
    minPopulatedSlots ≤ populatedSlots b := by
  have hpopulated := (isOffsetTable_iff.1 h).2.1
  rwa [← List.countP_eq_length_filter, List.countP_map] at hpopulated

/-- A populated slot of an offset table has a length, and an offset behind the tables. -/
theorem populated_field (h : isOffsetTable b rejectDuplicates = true) {field : Nat}
    (hfield : field ∈ tableFields b) (hpopulated : (OffsetEntry.ofField field).isPopulated = true) :
    field % 256 ≠ 0 ∧ tableSectors ≤ field / 256 := by
  obtain ⟨-, -, -, hfit⟩ := isOffsetTable_iff.1 h
  have hslot : OffsetEntry.ofField field ∈ ((tableFields b).map fun (field : Nat) =>
      OffsetEntry.ofField field).filter OffsetEntry.isPopulated :=
    List.mem_filter.2 ⟨List.mem_map.2 ⟨field, hfield, rfl⟩, hpopulated⟩
  obtain ⟨claim, hclaim, hoffset⟩ := OffsetEntry.exists_mem_claims hslot
  have hbehind := OffsetEntry.le_offset_of_fit hfit hclaim
  rw [hoffset, OffsetEntry.offset_ofField (lt_of_mem_tableFields hfield)] at hbehind
  have hlength : (OffsetEntry.ofField field).length ≠ 0 := bne_iff_ne.1 hpopulated
  simp only [OffsetEntry.ofField] at hlength
  exact ⟨by omega, hbehind⟩

theorem two_mul_populatedSlots_le (h : isOffsetTable b rejectDuplicates = true) :
    2 * populatedSlots b ≤ nonzeroCount b .byte := by
  have hslot : ∀ i < min blockSize b.size / 4,
      (OffsetEntry.ofField (be32 b (4 * i) : Nat)).isPopulated = true →
        2 ≤ (List.range 4).countP fun j => octet b (4 * i + j) != 0 := by
    intro i hi hpopulated
    obtain ⟨hlength, hoffset⟩ :=
      populated_field h (be32_mem_tableFields (i := i) (by omega) (by omega)) hpopulated
    -- The length is the last byte, and the offset takes the other three.
    have hlast := octet_lt b (4 * i + 3)
    rw [be32] at hlength hoffset
    rw [countP_four_octets]
    simp only [tableSectors] at hoffset
    omega
  calc 2 * populatedSlots b
      = 2 * (List.range (min blockSize b.size / 4)).countP fun i =>
          (OffsetEntry.ofField (be32 b (4 * i) : Nat)).isPopulated := by
        rw [populatedSlots, tableFields_eq, List.countP_map]
        rfl
    _ ≤ (List.range (4 * (min blockSize b.size / 4))).countP fun i => octet b i != 0 :=
        mul_countP_words_le hslot
    _ ≤ nonzeroCount b .byte := countP_octets_le (by omega)

/-- A table that tells duplicates apart is one that tolerates them. -/
theorem isOffsetTable_of_reject (h : isOffsetTable b true = true) (rejectDuplicates : Bool) :
    isOffsetTable b rejectDuplicates = true := by
  obtain ⟨hoffsets, hpopulated, hdistinct, hfit⟩ := isOffsetTable_iff.1 h
  exact isOffsetTable_iff.2 ⟨hoffsets, hpopulated, fun _ => hdistinct rfl, hfit⟩

/-- An offset table has eight bytes that are not zero, and it is sparse by default just when it has
no more than nine: then only four of its slots are populated. -/
theorem isSparse_offsetTable_iff (h : isOffsetTable b rejectDuplicates = true) :
    minPopulatedSlots * 2 ≤ nonzeroCount b .byte ∧
      (isSparse b defaultSparseThreshold .byte = true ↔
        populatedSlots b = minPopulatedSlots ∧ nonzeroCount b .byte < 10) := by
  have hslots := minPopulatedSlots_le h
  have hbytes := two_mul_populatedSlots_le h
  simp only [minPopulatedSlots] at hslots ⊢
  unfold isSparse defaultSparseThreshold
  rw [decide_eq_true_iff]
  omega

end RegionSalvage
