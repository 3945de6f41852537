import RegionSalvage.Proofs.Block.Consecutive
import RegionSalvage.Proofs.Block.Reading

/-! # A run is read as its blocks are

A source serves an image (`BlockSource.Serves`) when it is that image in memory or in a file.  A run
of its blocks can be read just when each of them can be read by itself, and what it yields is the
blocks one after the other: `Serves.read_eq_ok_iff` and `Serves.readBlocks_consecutive`.
-/

namespace RegionSalvage

namespace BlockSource

/-! ## Sources over an image -/

/-- The sources over an image: the image in memory, with blocks in use and blocks that cannot be
read, or a file as far as it is covered. -/
inductive Serves (image : ByteArray) : BlockSource → Prop where
  | inMemory (allocated : List Int) (first : Int) (unreadable : List Int) :
      Serves image (.inMemory image allocated first { unreadable })
  | ofImage (first : Int) {blockCount : Int} (isAllocated : Int → Bool)
      (h : blockCount ≤ (image.size / blockSize : Nat)) :
      Serves image (.ofImage image first blockCount isAllocated)

/-- The source reads a run just when it reads each of its blocks. -/
def ReadsBlockwise (source : BlockSource) : Prop :=
  ∀ index count, 1 ≤ count → ((∃ bytes, source.read index count = .ok bytes) ↔
    ∀ block ∈ consecutive index count.toNat, ∃ single, source.readBlock block = .ok single)

variable {image : ByteArray} {source : BlockSource} {index count : Int} {bytes : ByteArray}

namespace Serves

/-- How far a source reaches, and what it leaves out. -/
theorem exists_extent (h : source.Serves image) :
    ∃ (extent : Int) (unreadable : List Int), extent ≤ (image.size / blockSize : Nat) ∧
      ∀ index count bytes, source.read index count = .ok bytes ↔
        1 ≤ count ∧ 0 ≤ index ∧ index + count ≤ extent ∧
          (∀ block ∈ unreadable, block < index ∨ index + count ≤ block) ∧
          bytes = imageBytes image index count := by
  cases h with
  | inMemory allocated first unreadable =>
    refine ⟨_, unreadable, Int.le_refl _, fun index count bytes => ?_⟩
    change (if Defects.spoils { unreadable } index count then Except.error _
      else checkedRead _ (fun index count => imageBytes image index count) index count) = _ ↔ _
    -- An undamaged run is read as the image has it; the defects are looked at first.
    cases hcase : Defects.spoils { unreadable } index count with
    | true =>
      refine ⟨nofun, fun ⟨_, _, _, hclear, _⟩ => ?_⟩
      exact nomatch hcase.symm.trans (Defects.spoils_eq_false_iff.2 hclear)
    | false =>
      rw [if_neg Bool.false_ne_true, checkedRead_eq_ok_iff]
      constructor
      · rintro ⟨hcount, hindex, hstop, -, hbytes⟩
        exact ⟨hcount, hindex, hstop, Defects.spoils_eq_false_iff.1 hcase, hbytes⟩
      · rintro ⟨hcount, hindex, hstop, -, rfl⟩
        unfold blockSize at hstop
        exact ⟨hcount, hindex, hstop, size_imageBytes (by omega) hindex (by omega), rfl⟩
  | ofImage first isAllocated hextent =>
    refine ⟨_, [], hextent, fun index count bytes => ?_⟩
    change checkedRead _ (imageBytes image) index count = _ ↔ _
    rw [checkedRead_eq_ok_iff]
    constructor
    · rintro ⟨hcount, hindex, hstop, -, hbytes⟩
      exact ⟨hcount, hindex, hstop, nofun, hbytes⟩
    · rintro ⟨hcount, hindex, hstop, -, rfl⟩
      unfold blockSize at hextent
      exact ⟨hcount, hindex, hstop, size_imageBytes (by omega) hindex (by omega), rfl⟩

/-- A run can be read just when each of its blocks can, and it is a piece of the image. -/
theorem read_eq_ok_iff (h : source.Serves image) :
    source.read index count = .ok bytes ↔
      1 ≤ count ∧
        (∀ block, index ≤ block → block < index + count →
          ∃ single, source.readBlock block = .ok single) ∧
        bytes = imageBytes image index count := by
  obtain ⟨extent, unreadable, -, hread⟩ := h.exists_extent
  rw [hread]
  constructor
  · rintro ⟨hcount, hindex, hstop, hclear, hbytes⟩
    refine ⟨hcount, fun block hfrom hto => ⟨imageBytes image block 1, ?_⟩, hbytes⟩
    rw [readBlock, hread]
    refine ⟨by omega, by omega, by omega, fun bad hbad => ?_, rfl⟩
    have := hclear bad hbad
    omega
  · rintro ⟨hcount, hsingle, hbytes⟩
    have hblock (block : Int) (hfrom : index ≤ block) (hto : block < index + count) :
        0 ≤ block ∧ block + 1 ≤ extent ∧ block ∉ unreadable := by
      obtain ⟨single, hsingle⟩ := hsingle block hfrom hto
      obtain ⟨-, hnonneg, hreach, hclear, -⟩ := (hread block 1 single).1 hsingle
      exact ⟨hnonneg, hreach, fun hbad => by have := hclear block hbad; omega⟩
    -- The ends of the run give the range, and no unreadable block can lie between them.
    have hfirst := hblock index (by omega) (by omega)
    have hlast := hblock (index + count - 1) (by omega) (by omega)
    refine ⟨hcount, hfirst.1, by omega, fun bad hbad => ?_, hbytes⟩
    apply Decidable.byContradiction
    intro hinside
    exact (hblock bad (by omega) (by omega)).2.2 hbad

theorem readsBlockwise (h : source.Serves image) : source.ReadsBlockwise := by
  intro index count hcount
  have hmem (block : Int) : block ∈ consecutive index count.toNat ↔
      index ≤ block ∧ block < index + count := by
    rw [mem_consecutive]
    omega
  simp only [h.read_eq_ok_iff, hmem, and_imp]
  exact ⟨fun ⟨_, _, hsingle, _⟩ => hsingle, fun hsingle => ⟨_, hcount, hsingle, rfl⟩⟩

theorem readBlock_eq (h : source.Serves image) {block : Int}
    (hread : source.readBlock block = .ok bytes) : bytes = imageBytes image block 1 :=
  (h.read_eq_ok_iff.1 hread).2.2

theorem nonneg_of_readBlock (h : source.Serves image) {block : Int}
    (hread : source.readBlock block = .ok bytes) : 0 ≤ block := by
  obtain ⟨_, _, -, hiff⟩ := h.exists_extent
  exact ((hiff block 1 bytes).1 hread).2.1

/-- In front of an image there is nothing to read. -/
theorem exists_error_of_neg (h : source.Serves image) {block : Int} (hblock : block < 0) :
    ∃ e, source.readBlock block = .error e := by
  cases hread : source.readBlock block with
  | error e => exact ⟨e, rfl⟩
  | ok bytes =>
    have hnonneg := h.nonneg_of_readBlock hread
    omega

/-- What a run yields is its blocks, one after the other. -/
theorem readBlocks_consecutive (h : source.Serves image)
    (hread : source.read index count = .ok bytes) :
    source.readBlocks (consecutive index count.toNat) = .ok bytes := by
  obtain ⟨hcount, hsingle, rfl⟩ := h.read_eq_ok_iff.1 hread
  obtain ⟨n, rfl⟩ : ∃ n : Nat, count = n := ⟨count.toNat, by omega⟩
  have hindex : 0 ≤ index := by
    obtain ⟨single, hfirst⟩ := hsingle index (by omega) (by omega)
    exact h.nonneg_of_readBlock hfirst
  -- The induction is on the length of the run; what it needs is that each block can be read.
  clear hread hcount
  induction n with
  | zero =>
    change Except.ok ByteArray.empty = _
    rw [imageBytes, Int.natCast_zero, Int.add_zero, slice_self]
  | succ n ih =>
    have hbefore := ih fun block hfrom hto => hsingle block hfrom (by omega)
    obtain ⟨single, hlast⟩ := hsingle (index + n) (by omega) (by omega)
    rw [Int.toNat_natCast, consecutive_add, readBlocks_append_eq_ok_iff]
    refine ⟨_, single, hbefore, ?_, ?_⟩
    · rw [consecutive_succ, consecutive_zero, readBlocks_singleton, hlast]
    · rw [imageBytes_succ hindex, h.readBlock_eq hlast]

end Serves

end BlockSource

end RegionSalvage
