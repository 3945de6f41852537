import RegionSalvage.Proofs.Volume.Sources

/-! # Flat images are read alike

An image in memory and an image mapped into memory are sliced, an image in a file is read by
seeking.  Neither is safe by itself: a bound of a slice counts from the end if it is negative and
is cut down to the size if it is beyond it, and a read brings what there is.  `Volume.fetch` says
for each volume what it would come to, for all numbers.  It is the checks in front of it that make
the ways the same: in the range of a volume each of them brings the same piece of the image
(`Volume.fetch_eq`), and out of range nothing is fetched.
-/

namespace RegionSalvage

/-! ## Slices and seeks -/

/-- Where a bound of a slice is: a negative one counts from the end, and none is outside. -/
def sliceBound (size : Nat) (bound : Int) : Nat :=
  if bound < 0 then (size + bound).toNat else min bound.toNat size

/-- The bytes between two bounds. -/
def signedSlice (b : ByteArray) (start stop : Int) : ByteArray :=
  b.extract (sliceBound b.size start) (sliceBound b.size stop)

/-- What a file has from an offset on, at most `count` bytes of it or, if `count` is negative, all.
A seek in front of the first byte is refused, and then nothing is read. -/
def seekRead (b : ByteArray) (offset count : Int) : ByteArray :=
  if offset < 0 then .empty
  else slice b offset.toNat (if count < 0 then b.size else (offset + count).toNat)

theorem signedSlice_eq {b : ByteArray} {start stop : Int} (hstart : 0 ≤ start) (hstop : 0 ≤ stop) :
    signedSlice b start stop = slice b start.toNat stop.toNat := by
  rw [signedSlice, slice, sliceBound, sliceBound, if_neg (by omega), if_neg (by omega)]

theorem seekRead_eq {b : ByteArray} {offset count : Int} (hoffset : 0 ≤ offset)
    (hcount : 0 ≤ count) :
    seekRead b offset count = slice b offset.toNat (offset + count).toNat := by
  rw [seekRead, if_neg (by omega), if_neg (by omega)]

namespace BlockSource

/-- A list of blocks is read as its blocks are, one behind the other. -/
theorem readBlocks_of_forall₂ {source : BlockSource} {indices : List Int}
    {singles : List ByteArray}
    (h : List.Forall₂ (fun index single => source.readBlock index = .ok single) indices singles) :
    source.readBlocks indices = .ok (singles.foldr (· ++ ·) .empty) := by
  induction h with
  | nil => rfl
  | cons hsingle _ ih => exact readBlocks_cons_eq_ok_iff.2 ⟨_, _, hsingle, ih, rfl⟩

end BlockSource

namespace Volume

/-- The volumes over a flat image: in memory with some blocks in use, in a file, and mapped into
memory if it can be. -/
inductive IsFlat (image : ByteArray) : Volume → Prop where
  | memory (allocated : List Int) (first : Int) :
      IsFlat image (.inMemory (.inMemory image allocated first {}))
  | file : IsFlat image (flatFile image)
  | mapped (canMap : Bool) : IsFlat image (mappedFile image canMap)

/-- What a volume over an image fetches for `count` blocks from `index` on, whatever these are. -/
def fetch (v : Volume) (image : ByteArray) (index count : Int) : ByteArray :=
  if v.kind = .memory ∨ v.isMapped then
    signedSlice image (4096 * index) (4096 * index + 4096 * count)
  else seekRead image (4096 * index) (4096 * count)

variable {image : ByteArray} {v : Volume}

theorem fetch_eq {index count : Int} (hindex : 0 ≤ index) (hcount : 0 ≤ count) :
    v.fetch image index count = BlockSource.imageBytes image index count := by
  have hstop : 4096 * index + 4096 * count = 4096 * (index + count) := by omega
  rw [fetch, BlockSource.imageBytes]
  split
  · rw [signedSlice_eq (by omega) (by omega), hstop]
  · rw [seekRead_eq (by omega) (by omega), hstop]

theorem fetch_mappedFile (hsize : image.size ≠ 0) (index count : Int) :
    (mappedFile image true).fetch image index count =
      signedSlice image (4096 * index) (4096 * index + 4096 * count) := by
  have hmapped : (mappedFile image true).isMapped = true := bne_iff_ne.2 hsize
  exact if_pos (.inr hmapped)

namespace IsFlat

theorem serves (h : IsFlat image v) : v.source.Serves image := by
  cases h with
  | memory allocated first => exact .inMemory allocated first []
  | file => exact Offers.whole.serves
  | mapped canMap => exact Offers.whole.serves

theorem blockCount_eq (h : IsFlat image v) :
    v.source.blockCount = (image.size / blockSize : Nat) := by
  cases h with
  | memory allocated first => rfl
  | file => rfl
  | mapped canMap => rfl

theorem read_eq_checkedRead (h : IsFlat image v) :
    v.source.read = checkedRead v.source.blockCount (BlockSource.imageBytes image) := by
  cases h with
  | memory allocated first => rfl
  | file => rfl
  | mapped canMap => rfl

/-- The checks let nothing through in which one way of fetching differs from another. -/
theorem checkedRead_fetch (h : IsFlat image v) :
    checkedRead v.source.blockCount (v.fetch image) = v.source.read := by
  rw [h.read_eq_checkedRead]
  exact BlockSource.checkedRead_congr fun index count hcount hindex _ =>
    fetch_eq hindex (by omega)

theorem read_eq (h : IsFlat image v) (index count : Int) :
    v.source.read index count =
      if 1 ≤ count ∧ 0 ≤ index ∧ index + count ≤ (image.size / blockSize : Nat) then
        .ok (slice image (4096 * index).toNat (4096 * (index + count)).toNat)
      else .error (if count < 1 then .invalidCount count else .outOfRange index count) := by
  rw [h.read_eq_checkedRead, h.blockCount_eq, ← BlockSource.imageBytes]
  split
  · next hrange =>
    obtain ⟨hcount, hindex, hstop⟩ := hrange
    -- The last block of the range is a whole one, because the division leaves out a partial block.
    have hinside : 4096 * (index + count) ≤ image.size := by
      unfold blockSize at hstop
      omega
    exact checkedRead_eq_ok_iff.2
      ⟨hcount, hindex, hstop, BlockSource.size_imageBytes (by omega) hindex hinside, rfl⟩
  · next hrange =>
    rw [checkedRead]
    split
    · rfl
    · exact if_pos (by omega)

end IsFlat

/-- Whatever holds a flat image, a read of any two numbers has one outcome, that of the blocks that
the numbers stand for: if they are blocks of the image, its bytes from the first of them to the
last, and otherwise an error.  A run is read as the list of its blocks; a list can be read just
when each of its blocks can, and brings their bytes one behind the other. -/
theorem reads_of_isFlat (h : IsFlat image v) :
    checkedRead v.source.blockCount (v.fetch image) = v.source.read ∧
      (∀ index count : Int, v.source.read index count =
        if 1 ≤ count ∧ 0 ≤ index ∧ index + count ≤ (image.size / blockSize : Nat) then
          .ok (slice image (4096 * index).toNat (4096 * (index + count)).toNat)
        else .error (if count < 1 then .invalidCount count else .outOfRange index count)) ∧
      (∀ index count bytes, v.source.read index count = .ok bytes →
        v.source.readBlocks (consecutive index count.toNat) = .ok bytes) ∧
      (∀ indices, (∃ bytes, v.source.readBlocks indices = .ok bytes) ↔
        ∀ index ∈ indices, ∃ single, v.source.readBlock index = .ok single) ∧
      ∀ indices singles,
        List.Forall₂ (fun index single => v.source.readBlock index = .ok single) indices singles →
          v.source.readBlocks indices = .ok (singles.foldr (· ++ ·) .empty) :=
  ⟨h.checkedRead_fetch, h.read_eq, fun _ _ _ => h.serves.readBlocks_consecutive,
    fun _ => BlockSource.exists_readBlocks_eq_ok_iff,
    fun _ _ => BlockSource.readBlocks_of_forall₂⟩

/-- Two blocks and a part of a third one. -/
def raggedImage : ByteArray := sparse 8200 [(0, 1), (4096, 2), (8192, 3)]

/-- The part of a block cannot be read.  In front of the first block there is nothing either, though
a slice from there has as many bytes as a block: it is the range check that refuses it. -/
theorem reads_of_isFlat_raggedImage :
    IsFlat raggedImage (mappedFile raggedImage true) ∧
      (mappedFile raggedImage true).source.read 1 2 = .error (.outOfRange 1 2) ∧
      ((mappedFile raggedImage true).fetch raggedImage (-2) 1).size = 4096 ∧
      (mappedFile raggedImage true).source.read (-2) 1 = .error (.outOfRange (-2) 1) ∧
      ∃ bytes, (mappedFile raggedImage true).source.read 0 2 = .ok bytes ∧
        (mappedFile raggedImage true).source.readBlocks [0, 1] = .ok bytes := by
  have hflat : IsFlat raggedImage (mappedFile raggedImage true) := .mapped true
  obtain ⟨-, hread, hblocks, -⟩ := reads_of_isFlat hflat
  have hsize : raggedImage.size = 8200 := size_sparse ..
  have hfetch : ((mappedFile raggedImage true).fetch raggedImage (-2) 1).size = 4096 := by
    rw [fetch_mappedFile (by rw [hsize]; decide), signedSlice, ByteArray.size_extract, hsize]
    decide
  rw [hsize] at hread
  have hwhole := (hread 0 2).trans (if_pos (by decide))
  exact ⟨hflat, (hread 1 2).trans (if_neg (by decide)), hfetch,
    (hread (-2) 1).trans (if_neg (by decide)), _, hwhole, hblocks 0 2 _ hwhole⟩

end Volume

end RegionSalvage
