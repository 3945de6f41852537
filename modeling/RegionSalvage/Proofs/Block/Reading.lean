import RegionSalvage.Block.Chain
import RegionSalvage.Proofs.Bytes

/-! # Reading sectors that lie in an image

The sectors of a byte string may lie in an image one behind the other or scattered over it.
`LiesAt` says where one of them lies.  A run of blocks in which sectors lie in order yields the
slice of the byte string that they make up, and so does a list of blocks; nothing else in the image
matters.

A list of blocks is read as its parts are (`readBlocks_append_eq_ok_iff`), and what was read of it
is an image in which its blocks stand back to back (`readBlock_backToBack`).
-/

namespace RegionSalvage

theorem checkedRead_eq_ok_iff {blockCount index count : Int} {fetch : Int → Int → ByteArray}
    {bytes : ByteArray} :
    checkedRead blockCount fetch index count = .ok bytes ↔
      1 ≤ count ∧ 0 ≤ index ∧ index + count ≤ blockCount ∧
        (bytes.size : Int) = 4096 * count ∧ bytes = fetch index count := by
  constructor
  · intro h
    obtain ⟨hcount, hsize⟩ := size_of_checkedRead h
    unfold checkedRead at h
    rw [if_neg (by omega)] at h
    split at h
    · exact nomatch h
    · next hrange =>
      simp only at h
      split at h
      · cases h
        exact ⟨hcount, by omega, by omega, hsize, rfl⟩
      · exact nomatch h
  · rintro ⟨hcount, hindex, hstop, hsize, rfl⟩
    rw [checkedRead, if_neg (by omega), if_neg (by omega)]
    exact if_pos hsize

theorem Defects.spoils_eq_false_iff {unreadable : List Int} {index count : Int} :
    Defects.spoils { unreadable } index count = false ↔
      ∀ block ∈ unreadable, block < index ∨ index + count ≤ block := by
  simp [Defects.spoils, Decidable.imp_iff_not_or]

/-- Block number `block` of the image holds sector `j` of `whole`. -/
structure LiesAt (image whole : ByteArray) (j : Nat) (block : Int) : Prop where
  nonneg : 0 ≤ block
  inside : 4096 * (block + 1) ≤ image.size
  octet_eq : ∀ i < blockSize,
    octet image ((4096 * block).toNat + i) = octet whole (blockSize * j + i)

namespace BlockSource

variable {image whole : ByteArray} (allocated : List Int) (first : Int)

/-! ## Runs -/

theorem size_imageBytes {index count : Int} (hcount : 0 ≤ count) (hindex : 0 ≤ index)
    (hinside : 4096 * (index + count) ≤ image.size) :
    ((imageBytes image index count).size : Int) = 4096 * count := by
  rw [imageBytes, size_slice]
  omega

theorem octet_imageBytes {image : ByteArray} {block : Int} (hblock : 0 ≤ block) {i : Nat}
    (hi : i < blockSize) :
    octet (imageBytes image block 1) i = octet image ((4096 * block).toNat + i) := by
  unfold blockSize at hi
  rw [imageBytes, octet_slice (by omega)]

/-- A read within an undamaged image succeeds. -/
theorem read_inMemory {index count : Int} (hcount : 1 ≤ count) (hindex : 0 ≤ index)
    (hinside : 4096 * (index + count) ≤ image.size) :
    (inMemory image allocated first {}).read index count = .ok (imageBytes image index count) := by
  change checkedRead _ (fun index count => imageBytes image index count) index count = _
  have hsize := size_imageBytes (by omega) hindex hinside
  rw [checkedRead_eq_ok_iff]
  unfold blockSize
  exact ⟨hcount, hindex, by omega, hsize, rfl⟩

/-- Behind its last block an image has nothing to read. -/
theorem readBlock_behind {n : Nat} (hsize : image.size = 4096 * n) :
    (inMemory image allocated first {}).readBlock n = .error (.outOfRange n 1) := by
  change checkedRead _ (fun index count => imageBytes image index count) n 1 = _
  rw [checkedRead, if_neg (by decide), if_pos]
  unfold blockSize
  omega

/-- Damage elsewhere does not matter to a block. -/
theorem readBlock_inMemory_of_not_mem {unreadable : List Int} {block : Int}
    (hblock : block ∉ unreadable) (hnonneg : 0 ≤ block)
    (hinside : 4096 * (block + 1) ≤ image.size) :
    (inMemory image allocated first { unreadable }).readBlock block =
      .ok (imageBytes image block 1) := by
  have hclear : Defects.spoils { unreadable } block 1 = false := by
    apply Defects.spoils_eq_false_iff.2
    intro bad hbad
    have hne : bad ≠ block := fun h => hblock (h ▸ hbad)
    omega
  change (if Defects.spoils { unreadable } block 1 then Except.error _
    else checkedRead _ (fun index count => imageBytes image index count) block 1) = _
  rw [hclear, if_neg Bool.false_ne_true]
  exact read_inMemory allocated first (by decide) hnonneg hinside

/-! ## Devices -/

/-- In range, a device may refuse. -/
theorem read_onDevice_of_refusal {source : BlockSource} {device : Device} {index count : Int}
    {reason : String} (hcount : 1 ≤ count) (hindex : 0 ≤ index)
    (hstop : index + count ≤ source.blockCount)
    (h : device.refusal index count = some reason) :
    (source.onDevice device).read index count = .error (.device index reason) := by
  have hrange : 1 ≤ count ∧ 0 ≤ index ∧ index + count ≤ source.blockCount :=
    ⟨hcount, hindex, hstop⟩
  simp only [onDevice, refusing, if_pos hrange, h, Option.map_some]

/-- What the device does not refuse, it leaves to the source. -/
theorem read_onDevice_of_none {source : BlockSource} {device : Device} {index count : Int}
    (h : device.refusal index count = none) :
    (source.onDevice device).read index count = source.read index count := by
  simp only [onDevice, refusing, h, Option.map_none, ite_self]

theorem imageBytes_of_liesAt {j : Nat} {block : Int} (h : LiesAt image whole j block)
    (hwhole : blockSize * (j + 1) ≤ whole.size) :
    imageBytes image block 1 = slice whole (blockSize * j) (blockSize * (j + 1)) := by
  have hnonneg := h.nonneg
  have hinside := h.inside
  have hoctet := h.octet_eq
  unfold blockSize at *
  have hsize : (imageBytes image block 1).size = 4096 := by
    rw [imageBytes, size_slice]
    omega
  apply ext_octet
  · rw [hsize, size_slice]
    omega
  · intro i hi
    rw [hsize] at hi
    rw [imageBytes, octet_slice (by omega), octet_slice (by omega)]
    exact hoctet i hi

theorem imageBytes_succ {index : Int} (hindex : 0 ≤ index) (count : Nat) :
    imageBytes image index (count + 1 : Nat) =
      imageBytes image index count ++ imageBytes image (index + count) 1 := by
  unfold imageBytes
  rw [slice_append_slice (by omega) (by omega)]
  congr 3
  omega

/-- Sectors that lie one behind the other are read in one piece. -/
theorem imageBytes_of_run {j count : Nat} {index : Int}
    (hlies : ∀ i < count, LiesAt image whole (j + i) (index + i))
    (hwhole : blockSize * (j + count) ≤ whole.size) :
    imageBytes image index count = slice whole (blockSize * j) (blockSize * (j + count)) := by
  induction count with
  | zero =>
    rw [imageBytes, Int.natCast_zero, Int.add_zero, Nat.add_zero, slice_self, slice_self]
  | succ count ih =>
    have hindex := (hlies 0 (by omega)).nonneg
    have hlast := hlies count (by omega)
    have hbefore := ih (fun i hi => hlies i (by omega)) (by unfold blockSize at *; omega)
    rw [imageBytes_succ (by omega), hbefore,
      imageBytes_of_liesAt hlast (by unfold blockSize at *; omega),
      slice_append_slice (by unfold blockSize; omega) (by unfold blockSize; omega), Nat.add_assoc]

theorem read_of_run {j count : Nat} {index : Int} (hcount : 1 ≤ count)
    (hlies : ∀ i < count, LiesAt image whole (j + i) (index + i))
    (hwhole : blockSize * (j + count) ≤ whole.size) :
    (inMemory image allocated first {}).read index count =
      .ok (slice whole (blockSize * j) (blockSize * (j + count))) := by
  have hfirst := (hlies 0 (by omega)).nonneg
  have hlast := (hlies (count - 1) (by omega)).inside
  rw [read_inMemory _ _ (by omega) (by omega) (by omega), imageBytes_of_run hlies hwhole]

/-! ## Lists of blocks -/

/-- What is read of a list goes behind what was there before. -/
theorem gather_eq (source : BlockSource) (indices : List Int) (start : ByteArray) :
    indices.foldlM (m := Except ReadError)
        (fun out index => return out ++ (← source.readBlock index)) start =
      (source.readBlocks indices).map (start ++ ·) := by
  induction indices generalizing start with
  | nil =>
    change Except.ok start = Except.ok (start ++ ByteArray.empty)
    rw [ByteArray.append_empty]
  | cons index rest ih =>
    rw [readBlocks, List.foldlM_cons, List.foldlM_cons]
    cases source.readBlock index with
    | error e => rfl
    | ok block =>
      change rest.foldlM _ (start ++ block) = Except.map _ (rest.foldlM _ (ByteArray.empty ++ block))
      rw [ih, ih]
      cases source.readBlocks rest with
      | error e => rfl
      | ok bytes =>
        change Except.ok (start ++ block ++ bytes) = Except.ok (start ++ (.empty ++ block ++ bytes))
        rw [ByteArray.empty_append, ByteArray.append_assoc]

theorem readBlocks_append_eq_ok_iff {source : BlockSource} {xs ys : List Int} {bytes : ByteArray} :
    source.readBlocks (xs ++ ys) = .ok bytes ↔
      ∃ front back, source.readBlocks xs = .ok front ∧ source.readBlocks ys = .ok back ∧
        bytes = front ++ back := by
  rw [readBlocks, List.foldlM_append, ← readBlocks]
  cases source.readBlocks xs with
  | error e => exact ⟨nofun, nofun⟩
  | ok front =>
    change ys.foldlM _ front = _ ↔ _
    rw [gather_eq]
    cases source.readBlocks ys with
    | error e => exact ⟨nofun, nofun⟩
    | ok back =>
      constructor
      · intro h
        exact ⟨front, back, rfl, rfl, (Except.ok.inj h).symm⟩
      · rintro ⟨_, _, hfront, hback, rfl⟩
        cases hfront
        cases hback
        rfl

theorem readBlocks_singleton (source : BlockSource) (index : Int) :
    source.readBlocks [index] = source.readBlock index := by
  rw [readBlocks, List.foldlM_cons]
  cases source.readBlock index with
  | error e => rfl
  | ok block =>
    change Except.ok (ByteArray.empty ++ block) = _
    rw [ByteArray.empty_append]

theorem readBlocks_cons_eq_ok_iff {source : BlockSource} {index : Int} {rest : List Int}
    {bytes : ByteArray} :
    source.readBlocks (index :: rest) = .ok bytes ↔
      ∃ single more, source.readBlock index = .ok single ∧ source.readBlocks rest = .ok more ∧
        bytes = single ++ more := by
  rw [← List.singleton_append, readBlocks_append_eq_ok_iff, readBlocks_singleton]

/-- A list can be read just when each of its blocks can. -/
theorem exists_readBlocks_eq_ok_iff {source : BlockSource} {indices : List Int} :
    (∃ bytes, source.readBlocks indices = .ok bytes) ↔
      ∀ index ∈ indices, ∃ single, source.readBlock index = .ok single := by
  induction indices with
  | nil => exact ⟨fun _ => nofun, fun _ => ⟨_, rfl⟩⟩
  | cons index rest ih =>
    rw [List.forall_mem_cons, ← ih]
    simp only [readBlocks_cons_eq_ok_iff]
    constructor
    · rintro ⟨_, single, more, hsingle, hmore, rfl⟩
      exact ⟨⟨single, hsingle⟩, more, hmore⟩
    · rintro ⟨⟨single, hsingle⟩, more, hmore⟩
      exact ⟨_, single, more, hsingle, hmore, rfl⟩

theorem readBlock_of_liesAt {j : Nat} {block : Int} (h : LiesAt image whole j block)
    (hwhole : blockSize * (j + 1) ≤ whole.size) :
    (inMemory image allocated first {}).readBlock block =
      .ok (slice whole (blockSize * j) (blockSize * (j + 1))) := by
  rw [readBlock, read_inMemory _ _ (by omega) h.nonneg h.inside, imageBytes_of_liesAt h hwhole]

/-- Sectors that lie in the blocks of a list are read in the order of the list. -/
theorem readBlocks_of_liesAt {places : List Int} {j : Nat}
    (hlies : ∀ i block, places[i]? = some block → LiesAt image whole (j + i) block)
    (hwhole : blockSize * (j + places.length) ≤ whole.size) :
    (inMemory image allocated first {}).readBlocks places =
      .ok (slice whole (blockSize * j) (blockSize * (j + places.length))) := by
  induction places generalizing j with
  | nil =>
    rw [List.length_nil, Nat.add_zero, slice_self]
    rfl
  | cons block rest ih =>
    rw [List.length_cons] at hwhole ⊢
    have hread := readBlock_of_liesAt allocated first
      (hlies 0 block rfl) (by unfold blockSize at *; omega)
    have hrest (i : Nat) (e : Int) (hi : rest[i]? = some e) :
        LiesAt image whole (j + 1 + i) e := by
      have h := hlies (i + 1) e hi
      rwa [← Nat.add_assoc, Nat.add_right_comm] at h
    have hmore := ih hrest (by unfold blockSize at *; omega)
    rw [Nat.add_right_comm, Nat.add_assoc] at hmore
    refine readBlocks_cons_eq_ok_iff.2 ⟨_, _, hread, hmore, ?_⟩
    exact (slice_append_slice (by unfold blockSize; omega) (by unfold blockSize; omega)).symm

/-! ## Blocks back to back -/

/-- Each block of a list has its place in what was read of the list. -/
theorem readBlock_of_readBlocks {source : BlockSource} {blocks : List Int} {data : ByteArray}
    {i : Nat} {block : Int} (hread : source.readBlocks blocks = .ok data)
    (hblock : blocks[i]? = some block) :
    source.readBlock block = .ok (imageBytes data i 1) := by
  induction blocks generalizing data i with
  | nil => exact nomatch hblock
  | cons index rest ih =>
    obtain ⟨single, more, hsingle, hmore, rfl⟩ := readBlocks_cons_eq_ok_iff.1 hread
    -- What is read of the rest lies one block further on.
    have hsize : single.size = 4096 := size_readBlock hsingle
    cases i with
    | zero =>
      have hstop : (4096 * (((0 : Nat) : Int) + 1)).toNat = single.size := by omega
      have hstart : (4096 * ((0 : Nat) : Int)).toNat = 0 := by omega
      obtain rfl := Option.some.inj hblock
      rw [hsingle, imageBytes, hstart, hstop, slice_append_left]
    | succ i =>
      have hstop : (4096 * (((i + 1 : Nat) : Int) + 1)).toNat =
          single.size + (4096 * ((i : Int) + 1)).toNat := by omega
      have hstart : (4096 * ((i + 1 : Nat) : Int)).toNat =
          single.size + (4096 * (i : Int)).toNat := by omega
      rw [ih hmore hblock, imageBytes, imageBytes, hstart, hstop, slice_append_right]

theorem readBlock_backToBack {source : BlockSource} {blocks : List Int} {data : ByteArray} {i : Nat}
    {block : Int} (hread : source.readBlocks blocks = .ok data)
    (hblock : blocks[i]? = some block) :
    (inMemory data [] 0 {}).readBlock i = source.readBlock block := by
  have hi := (List.getElem?_eq_some_iff.1 hblock).1
  have hsize : data.size = 4096 * blocks.length := size_readBlocks hread
  rw [readBlock_of_readBlocks hread hblock]
  exact read_inMemory _ _ (by decide) (by omega) (by omega)

end BlockSource

end RegionSalvage
