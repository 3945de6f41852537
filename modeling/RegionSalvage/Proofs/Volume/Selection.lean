import RegionSalvage.Proofs.Volume.Sources

/-! # What the backend `auto` opens

The backend `auto` decides by the marks of the superblock (`OnDisk.Marked`), the ext reader by the
whole of it and by the tables behind it (`OnDisk.Readable`).  An image without the marks is opened as
a flat one; an image with them is opened as a file system or not at all (`openWith_auto`).
-/

namespace RegionSalvage

/-- The image has the marks of an ext file system of 4 KiB blocks, whatever else its superblock
says. -/
structure OnDisk.Marked (image : ByteArray) : Prop where
  size_ge : superblockOffset + 104 ≤ image.size
  magic : le16 image (superblockOffset + 56) = extMagic
  exponent_eq : le32 image (superblockOffset + 24) = 2

/-- How the machine reaches the bytes of an image that is not empty. -/
def Host.access (host : Host) : ImageAccess :=
  if host.canMap then .mapped else .seeking host.maxFileSize

namespace OnDisk

variable {image : ByteArray}

theorem Marked.blockSize_eq (h : Marked image) : OnDisk.blockSize image = RegionSalvage.blockSize := by
  rw [OnDisk.blockSize, h.exponent_eq]
  rfl

theorem extBlockSize?_eq_iff :
    extBlockSize? (slice image 0 extHeaderSize) = some RegionSalvage.blockSize ↔ Marked image := by
  constructor
  · intro h
    obtain ⟨hkind, -, hsize⟩ := Superblock.extBlockSize?_eq_some h
    obtain ⟨hlong, hmagic⟩ := Superblock.exists_kind_iff.1 hkind
    rw [Superblock.le32_header image (by decide), Nat.shiftLeft_eq] at hsize
    -- Block sizes are told apart by their exponents.
    have hpower : 2 ^ le32 image (superblockOffset + 24) = 2 ^ 2 := by
      unfold RegionSalvage.blockSize at hsize
      omega
    exact ⟨hlong, hmagic, (Nat.pow_right_inj (Nat.lt_succ_self 1)).1 hpower⟩
  · intro h
    obtain ⟨kind, hkind⟩ := Superblock.exists_kind_iff.2 ⟨h.size_ge, h.magic⟩
    rw [Superblock.extBlockSize?_header hkind (by rw [h.exponent_eq]; decide), h.blockSize_eq]

/-- An image in memory without the 64-bit feature is readable if its geometry is plausible: its
descriptors have no upper halves that could be cut. -/
theorem Marked.readable (h : Marked image) (hnarrow : is64Bit image = false)
    (hpos : 0 < blocksPerGroup image) (hdvd : 8 ∣ blocksPerGroup image)
    (hlt : firstDataBlock image < totalBlocks image) : Readable image .mapped where
  geometry :=
    { size_ge := h.size_ge
      magic := h.magic
      exponent_le := by rw [h.exponent_eq]; decide
      blocksPerGroup_pos := hpos
      dvd_blocksPerGroup := hdvd
      firstDataBlock_lt := hlt }
  table := trivial
  not_halved g hhalved := by
    have hwide := hhalved.wide
    rw [hnarrow] at hwide
    cases hwide
  bitmap _ _ _ _ _ := trivial

theorem Marked.access_eq (h : Marked image) (host : Host) :
    (if (host.canMap && image.size != 0) = true then ImageAccess.mapped
      else .seeking host.maxFileSize) = host.access := by
  have hsize := h.size_ge
  have hne : (image.size != 0) = true := bne_iff_ne.2 (by omega)
  rw [hne, Bool.and_true, Host.access]

end OnDisk

namespace Volume

variable {host : Host} {files : FileTree} {path : String} {image : ByteArray}

/-! ## Images with the marks -/

theorem exists_extImage (hmarked : OnDisk.Marked image)
    (hreadable : OnDisk.Readable image host.access) :
    ∃ v, extImage image host.canMap host.maxFileSize = .ok v ∧ v.kind = .ext ∧
      v.source.blockCount = min (OnDisk.totalBlocks image : Int) (image.size / blockSize : Nat) := by
  obtain ⟨a, ha⟩ := ExtBlockMap.exists_ofImage?_iff.2 hreadable
  obtain ⟨sb, hsb, hallocation⟩ := ExtBlockMap.ofImage?_eq_ok ha
  obtain ⟨hblock, htotal, -⟩ := Superblock.allocation_eq_ok hsb hallocation
  rw [hsb.blockSize_eq, hmarked.blockSize_eq] at hblock
  rw [hsb.totalBlocks_eq] at htotal
  simp only [extImage, hmarked.access_eq host, ha, hblock, ne_eq, not_true_eq_false, if_false]
  refine ⟨_, rfl, rfl, ?_⟩
  rw [← htotal]
  rfl

theorem extImage_of_implausible_geometry (hgeometry : ¬ OnDisk.Plausible image) (canMap : Bool)
    (largest : Nat) : extImage image canMap largest = .error .notExt := by
  simp only [extImage, ExtBlockMap.ofImage?_eq_none hgeometry]

theorem exists_fault_of_not_readable (hgeometry : OnDisk.Plausible image)
    {access : ImageAccess} (hunreadable : ¬ OnDisk.Readable image access) :
    ∃ fault, ExtBlockMap.ofImage? image access = .error fault := by
  obtain ⟨sb, hsb, hallocation⟩ := ExtBlockMap.exists_ofImage?_eq access hgeometry
  cases ha : sb.allocation image access with
  | error fault => exact ⟨fault, by rw [hallocation, ha]; rfl⟩
  | ok a =>
    have hsome : ∃ a, ExtBlockMap.ofImage? image access = .ok (some a) :=
      ⟨a, by rw [hallocation, ha]; rfl⟩
    exact absurd (ExtBlockMap.exists_ofImage?_iff.1 hsome) hunreadable

/-! ## Opening by name -/

theorem openWith_mmap_eq_ok {v : Volume} (h : openWith host files path .mmap = .ok v) :
    ∃ image, files.read path = .ok image ∧ v = mappedFile image host.canMap := by
  obtain ⟨image, hread, hv⟩ := withImage_eq_ok h
  exact ⟨image, hread, (Except.ok.inj hv).symm⟩

theorem probe_eq_iff (hread : files.read path = .ok image) :
    probe files path = .ok (some blockSize) ↔ OnDisk.Marked image := by
  rw [probe, hread]
  simp only [Except.ok.injEq, OnDisk.extBlockSize?_eq_iff]

theorem openWith_auto_of_marked (hread : files.read path = .ok image)
    (hmarked : OnDisk.Marked image) :
    openWith host files path .auto = openWith.asExt host path image := by
  rw [openWith, (probe_eq_iff hread).2 hmarked]
  simp only [if_true, openWith.withImage, hread]

theorem openWith_auto_of_not_marked (hread : files.read path = .ok image)
    (hmarked : ¬ OnDisk.Marked image) :
    openWith host files path .auto = .ok (mappedFile image host.canMap) := by
  have hprobe : probe files path = .ok (extBlockSize? (slice image 0 extHeaderSize)) := by
    rw [probe, hread]
  rw [openWith, hprobe]
  simp only [OnDisk.extBlockSize?_eq_iff, hmarked, if_false, openWith.withImage, hread]

/-- Where an image can be opened as a flat one, `auto` opens it as a flat one unless it has the marks
of a file system of 4 KiB blocks.  With the marks it is opened as that file system just if it is
readable as one. -/
theorem openWith_auto {flat : Volume} (h : openWith host files path .mmap = .ok flat) :
    ∃ image, files.read path = .ok image ∧
      flat.source.blockCount = (image.size / blockSize : Nat) ∧
      (¬ OnDisk.Marked image → openWith host files path .auto = .ok flat) ∧
      (OnDisk.Marked image →
        (OnDisk.Readable image host.access →
          ∃ v, openWith host files path .auto = .ok v ∧ v.kind = .ext ∧ v.source.blockCount =
            min (OnDisk.totalBlocks image : Int) (image.size / blockSize : Nat)) ∧
        (¬ OnDisk.Plausible image → openWith host files path .auto = .error (.ext path .notExt)) ∧
        (OnDisk.Plausible image → ¬ OnDisk.Readable image host.access → ∃ fault,
          openWith host files path .auto = .error (.ext path (.unreadableBitmap fault)))) := by
  obtain ⟨image, hread, rfl⟩ := openWith_mmap_eq_ok h
  refine ⟨image, hread, rfl, openWith_auto_of_not_marked hread, fun hmarked => ?_⟩
  -- With the marks, the image is opened as a file system or not at all.
  rw [openWith_auto_of_marked hread hmarked, openWith.asExt]
  refine ⟨fun hreadable => ?_, fun hgeometry => ?_, fun hgeometry hunreadable => ?_⟩
  · obtain ⟨v, hv, hkind, hcount⟩ := exists_extImage hmarked hreadable
    rw [hv]
    exact ⟨v, rfl, hkind, hcount⟩
  · rw [extImage_of_implausible_geometry hgeometry]
  · obtain ⟨fault, hfault⟩ := exists_fault_of_not_readable hgeometry hunreadable
    simp only [extImage, hmarked.access_eq host, hfault]
    exact ⟨fault, rfl⟩

/-! ## Two images of two blocks -/

/-- A tree with one file, of the name `d`. -/
def treeOf (image : ByteArray) : FileTree := ⟨[(["d"], .file image)]⟩

theorem read_treeOf (image : ByteArray) : (treeOf image).read "d" = .ok image := by
  cbv

theorem openWith_mmap_treeOf (image : ByteArray) :
    openWith {} (treeOf image) "d" .mmap = .ok (mappedFile image true) := by
  rw [openWith, openWith.withImage, read_treeOf]

/-- An ext file system of two blocks of 4 KiB in one group, without a bitmap. -/
def twoBlocks : ByteArray :=
  sparse 8192 [(1028, 2), (1048, 2), (1056, 8), (1080, 0x53), (1081, 0xEF)]

theorem marked_twoBlocks : OnDisk.Marked twoBlocks where
  size_ge := by rw [twoBlocks, size_sparse]; decide
  magic := by rw [twoBlocks, le16_sparse]; decide
  exponent_eq := by rw [twoBlocks, le32_sparse]; decide

theorem is64Bit_twoBlocks : OnDisk.is64Bit twoBlocks = false := by
  rw [OnDisk.is64Bit, twoBlocks, le32_sparse]
  decide

theorem totalBlocks_twoBlocks : OnDisk.totalBlocks twoBlocks = 2 := by
  rw [OnDisk.totalBlocks, OnDisk.isExtended, is64Bit_twoBlocks, Bool.false_and, twoBlocks,
    le32_sparse]
  decide

theorem blocksPerGroup_twoBlocks : OnDisk.blocksPerGroup twoBlocks = 8 := by
  rw [OnDisk.blocksPerGroup, twoBlocks, le32_sparse]
  decide

theorem firstDataBlock_twoBlocks : OnDisk.firstDataBlock twoBlocks = 0 := by
  rw [OnDisk.firstDataBlock, twoBlocks, le32_sparse]
  decide

theorem readable_twoBlocks : OnDisk.Readable twoBlocks .mapped := by
  apply marked_twoBlocks.readable is64Bit_twoBlocks
  · rw [blocksPerGroup_twoBlocks]
    decide
  · rw [blocksPerGroup_twoBlocks]
  · rw [firstDataBlock_twoBlocks, totalBlocks_twoBlocks]
    decide

theorem openWith_auto_twoBlocks :
    openWith {} (treeOf twoBlocks) "d" .mmap = .ok (mappedFile twoBlocks true) ∧
      ∃ v, openWith {} (treeOf twoBlocks) "d" .auto = .ok v ∧ v.kind = .ext ∧
        v.source.blockCount = 2 := by
  refine ⟨openWith_mmap_treeOf twoBlocks, ?_⟩
  obtain ⟨image, hread, -, -, hmarked⟩ := openWith_auto (openWith_mmap_treeOf twoBlocks)
  obtain rfl : twoBlocks = image := Except.ok.inj ((read_treeOf twoBlocks).symm.trans hread)
  obtain ⟨v, hv, hkind, hcount⟩ := (hmarked marked_twoBlocks).1 readable_twoBlocks
  have hsize : twoBlocks.size = 8192 := size_sparse ..
  rw [totalBlocks_twoBlocks, hsize] at hcount
  exact ⟨v, hv, hkind, hcount⟩

/-- The image of `twoBlocks` with groups of no blocks. -/
def emptyGroups : ByteArray := sparse 8192 [(1028, 2), (1048, 2), (1080, 0x53), (1081, 0xEF)]

theorem marked_emptyGroups : OnDisk.Marked emptyGroups where
  size_ge := by rw [emptyGroups, size_sparse]; decide
  magic := by rw [emptyGroups, le16_sparse]; decide
  exponent_eq := by rw [emptyGroups, le32_sparse]; decide

/-- An image that opens as a flat one of two blocks is refused. -/
theorem refused_emptyGroups :
    (∃ flat, openWith {} (treeOf emptyGroups) "d" .mmap = .ok flat ∧
        flat.source.blockCount = 2) ∧
      openWith {} (treeOf emptyGroups) "d" .auto = .error (.ext "d" .notExt) := by
  have hsize : emptyGroups.size = 8192 := size_sparse ..
  have hcount : (mappedFile emptyGroups true).source.blockCount = 2 := by
    change ((emptyGroups.size / blockSize : Nat) : Int) = 2
    rw [hsize]
    rfl
  have hgeometry : ¬ OnDisk.Plausible emptyGroups := by
    intro h
    have hpos := h.blocksPerGroup_pos
    rw [OnDisk.blocksPerGroup, emptyGroups, le32_sparse] at hpos
    exact absurd hpos (by decide)
  refine ⟨⟨_, openWith_mmap_treeOf emptyGroups, hcount⟩, ?_⟩
  rw [openWith_auto_of_marked (read_treeOf emptyGroups) marked_emptyGroups, openWith.asExt,
    extImage_of_implausible_geometry hgeometry]

end Volume

end RegionSalvage
