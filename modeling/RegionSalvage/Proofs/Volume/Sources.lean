import RegionSalvage.Proofs.Block.Runs
import RegionSalvage.Proofs.Ext.Allocation
import RegionSalvage.Volume.Opening

/-! # Every opened volume serves its image

There are three things that a volume over an image can offer (`Volume.Offers`): the whole image, or
a part of it, with the allocation that was read of it if there is one.  An ext file system offers
what it covers by its own superblock (`Volume.Maps`); how far the toolkit goes, the toolkit says.
However an image is opened, the volume offers blocks of the image (`Volume.offers_of_openWith`), and
each of them can be read (`Volume.Offers.readBlock_eq`).
-/

namespace RegionSalvage

namespace BlockSource

variable {image : ByteArray}

/-- What is to be had of an image that was mapped is what there was, without zeros. -/
theorem pageBytes_eq {index count : Int} (hcount : 0 ≤ count) (hindex : 0 ≤ index)
    (hinside : 4096 * (index + count) ≤ image.size) :
    pageBytes image index count = imageBytes image index count := by
  -- Within the image a run has whole blocks, so its last page is full.
  have hsize := size_imageBytes hcount hindex hinside
  have hpad : (blockSize - (imageBytes image index count).size % blockSize) % blockSize = 0 := by
    unfold blockSize
    omega
  simp only [pageBytes, hpad]
  rfl

/-- Outside the range a read refuses before it looks at any bytes. -/
theorem checkedRead_congr {fetch fetch' : Int → Int → ByteArray} {stop : Int}
    (h : ∀ index count, 1 ≤ count → 0 ≤ index → index + count ≤ stop →
      fetch index count = fetch' index count) :
    checkedRead stop fetch = checkedRead stop fetch' := by
  funext index count
  simp only [checkedRead]
  split
  · rfl
  · split
    · rfl
    · rw [h index count (by omega) (by omega) (by omega)]

/-- Bytes from elsewhere make no difference if they are those of the image. -/
theorem refetched_ofImage {fetch : Int → Int → ByteArray} {first stop : Int}
    {isAllocated : Int → Bool}
    (h : ∀ index count, 1 ≤ count → 0 ≤ index → index + count ≤ stop →
      fetch index count = imageBytes image index count) :
    (ofImage image first stop isAllocated).refetched fetch =
      ofImage image first stop isAllocated := by
  simp only [refetched, ofImage, checkedRead_congr h]

end BlockSource

namespace Volume

/-- What a volume over an image offers, and the allocation that goes with it. -/
inductive Offers (image : ByteArray) : BlockSource → Option ExtBlockMap → Prop where
  | whole : Offers image (.flat image) none
  | bounded (first stop : Nat) :
      Offers image (.ofImage image first (coveredBlocks image stop) fun _ => false) none
  | covered {sb : Superblock} {access : ImageAccess} {a : ExtBlockMap}
      (hsb : sb.Describes image) (ha : sb.allocation image access = .ok a) (stop : Nat)
      (hstop : stop ≤ 0x10000000000000000) :
      Offers image
        (.ofImage image a.firstDataBlock (coveredBlocks image stop) a.isAllocated) (some a)

/-- What an ext file system offers. -/
inductive Maps (image : ByteArray) : BlockSource → ExtBlockMap → Prop where
  | covered {sb : Superblock} {access : ImageAccess} {a : ExtBlockMap}
      (hsb : sb.Describes image) (ha : sb.allocation image access = .ok a) :
      Maps image
        (.ofImage image a.firstDataBlock (coveredBlocks image a.totalBlocks) a.isAllocated) a

variable {host : Host} {files : FileTree} {path : String} {image : ByteArray} {v : Volume}

namespace Offers

variable {source : BlockSource} {allocation : Option ExtBlockMap}

theorem blockCount_le (h : Offers image source allocation) :
    source.blockCount ≤ (image.size / blockSize : Nat) := by
  cases h with
  | whole => exact Int.le_refl _
  | bounded _ _ => exact Int.min_le_right _ _
  | covered _ _ _ _ => exact Int.min_le_right _ _

theorem firstIndex_nonneg (h : Offers image source allocation) : 0 ≤ source.firstIndex := by
  cases h with
  | whole => exact Int.le_refl _
  | bounded first _ => exact Int.natCast_nonneg first
  | covered hsb ha _ _ =>
    obtain ⟨-, -, hfirst, -⟩ := Superblock.allocation_eq_ok hsb ha
    exact hfirst ▸ Int.natCast_nonneg _

theorem serves (h : Offers image source allocation) : source.Serves image := by
  cases h with
  | whole => exact .ofImage 0 _ (Int.le_refl _)
  | bounded _ _ => exact .ofImage _ _ (Int.min_le_right _ _)
  | covered _ _ _ _ => exact .ofImage _ _ (Int.min_le_right _ _)

/-- Each block in the range of a volume is there as a whole. -/
theorem readBlock_eq (h : Offers image source allocation) {block : Int} (hnonneg : 0 ≤ block)
    (hlast : block < source.blockCount) :
    source.readBlock block = .ok (BlockSource.imageBytes image block 1) := by
  have hcount := h.blockCount_le
  have hread : source.read = checkedRead source.blockCount (BlockSource.imageBytes image) := by
    cases h <;> rfl
  rw [BlockSource.readBlock, hread, checkedRead_eq_ok_iff]
  unfold blockSize at hcount
  exact ⟨by decide, hnonneg, by omega,
    BlockSource.size_imageBytes (by decide) hnonneg (by omega), rfl⟩

/-- The file system answers for each block, and the source passes the answer on. -/
theorem isAllocated_eq {a : ExtBlockMap} (h : Offers image source (some a)) :
    source.isAllocated = a.isAllocated ∧ ∀ block, ∃ used, a.isAllocated? block = some used := by
  cases h with
  | covered hsb ha _ _ => exact ⟨rfl, Superblock.exists_isAllocated? hsb ha⟩

/-- The numbers of the blocks of a file system have 64 bits. -/
theorem blockCount_le_of_some {a : ExtBlockMap} (h : Offers image source (some a)) :
    source.blockCount ≤ 0x10000000000000000 := by
  cases h with
  | covered _ _ stop hstop => exact (Int.min_le_left _ _).trans (by omega)

theorem refetched_eq (h : Offers image source allocation) {fetch : Int → Int → ByteArray}
    (hfetch : ∀ index count : Int, 0 ≤ count → 0 ≤ index → 4096 * (index + count) ≤ image.size →
      fetch index count = BlockSource.imageBytes image index count) :
    source.refetched fetch = source := by
  have hcount := h.blockCount_le
  unfold blockSize at hcount
  have hinside (index count : Int) (hpos : 1 ≤ count) (hindex : 0 ≤ index)
      (hstop : index + count ≤ source.blockCount) :=
    hfetch index count (by omega) hindex (by omega)
  cases h with
  | whole => exact BlockSource.refetched_ofImage hinside
  | bounded _ _ => exact BlockSource.refetched_ofImage hinside
  | covered _ _ _ _ => exact BlockSource.refetched_ofImage hinside

/-- While the file stays as it is, so does what the volume reads of it. -/
theorem sourceOver_eq (h : Offers image v.source v.allocation) :
    v.sourceOver image = v.source := by
  have hpages : v.source.refetched (BlockSource.pageBytes image) = v.source :=
    h.refetched_eq fun _ _ => BlockSource.pageBytes_eq
  have hbytes : v.source.refetched (BlockSource.imageBytes image) = v.source :=
    h.refetched_eq fun _ _ _ _ _ => rfl
  have hkept : v.source.refetched (if v.isMapped then BlockSource.pageBytes image
      else BlockSource.imageBytes image) = v.source := by
    split
    · exact hpages
    · exact hbytes
  rw [sourceOver]
  cases v.kind with
  | memory => rfl
  | file => exact hkept
  | mapped => exact hkept
  | ext => exact hkept
  | toolkit => rfl

end Offers

theorem Maps.offers {source : BlockSource} {a : ExtBlockMap} (h : Maps image source a) :
    Offers image source (some a) := by
  cases h with
  | covered hsb ha =>
    obtain ⟨-, htotal, -⟩ := Superblock.allocation_eq_ok hsb ha
    have hlt := OnDisk.totalBlocks_lt image
    rw [← hsb.totalBlocks_eq] at hlt
    rw [htotal]
    exact .covered hsb ha _ (by omega)

/-! ## Opening -/

theorem maps_of_extImage {canMap : Bool} {largest : Nat}
    (h : extImage image canMap largest = .ok v) :
    ∃ a, v.allocation = some a ∧ Maps image v.source a := by
  simp only [extImage] at h
  split at h
  · cases h
  · cases h
  · next a hsome =>
    obtain ⟨sb, hsb, ha⟩ := ExtBlockMap.ofImage?_eq_ok hsome
    split at h
    · cases h
    · cases h
      exact ⟨a, rfl, .covered hsb ha⟩

theorem offers_of_toolkitImage {recognise : ByteArray → Option ToolkitReport}
    (h : toolkitImage recognise image = .ok v) : Offers image v.source v.allocation := by
  unfold toolkitImage at h
  split at h
  · cases h
    exact .whole
  · next report _ =>
    split at h
    · cases h
    · simp only at h
      split at h
      · cases h
      · cases h
        exact .bounded report.firstBlock.toNat (report.lastBlock.toNat + 1)
      · next a hsome =>
        cases h
        obtain ⟨sb, hsb, ha⟩ := ExtBlockMap.ofImage?_eq_ok hsome
        have hlt := report.lastBlock.toNat_lt
        exact .covered hsb ha (report.lastBlock.toNat + 1) (by omega)

theorem withImage_eq_ok {k : ByteArray → Except OpenError Volume}
    (h : openWith.withImage files path k = .ok v) :
    ∃ image, files.read path = .ok image ∧ k image = .ok v := by
  unfold openWith.withImage at h
  split at h
  · cases h
  · next image hread => exact ⟨image, hread, h⟩

theorem extImage_of_asExt (h : openWith.asExt host path image = .ok v) :
    extImage image host.canMap host.maxFileSize = .ok v := by
  unfold openWith.asExt at h
  split at h
  · cases h
  · next v' hv =>
    cases h
    exact hv

/-- The ways in which an image comes to be a volume. -/
theorem openWith_eq_ok {backend : Backend} (h : openWith host files path backend = .ok v) :
    ∃ image, files.read path = .ok image ∧
      (v = flatFile image ∨ v = mappedFile image host.canMap ∨
        extImage image host.canMap host.maxFileSize = .ok v ∨
        toolkitImage host.toolkit image = .ok v) := by
  have hmapped (hopen : openWith.withImage files path
      (fun image => .ok (mappedFile image host.canMap)) = .ok v) :
      ∃ image, files.read path = .ok image ∧ v = mappedFile image host.canMap := by
    obtain ⟨image, hread, hv⟩ := withImage_eq_ok hopen
    exact ⟨image, hread, (Except.ok.inj hv).symm⟩
  have hext (hopen : openWith.withImage files path (openWith.asExt host path) = .ok v) :
      ∃ image, files.read path = .ok image ∧
        extImage image host.canMap host.maxFileSize = .ok v := by
    obtain ⟨image, hread, hv⟩ := withImage_eq_ok hopen
    exact ⟨image, hread, extImage_of_asExt hv⟩
  -- Every backend ends in one of the four, and `auto` in one of two.
  cases backend with
  | file =>
    obtain ⟨image, hread, hv⟩ := withImage_eq_ok h
    exact ⟨image, hread, .inl (Except.ok.inj hv).symm⟩
  | mmap =>
    obtain ⟨image, hread, hv⟩ := hmapped h
    exact ⟨image, hread, .inr (.inl hv)⟩
  | ext =>
    obtain ⟨image, hread, hv⟩ := hext h
    exact ⟨image, hread, .inr (.inr (.inl hv))⟩
  | auto =>
    simp only [openWith] at h
    split at h
    · cases h
    · split at h
      · obtain ⟨image, hread, hv⟩ := hext h
        exact ⟨image, hread, .inr (.inr (.inl hv))⟩
      · obtain ⟨image, hread, hv⟩ := hmapped h
        exact ⟨image, hread, .inr (.inl hv)⟩
  | tsk =>
    simp only [openWith] at h
    split at h
    · cases h
    · split at h
      · cases h
      · next image hread =>
        split at h
        · cases h
        · next v' hv =>
          cases h
          exact ⟨image, hread, .inr (.inr (.inr hv))⟩

theorem offers_of_openWith {backend : Backend} (h : openWith host files path backend = .ok v) :
    ∃ image, files.read path = .ok image ∧ Offers image v.source v.allocation := by
  obtain ⟨image, hread, rfl | rfl | hext | htoolkit⟩ := openWith_eq_ok h
  · exact ⟨image, hread, .whole⟩
  · exact ⟨image, hread, .whole⟩
  · obtain ⟨a, ha, hmaps⟩ := maps_of_extImage hext
    exact ⟨image, hread, ha ▸ hmaps.offers⟩
  · exact ⟨image, hread, offers_of_toolkitImage htoolkit⟩

end Volume

end RegionSalvage
