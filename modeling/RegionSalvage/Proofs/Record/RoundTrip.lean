import RegionSalvage.Proofs.Record.Growth
import RegionSalvage.Record.Decode

/-! # A record comes back as it was written

A record that was written as its header, a zlib stream and any padding up to the end of its last
sector is found again and decoded, wherever its sectors lie: one behind the other, or scattered with
the list of their blocks at hand.  The other blocks of the image, and the padding, do not matter.
-/

namespace RegionSalvage

/-! ## Records -/

/-- The header of a record whose stream has `n` bytes. -/
def recordHeader (n : Nat) : ByteArray :=
  ⟨#[UInt8.ofNat (n / 0x1000000), UInt8.ofNat (n / 0x10000), UInt8.ofNat (n / 0x100), UInt8.ofNat n,
    2]⟩

/-- A record: header, stream, padding. -/
def recordBytes (stream padding : ByteArray) : ByteArray :=
  recordHeader stream.size ++ stream ++ padding

/-- The blocks of a record of `count` sectors, the first of which is `block`. -/
def recordPlaces (block : Int) (count : Nat) : Option (List Int) → List Int
  | none => consecutive block count
  | some blocks => block :: blocks.take (count - 1)

theorem recordPlaces_zero (block : Int) (count : Nat) (extra : Option (List Int)) :
    (recordPlaces block (count + 1) extra)[0]? = some block := by
  cases extra with
  | none => rw [recordPlaces, consecutive_succ, List.getElem?_cons_zero]
  | some blocks => rw [recordPlaces, List.getElem?_cons_zero]

theorem recordPlaces_one (block : Int) (extra : Option (List Int)) :
    recordPlaces block 1 extra = [block] := by
  cases extra with
  | none => rw [recordPlaces, consecutive_succ, consecutive_zero]
  | some blocks => rw [recordPlaces, Nat.sub_self, List.take_zero]

variable {stream padding : ByteArray}

theorem octet_recordBytes_header {i : Nat} (h : i < 5) :
    octet (recordBytes stream padding) i = octet (recordHeader stream.size) i := by
  have hsize : (recordHeader stream.size).size = 5 := rfl
  rw [recordBytes, octet_append_left (by rw [ByteArray.size_append]; omega),
    octet_append_left (by omega)]

theorem octet_recordBytes_stream {i : Nat} (h : i < stream.size) :
    octet (recordBytes stream padding) (5 + i) = octet stream i := by
  have hsize : (recordHeader stream.size).size = 5 := rfl
  rw [recordBytes, octet_append_left (by rw [ByteArray.size_append]; omega), ← hsize,
    octet_append_right]

/-- A record declares the length of its stream. -/
theorem be32_recordBytes {stop : Nat} (hlength : stream.size ≤ maxRecordLength) (hstop : 4 ≤ stop) :
    be32 (slice (recordBytes stream padding) 0 stop) 0 = stream.size := by
  unfold maxRecordLength at hlength
  rw [be32_slice (by omega)]
  exact be32_of_digits (by omega) (octet_recordBytes_header (by decide))
    (octet_recordBytes_header (by decide)) (octet_recordBytes_header (by decide))
    (octet_recordBytes_header (by decide))

/-- Two bytes that are not zero are there. -/
theorem size_of_mark (hmark : octet stream 0 = 0x78 ∧ octet stream 1 = 0x9C) : 2 ≤ stream.size := by
  apply Nat.le_of_not_lt
  intro hlt
  rw [octet_of_le (i := 1) (by omega)] at hmark
  exact absurd hmark.2 (by decide)

theorem be32_mark {stop : Nat} (hmark : octet stream 0 = 0x78 ∧ octet stream 1 = 0x9C)
    (hstop : 8 ≤ stop) :
    be32 (slice (recordBytes stream padding) 0 stop) 4 / 256 = chunkHeaderMark := by
  have hsize := size_of_mark hmark
  have htype : octet (recordHeader stream.size) 4 = 2 := rfl
  have hlast := octet_lt (recordBytes stream padding) (0 + 4 + 3)
  rw [be32_slice (by omega), be32, octet_recordBytes_header (by decide), htype,
    octet_recordBytes_stream (i := 0) (by omega), octet_recordBytes_stream (i := 1) (by omega),
    hmark.1, hmark.2, chunkHeaderMark]
  omega

/-- The first sector of a record passes for one, and so does any longer part of the record. -/
theorem startsChunk_recordBytes {stop : Nat}
    (hmark : octet stream 0 = 0x78 ∧ octet stream 1 = 0x9C)
    (hlength : stream.size ≤ maxRecordLength)
    (hstop : 8 ≤ stop) (hsize : stop ≤ (recordBytes stream padding).size) :
    startsChunk (slice (recordBytes stream padding) 0 stop) = true := by
  rw [startsChunk, be32_recordBytes hlength (by omega), be32_mark hmark hstop, size_slice]
  simp only [Bool.and_eq_true, decide_eq_true_eq, beq_self_eq_true, and_true]
  omega

/-! ## Chains -/

namespace SectorChain

variable {image whole : ByteArray} (allocated : List Int) (first : Int) {block : Int} {count : Nat}
  {extra : Option (List Int)}

/-- The first sector of a record makes a chain. -/
theorem ofRun_of_liesAt (hlies : LiesAt image whole 0 block) (hwhole : blockSize ≤ whole.size) :
    ∃ chain, SectorChain.ofRun (.inMemory image allocated first {}) block 1 = .ok chain ∧
      chain.bytes = slice whole 0 blockSize ∧ chain.blocks = [block] := by
  have hread := BlockSource.readBlock_of_liesAt allocated first hlies (by omega)
  obtain ⟨chain, hchain, hbytes, -⟩ := appendRun_of_read .empty hread
  exact ⟨chain, hchain, hbytes.trans ByteArray.empty_append, blocks_ofRun_one hchain⟩

/-- A chain with the first sector takes the others from the blocks behind it. -/
theorem grow_of_run {chain : SectorChain} (hbytes : chain.bytes = slice whole 0 blockSize)
    (hblocks : chain.blocks = [block]) (hcount : 1 ≤ count)
    (hwhole : whole.size = blockSize * (count + 1))
    (hlies : ∀ i < count, LiesAt image whole (1 + i) (block + 1 + i)) :
    ∃ grown, chain.grow (.inMemory image allocated first {}) count none = .ok grown ∧
      grown.bytes = slice whole 0 (blockSize * (count + 1)) ∧
      grown.blocks = consecutive block (count + 1) := by
  obtain ⟨grown, hgrown, hmore, hplaces⟩ := appendRun_of_read chain
    (BlockSource.read_of_run allocated first hcount hlies
      (Nat.le_of_eq (by rw [hwhole, Nat.add_comm])))
  refine ⟨grown, ?_, ?_, ?_⟩
  · rw [grow, hblocks]
    change grow.attempt chain count (chain.appendRun _ (block + 1) count) = _
    rw [hgrown]
    rfl
  · rw [hmore, hbytes, Nat.mul_one,
      slice_append_slice (Nat.zero_le _) (by unfold blockSize; omega), Nat.add_comm]
  · rw [hplaces, hblocks, consecutive_succ, Int.toNat_natCast]
    rfl

/-- A chain with the first sector takes the others from the front of a list of blocks; what comes
after them in the list is left alone. -/
theorem grow_of_list {chain : SectorChain} {blocks : List Int}
    (hbytes : chain.bytes = slice whole 0 blockSize) (hblocks : chain.blocks = [block])
    (hlength : count ≤ blocks.length) (hwhole : whole.size = blockSize * (count + 1))
    (hlies : ∀ i e, (blocks.take count)[i]? = some e → LiesAt image whole (1 + i) e) :
    ∃ grown, chain.grow (.inMemory image allocated first {}) count (some blocks) = .ok grown ∧
      grown.bytes = slice whole 0 (blockSize * (count + 1)) ∧
      grown.blocks = block :: blocks.take count := by
  have htake : (blocks.take count).length = count := List.length_take_of_le hlength
  obtain ⟨grown, hgrown, hmore, hplaces⟩ := appendBlocks_of_read chain
    (BlockSource.readBlocks_of_liesAt allocated first hlies
      (Nat.le_of_eq (by rw [htake, hwhole, Nat.add_comm])))
  refine ⟨grown, ?_, ?_, ?_⟩
  · rw [grow, if_neg (by omega), Int.toNat_natCast, hgrown]
    rfl
  · rw [hmore, hbytes, Nat.mul_one, htake,
      slice_append_slice (Nat.zero_le _) (by unfold blockSize; omega), Nat.add_comm]
  · rw [hplaces, hblocks]
    rfl

/-- A chain with the first sector grows into one with all sectors. -/
theorem grow_of_liesAt {chain : SectorChain}
    (hbytes : chain.bytes = slice whole 0 blockSize) (hblocks : chain.blocks = [block])
    (hcount : 1 ≤ count) (hwhole : whole.size = blockSize * (count + 1))
    (hextra : ∀ blocks, extra = some blocks → count ≤ blocks.length)
    (hlies : ∀ j e, (recordPlaces block (count + 1) extra)[j]? = some e → LiesAt image whole j e) :
    ∃ grown, chain.grow (.inMemory image allocated first {}) count extra = .ok grown ∧
      grown.bytes = slice whole 0 (blockSize * (count + 1)) ∧
      grown.blocks = recordPlaces block (count + 1) extra := by
  cases extra with
  | none =>
    apply grow_of_run allocated first hbytes hblocks hcount hwhole
    intro i hi
    apply hlies
    rw [recordPlaces, getElem?_consecutive (by omega)]
    congr 1
    omega
  | some blocks =>
    apply grow_of_list allocated first hbytes hblocks (hextra blocks rfl) hwhole
    intro i e hi
    rw [Nat.add_comm]
    exact hlies (i + 1) e hi

/-- The stream is the payload of every chain that holds enough of its record; the padding is cut
off. -/
theorem payload_recordBytes {chain : SectorChain} {stop : Nat}
    (hbytes : chain.bytes = slice (recordBytes stream padding) 0 stop)
    (hstop : 5 + stream.size ≤ stop) (hsize : stop ≤ (recordBytes stream padding).size) :
    chain.payload stream.size = stream := by
  rw [payload, hbytes, recordHeaderSize]
  apply ext_octet
  · rw [size_slice, size_slice]
    omega
  · intro i hi
    rw [size_slice, size_slice] at hi
    rw [octet_slice (by omega), octet_slice (by omega), Nat.zero_add,
      octet_recordBytes_stream (by omega)]

theorem recordBlocks_natCast (n : Nat) : recordBlocks n = ((5 + n + 4095) / 4096 : Nat) := by
  unfold recordBlocks recordHeaderSize blockSize
  omega

/-- From the chain with its first sector a record is assembled whole. -/
theorem assemble_of_liesAt {chain : SectorChain}
    (hmark : octet stream 0 = 0x78 ∧ octet stream 1 = 0x9C)
    (hlength : stream.size ≤ maxRecordLength)
    (hbytes : chain.bytes = slice (recordBytes stream padding) 0 blockSize)
    (hblocks : chain.blocks = [block]) (hcount : count = (5 + stream.size + 4095) / 4096)
    (hwhole : (recordBytes stream padding).size = 4096 * count)
    (hextra : ∀ blocks, extra = some blocks → count - 1 ≤ blocks.length)
    (hlies : ∀ j e, (recordPlaces block count extra)[j]? = some e →
      LiesAt image (recordBytes stream padding) j e) :
    ∃ grown, chain.assemble (.inMemory image allocated first {}) extra = .ok (stream, grown) ∧
      grown.blocks = recordPlaces block count extra := by
  have hblock : blockSize = 4096 := rfl
  have hstart : startsChunk chain.bytes = true := by
    rw [hbytes]
    exact startsChunk_recordBytes hmark hlength (by decide) (by omega)
  have hword : be32 chain.bytes 0 = stream.size := by
    rw [hbytes]
    exact be32_recordBytes hlength (by decide)
  have hhave : chain.blockCount = 1 := by
    rw [blockCount, hblocks]
    rfl
  rw [assemble, hstart, hword]
  simp only [Bool.not_true, Bool.false_eq_true, if_false, recordBlocks_natCast, ← hcount, hhave]
  obtain ⟨more, hmore⟩ : ∃ more, count = more + 1 := ⟨count - 1, by omega⟩
  subst hmore
  -- A record of one sector is there already, and the list of blocks is not looked at.
  by_cases hsingle : more = 0
  · subst hsingle
    rw [if_pos (by omega), payload_recordBytes hbytes (by omega) (by omega)]
    exact ⟨chain, rfl, hblocks.trans (recordPlaces_one block extra).symm⟩
  · rw [if_neg (by omega)]
    obtain ⟨grown, hgrown, hall, hplaces⟩ := grow_of_liesAt allocated first
      hbytes hblocks (by omega) hwhole hextra hlies
    have hmissing : ((more + 1 : Nat) : Int) - (1 : Nat) = more := by omega
    rw [hmissing, hgrown]
    simp only
    rw [payload_recordBytes hall (by rw [hblock]; omega) (by rw [hblock]; omega)]
    exact ⟨grown, rfl, hplaces⟩

end SectorChain

/-! ## Records in an image -/

/-- Wherever the sectors of a record lie, its header is recognised and its stream is inflated, and
the blocks are those in which the sectors lie. -/
theorem decodeRecord_roundTrip {stream padding data image : ByteArray} (allocated : List Int)
    (first : Int) {block : Int} {count : Nat} {extra : Option (List Int)}
    (hmark : octet stream 0 = 0x78 ∧ octet stream 1 = 0x9C) (hlength : stream.size ≤ 0x100000)
    (hinflate : Zlib.inflate stream Zlib.defaultWindow = .ok data)
    (hcount : count = (5 + stream.size + 4095) / 4096)
    (hpadding : (recordBytes stream padding).size = 4096 * count)
    (hextra : ∀ blocks, extra = some blocks → count - 1 ≤ blocks.length)
    (hlies : ∀ j e, (recordPlaces block count extra)[j]? = some e →
      LiesAt image (recordBytes stream padding) j e) :
    (∃ header, (BlockSource.inMemory image allocated first {}).readBlock block = .ok header ∧
        startsChunk header = true) ∧
      decodeRecord (.inMemory image allocated first {}) block extra =
        .ok { block, dataLength := stream.size, blocks := recordPlaces block count extra
              outcome := .ok data } := by
  -- In either layout the first sector is the block itself.
  have hfirst : LiesAt image (recordBytes stream padding) 0 block := by
    apply hlies
    obtain ⟨more, hmore⟩ : ∃ more, count = more + 1 := ⟨count - 1, by omega⟩
    rw [hmore, recordPlaces_zero]
  have hread := BlockSource.readBlock_of_liesAt allocated first hfirst (by unfold blockSize; omega)
  obtain ⟨chain, hchain, hstart, hsingle⟩ :=
    SectorChain.ofRun_of_liesAt allocated first hfirst (by unfold blockSize; omega)
  have hheader : startsChunk (slice (recordBytes stream padding) 0 blockSize) = true :=
    startsChunk_recordBytes hmark hlength (by decide) (by unfold blockSize; omega)
  refine ⟨⟨_, hread, hheader⟩, ?_⟩
  obtain ⟨grown, hassemble, hplaces⟩ := SectorChain.assemble_of_liesAt allocated first
    hmark hlength hstart hsingle hcount hpadding hextra hlies
  have hword : be32 chain.bytes 0 = stream.size := by
    rw [hstart]
    exact be32_recordBytes hlength (by decide)
  rw [decodeRecord, hchain]
  simp only [hassemble, hinflate, hword, hplaces]

/-- A stream of the byte `0x61`, one byte too long for its record to fit into a sector. -/
def longStream : ByteArray :=
  ⟨(([0x78, 0x9C, 1, 1, 0, 0xFE, 0xFF, 0x61, 0, 0x62, 0, 0x62] : List UInt8) ++
    List.replicate 4080 0).toArray⟩

theorem size_longStream : longStream.size = 4092 := by
  change (_ ++ List.replicate 4080 0 : List UInt8).length = 4092
  rw [List.length_append, List.length_replicate]
  rfl

def longRecord : ByteArray := recordBytes longStream (zeros 4095)

theorem size_longRecord : longRecord.size = 8192 := by
  rw [longRecord, recordBytes, ByteArray.size_append, ByteArray.size_append, size_longStream,
    size_zeros]
  rfl

/-- Its second sector in block 0, its first one in block 1. -/
def swappedImage : ByteArray := slice longRecord 4096 8192 ++ slice longRecord 0 4096

theorem size_swappedImage : swappedImage.size = 8192 := by
  rw [swappedImage, ByteArray.size_append, size_slice, size_slice, size_longRecord]
  rfl

theorem liesAt_swappedImage {j : Nat} {block : Int}
    (h : (recordPlaces 1 2 (some [0, 7]))[j]? = some block) :
    LiesAt swappedImage longRecord j block := by
  have hhalf : (slice longRecord 4096 8192).size = 4096 := by
    rw [size_slice, size_longRecord]
    rfl
  change ([1, 0] : List Int)[j]? = some block at h
  -- The second half of the record stands in front of the first.
  match j, h with
  | 0, rfl =>
    exact
      { nonneg := by decide
        inside := by rw [size_swappedImage]; decide
        octet_eq := by
          intro i hi
          unfold blockSize at hi
          have hright := octet_append_right (slice longRecord 4096 8192) (slice longRecord 0 4096) i
          rw [hhalf, octet_slice (by omega)] at hright
          exact hright }
  | 1, rfl =>
    exact
      { nonneg := by decide
        inside := by rw [size_swappedImage]; decide
        octet_eq := by
          intro i hi
          unfold blockSize at hi
          have hleft := octet_append_left (a := slice longRecord 4096 8192)
            (b := slice longRecord 0 4096) (i := i) (by omega)
          rw [octet_slice (by omega)] at hleft
          rw [show (4096 * (0 : Int)).toNat + i = i by omega]
          exact hleft }

theorem eq_ok_of_toOption {ε α : Type} {x : Except ε α} {a : α} (h : x.toOption = some a) :
    x = .ok a := by
  cases x with
  | error e => exact nomatch h
  | ok b => exact congrArg Except.ok (Option.some.inj h)

theorem inflate_longStream : Zlib.inflate longStream Zlib.defaultWindow = .ok ⟨#[0x61]⟩ :=
  eq_ok_of_toOption (by decide +kernel)

theorem decodeRecord_swappedImage :
    decodeRecord (.inMemory swappedImage [] 0 {}) 1 (some [0, 7]) =
      .ok { block := 1, dataLength := 4092, blocks := [1, 0], outcome := .ok ⟨#[0x61]⟩ } := by
  have hmark : octet longStream 0 = 0x78 ∧ octet longStream 1 = 0x9C := by decide +kernel
  have hlength : longStream.size ≤ 0x100000 := by
    rw [size_longStream]
    decide
  have hcount : 2 = (5 + longStream.size + 4095) / 4096 := by rw [size_longStream]
  have hsize : (recordBytes longStream (zeros 4095)).size = 4096 * 2 := size_longRecord
  have hextra (blocks : List Int) (h : some [0, 7] = some blocks) : 2 - 1 ≤ blocks.length := by
    cases h
    decide
  have hround := (decodeRecord_roundTrip [] 0 hmark hlength inflate_longStream hcount hsize hextra
    fun j block => liesAt_swappedImage).2
  rw [size_longStream] at hround
  exact hround

end RegionSalvage
