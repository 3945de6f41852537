import RegionSalvage.Proofs.Record.Decoding
import RegionSalvage.Proofs.Zlib.Boundary

/-! # Declared lengths that are wrong

The declared length of a record decides how many bytes are taken for its stream.  When these are
more than the stream has, the record decodes as if they were not there, whatever they are, also when
they lie in further blocks.  When they are fewer, the record fails, wherever the stream is cut.

The payload and the stream agree as far as both go, so the longer one of them starts with the other
(`exists_append`); the rest is said of streams alone, in `Proofs.Zlib.Boundary`.
-/

namespace RegionSalvage

/-! ## Records in bytes -/

/-- The bytes are those of a record with a permitted length, and this stream lies behind its header,
as far as the bytes go. -/
structure HoldsStream (bytes stream : ByteArray) : Prop where
  type_eq : octet bytes 4 = 2
  length_le : be32 bytes 0 ≤ 0x100000
  octet_eq : ∀ i < stream.size, 5 + i < bytes.size → octet bytes (5 + i) = octet stream i

variable {source : BlockSource} {block : Int} {extra : Option (List Int)} {chain : SectorChain}
  {bytes stream payload data : ByteArray}

theorem startsChunk_of_holdsStream (h : HoldsStream bytes stream) (hsize : 8 ≤ bytes.size)
    (hmark : octet stream 0 = 0x78 ∧ octet stream 1 = 0x9C) : startsChunk bytes = true := by
  have hstream := size_of_mark hmark
  have hfirst := (h.octet_eq 0 (by omega) (by omega)).trans hmark.1
  have hsecond := (h.octet_eq 1 (by omega) (by omega)).trans hmark.2
  have hlast := octet_lt bytes 7
  have hword : be32 bytes 4 / 256 = chunkHeaderMark := by
    change (((octet bytes 4 * 256 + octet bytes 5) * 256 + octet bytes 6) * 256 +
      octet bytes 7) / 256 = 0x02789C
    rw [h.type_eq, hfirst, hsecond]
    omega
  have hlength : be32 bytes 0 ≤ maxRecordLength := h.length_le
  rw [startsChunk, hword]
  simp [hsize, hlength]

namespace SectorChain

theorem exists_append_of_gathered (h : chain.gathered source extra = .ok bytes) :
    ∃ more, bytes = chain.bytes ++ more := by
  unfold gathered at h
  split at h
  · cases h
    exact ⟨.empty, ByteArray.append_empty.symm⟩
  · split at h
    · cases h
    · cases h
      exact ⟨_, rfl⟩

/-- When its further blocks are there, a record with a stream offers the bytes behind its header, as
many as it declares. -/
theorem exists_offers (hblocks : chain.blocks = [block]) (henough : chain.Enough extra)
    (hgathered : chain.gathered source extra = .ok bytes) (hholds : HoldsStream bytes stream)
    (hmark : octet stream 0 = 0x78 ∧ octet stream 1 = 0x9C) :
    ∃ payload, chain.Offers source extra payload ∧ payload.size = be32 bytes 0 ∧
      ∀ i < payload.size, i < stream.size → octet payload i = octet stream i := by
  have hsize : chain.bytes.size = 4096 := by
    rw [chain.size_eq, hblocks]
    rfl
  obtain ⟨more, rfl⟩ := exists_append_of_gathered hgathered
  have hword : be32 (chain.bytes ++ more) 0 = be32 chain.bytes 0 := be32_append_left (by omega)
  -- The first block by itself holds what there is of the stream in it.
  have hstart : startsChunk chain.bytes = true := by
    have hoctet {i : Nat} (hi : i < 4096) : octet (chain.bytes ++ more) i = octet chain.bytes i :=
      octet_append_left (by omega)
    have hfirst : HoldsStream chain.bytes stream :=
      { type_eq := (hoctet (by decide)).symm.trans hholds.type_eq
        length_le := hword ▸ hholds.length_le
        octet_eq := by
          intro i hi hinside
          rw [← hoctet (by omega)]
          exact hholds.octet_eq i hi (by rw [ByteArray.size_append]; omega) }
    exact startsChunk_of_holdsStream hfirst (by omega) hmark
  have hoffers : chain.Offers source extra
      (slice (chain.bytes ++ more) 5 (5 + be32 chain.bytes 0)) :=
    ⟨hstart, henough, _, hgathered, rfl⟩
  obtain ⟨grown, hassemble⟩ := hoffers.exists_assemble
  refine ⟨_, hoffers, (exact_of_assemble hassemble).size_eq.trans hword.symm, ?_⟩
  intro i hi hstream
  rw [size_slice] at hi
  rw [octet_slice (by omega)]
  exact hholds.octet_eq i hstream (by omega)

end SectorChain

/-! ## Payloads and streams -/

theorem inflate_of_agree {window : Int} (hwindow : Zlib.IsWindow window)
    (hinflate : Zlib.inflate stream window = .ok data) (hsize : stream.size ≤ payload.size)
    (hagree : ∀ i < payload.size, i < stream.size → octet payload i = octet stream i) :
    Zlib.inflate payload window = .ok data := by
  obtain ⟨rest, rfl⟩ := exists_append hsize fun i hi => hagree i (by omega) hi
  exact Zlib.inflate_append rest hwindow hinflate

theorem inflate_of_agree_of_lt {window : Int} (hwindow : Zlib.IsWindow window)
    (hends : Zlib.EndsAt stream stream.size) (hsize : payload.size < stream.size)
    (hagree : ∀ i < payload.size, i < stream.size → octet payload i = octet stream i) :
    ∃ size, Zlib.inflate payload window = .error (.truncated size) := by
  obtain ⟨rest, hrest⟩ := exists_append (Nat.le_of_lt hsize) fun i hi =>
    (hagree i hi (by omega)).symm
  rw [hrest] at hends
  exact Zlib.inflate_part rest hwindow hends (by rw [← hrest]; exact hsize)

/-! ## Records -/

/-- What a record with this payload decodes to. -/
theorem decodeRecord_of_offers (hchain : SectorChain.ofRun source block 1 = .ok chain)
    (hoffers : chain.Offers source extra payload) :
    ∃ decoded, decodeRecord source block extra = .ok decoded ∧
      decoded.outcome = (Zlib.inflate payload Zlib.defaultWindow).mapError .decompression := by
  obtain ⟨grown, hassemble⟩ := hoffers.exists_assemble
  exact ⟨_, decodeRecord_of_assembled hchain hassemble, rfl⟩

/-- A complete stream inflates whatever follows it, and no part of it does.  So a record decodes
when it declares at least the length of its stream, and fails when it declares less. -/
theorem decodeRecord_anyLength {window : Int} (hwindow : Zlib.IsWindow window)
    (hinflate : Zlib.inflate stream window = .ok data)
    (hends : Zlib.EndsAt stream stream.size) :
    (∀ rest, Zlib.inflate (stream ++ rest) window = .ok data) ∧
    (∀ part rest, stream = part ++ rest → part.size < stream.size →
      ∃ size, Zlib.inflate part window = .error (.truncated size)) ∧
    (octet stream 0 = 0x78 ∧ octet stream 1 = 0x9C →
      ∀ (source : BlockSource) (block : Int) (extra : Option (List Int)) (chain : SectorChain)
        (bytes : ByteArray),
        SectorChain.ofRun source block 1 = .ok chain → chain.Enough extra →
        chain.gathered source extra = .ok bytes → HoldsStream bytes stream →
        ∃ decoded, decodeRecord source block extra = .ok decoded ∧
          (stream.size ≤ be32 bytes 0 → decoded.outcome = .ok data) ∧
          (be32 bytes 0 < stream.size →
            ∃ size, decoded.outcome = .error (.decompression (.truncated size)))) := by
  refine ⟨fun rest => Zlib.inflate_append rest hwindow hinflate, ?_, ?_⟩
  · intro part rest hparts hlt
    rw [hparts] at hends hlt
    exact Zlib.inflate_part rest hwindow hends hlt
  · intro hmark source block extra chain bytes hchain henough hgathered hholds
    -- The payload agrees with the stream as far as both go; the declared length says which is
    -- longer.
    obtain ⟨payload, hoffers, hsize, hagree⟩ := SectorChain.exists_offers
      (SectorChain.blocks_ofRun_one hchain) henough hgathered hholds hmark
    obtain ⟨decoded, hdecoded, houtcome⟩ := decodeRecord_of_offers hchain hoffers
    have hdefault := Zlib.isWindow_defaultWindow
    refine ⟨decoded, hdecoded, fun hle => ?_, fun hlt => ?_⟩
    · rw [Zlib.inflate_windows stream hwindow hdefault] at hinflate
      rw [houtcome, inflate_of_agree hdefault hinflate (by omega) hagree]
      rfl
    · obtain ⟨size, htruncated⟩ := inflate_of_agree_of_lt hdefault hends (by omega) hagree
      refine ⟨size, ?_⟩
      rw [houtcome, htruncated]
      rfl

def letterStream : ByteArray :=
  ⟨#[0x78, 0x9C, 0x4B, 0x04, 0x00, 0x00, 0x62, 0x00, 0x62]⟩

theorem inflate_letterStream :
    Zlib.inflate letterStream Zlib.defaultWindow = .ok ⟨#[0x61]⟩ := by
  decide +kernel

theorem endsAt_letterStream : Zlib.EndsAt letterStream letterStream.size := by
  have hend : ((({} : Zlib.Machine).run letterStream none (8 * letterStream.size + 1)).map
      fun last => (last.isFinished, last.pos)) = .ok (true, 8 * letterStream.size) := by
    decide +kernel
  cases hrun : ({} : Zlib.Machine).run letterStream none (8 * letterStream.size + 1) with
  | error f =>
    rw [hrun] at hend
    exact nomatch hend
  | ok last =>
    rw [hrun] at hend
    obtain ⟨hfinished, hpos⟩ := Prod.mk.inj (Except.ok.inj hend)
    exact Zlib.endsAt_of_run hrun hfinished hpos

/-- A block with `letterStream` behind a header that declares `n` bytes. -/
def letterBlock (n : Nat) : ByteArray := recordHeader n ++ letterStream ++ zeros 4082

theorem size_letterBlock (n : Nat) : (letterBlock n).size = 4096 := by
  rw [letterBlock, ByteArray.size_append, ByteArray.size_append, size_zeros]
  rfl

theorem octet_letterBlock {n i : Nat} (h : i < 14) :
    octet (letterBlock n) i = octet (recordHeader n ++ letterStream) i := by
  have hsize : (recordHeader n ++ letterStream).size = 14 := rfl
  exact octet_append_left (by omega)

/-- Both lengths fit into the block. -/
theorem exists_chain_letterBlock {n : Nat} (hn : n < 256) :
    let source := BlockSource.inMemory (letterBlock n) [] 0 {}
    ∃ chain bytes, SectorChain.ofRun source 0 1 = .ok chain ∧ chain.Enough none ∧
      chain.gathered source none = .ok bytes ∧ HoldsStream bytes letterStream ∧
      be32 bytes 0 = n := by
  intro source
  have hlies : LiesAt (letterBlock n) (letterBlock n) 0 0 :=
    ⟨by decide, by rw [size_letterBlock]; decide, fun i _ => rfl⟩
  obtain ⟨chain, hchain, hbytes, hblocks⟩ := SectorChain.ofRun_of_liesAt [] 0 hlies
    (by rw [size_letterBlock]; decide)
  have hwhole : chain.bytes = letterBlock n := by
    rw [hbytes, blockSize, ← size_letterBlock n, slice_whole]
  have hheader {i : Nat} (hi : i < 5) : octet chain.bytes i = octet (recordHeader n) i := by
    have hsize : (recordHeader n).size = 5 := rfl
    rw [hwhole, octet_letterBlock (by omega), octet_append_left (by omega)]
  have hword : be32 chain.bytes 0 = n :=
    be32_of_digits (by omega) (hheader (by decide)) (hheader (by decide)) (hheader (by decide))
      (hheader (by decide))
  refine ⟨chain, chain.bytes, hchain, nofun, ?_, ⟨?_, by omega, ?_⟩, hword⟩
  · -- A record of at most 260 bytes lacks no block.
    rw [SectorChain.gathered, if_pos]
    rw [SectorChain.lacking, hword, hblocks, List.length_singleton]
    omega
  · rw [hheader (by decide)]
    rfl
  · intro i hi _
    have hsize : letterStream.size = 9 := rfl
    have hright := octet_append_right (recordHeader n) letterStream i
    rw [hwhole, octet_letterBlock (by omega)]
    exact hright

/-- A record that declares more than its stream has, and one whose stream is cut off before the last
byte of the checksum. -/
theorem decodeRecord_anyLength_letter :
    Zlib.IsWindow Zlib.defaultWindow ∧ Zlib.EndsAt letterStream letterStream.size ∧
    Zlib.inflate letterStream Zlib.defaultWindow = .ok ⟨#[0x61]⟩ ∧
    (∃ decoded, decodeRecord (.inMemory (letterBlock 20) [] 0 {}) 0 none = .ok decoded ∧
      decoded.outcome = .ok ⟨#[0x61]⟩) ∧
    ∃ decoded size, decodeRecord (.inMemory (letterBlock 8) [] 0 {}) 0 none = .ok decoded ∧
      decoded.outcome = .error (.decompression (.truncated size)) := by
  have hwindow := Zlib.isWindow_defaultWindow
  have hmark : octet letterStream 0 = 0x78 ∧ octet letterStream 1 = 0x9C := by decide
  have hsize : letterStream.size = 9 := rfl
  obtain ⟨-, -, hrecords⟩ :=
    decodeRecord_anyLength hwindow inflate_letterStream endsAt_letterStream
  refine ⟨hwindow, endsAt_letterStream, inflate_letterStream, ?_, ?_⟩
  · obtain ⟨chain, bytes, hchain, henough, hgathered, hholds, hword⟩ :=
      exists_chain_letterBlock (show 20 < 256 by decide)
    obtain ⟨decoded, hdecoded, hover, -⟩ :=
      hrecords hmark _ 0 none chain bytes hchain henough hgathered hholds
    exact ⟨decoded, hdecoded, hover (by omega)⟩
  · obtain ⟨chain, bytes, hchain, henough, hgathered, hholds, hword⟩ :=
      exists_chain_letterBlock (show 8 < 256 by decide)
    obtain ⟨decoded, hdecoded, -, hunder⟩ :=
      hrecords hmark _ 0 none chain bytes hchain henough hgathered hholds
    obtain ⟨size, htruncated⟩ := hunder (by omega)
    exact ⟨decoded, size, hdecoded, htruncated⟩

end RegionSalvage
