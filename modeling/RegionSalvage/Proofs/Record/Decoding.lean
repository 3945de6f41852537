import RegionSalvage.Proofs.Record.Assembly
import RegionSalvage.Proofs.Recovery.Candidate
import RegionSalvage.Proofs.Zlib.Windows

/-! # What a candidate is taken for

A candidate whose first block can be read always gets an answer.  Either its record cannot be
assembled (`SectorChain.Unassemblable`), or there is just one payload (`SectorChain.Offers`), which
inflates or does not.  Both are said of the chain with the first block and of the source alone.

The answer is told apart by the text of its error, and so are the failures that a recovery counts
(`failedIn`).
-/

namespace RegionSalvage

namespace SectorChain

variable {source : BlockSource} {chain grown : SectorChain} {extra : Option (List Int)}
  {payload payload' : ByteArray}

/-! ## Payloads -/

/-- The bytes of a chain and of the blocks that it lacks.  Nothing is asked of the source when it
lacks none. -/
def gathered (chain : SectorChain) (source : BlockSource) (extra : Option (List Int)) :
    Except ReadError ByteArray :=
  if chain.lacking = 0 then .ok chain.bytes
  else match chain.fetch source extra with
    | .error e => .error e
    | .ok more => .ok (chain.bytes ++ more)

/-- The record that a chain starts with cannot be assembled, for one of these reasons. -/
inductive Unassemblable (source : BlockSource) (chain : SectorChain) (extra : Option (List Int)) :
    Prop
  | notHeader (hstart : startsChunk chain.bytes = false)
  | tooFew (hfew : ¬ chain.Enough extra)
  /-- The further blocks are missing, or one of them cannot be read. -/
  | unreadable {e : ReadError} (hgathered : chain.gathered source extra = .error e)

/-- The record that a chain starts with can be assembled, and this is its payload. -/
structure Offers (source : BlockSource) (chain : SectorChain) (extra : Option (List Int))
    (payload : ByteArray) : Prop where
  starts : startsChunk chain.bytes = true
  enough : chain.Enough extra
  payload_eq : ∃ bytes, chain.gathered source extra = .ok bytes ∧
    payload = slice bytes 5 (5 + be32 chain.bytes 0)

theorem Offers.not_unassemblable (h : chain.Offers source extra payload) :
    ¬ chain.Unassemblable source extra := by
  obtain ⟨bytes, hbytes, -⟩ := h.payload_eq
  rintro (hstart | hfew | hgathered)
  · cases hstart.symm.trans h.starts
  · exact hfew h.enough
  · cases hgathered.symm.trans hbytes

theorem Offers.unique (h : chain.Offers source extra payload)
    (h' : chain.Offers source extra payload') : payload = payload' := by
  obtain ⟨bytes, hbytes, rfl⟩ := h.payload_eq
  obtain ⟨bytes', hbytes', rfl⟩ := h'.payload_eq
  rw [Except.ok.inj (hbytes.symm.trans hbytes')]

/-- There is one payload, so what holds of some payload holds of this one. -/
theorem Offers.exists_iff (h : chain.Offers source extra payload) {P : ByteArray → Prop} :
    (∃ payload', chain.Offers source extra payload' ∧ P payload') ↔ P payload := by
  refine ⟨?_, fun hpayload => ⟨payload, h, hpayload⟩⟩
  rintro ⟨payload', h', hpayload⟩
  rwa [h.unique h']

theorem unassemblable_of_assemble {e : AssemblyFailure}
    (h : chain.assemble source extra = .error e) : chain.Unassemblable source extra := by
  have hassembled := assembled source chain extra
  rw [h] at hassembled
  cases hassembled with
  | notHeader hstart => exact .notHeader hstart
  | tooFew hstart hextra hfew => exact .tooFew fun h => Nat.not_le_of_lt hfew (h _ hextra)
  | @unreadable e hstart hlacking henough hfetch =>
    refine .unreadable (e := e) ?_
    rw [gathered, if_neg (by omega), hfetch]

theorem offers_of_assemble (h : chain.assemble source extra = .ok (payload, grown)) :
    chain.Offers source extra payload ∧ grown.blocks = chain.blocks ++ chain.needed extra := by
  have hassembled := assembled source chain extra
  rw [h] at hassembled
  cases hassembled with
  | covered hstart hlacking =>
    refine ⟨⟨hstart, fun _ _ => by omega, chain.bytes, ?_, rfl⟩, ?_⟩
    · rw [gathered, if_pos hlacking]
    · rw [needed_of_covered hlacking, List.append_nil]
  | grown hstart hlacking henough hfetch hbytes hblocks =>
    refine ⟨⟨hstart, henough, grown.bytes, ?_, rfl⟩, hblocks⟩
    rw [gathered, if_neg (by omega), hfetch, hbytes]

/-- A payload that is offered comes out. -/
theorem Offers.exists_assemble (h : chain.Offers source extra payload) :
    ∃ grown, chain.assemble source extra = .ok (payload, grown) := by
  cases hassemble : chain.assemble source extra with
  | error e => exact absurd (unassemblable_of_assemble hassemble) h.not_unassemblable
  | ok answer =>
    obtain ⟨payload', grown⟩ := answer
    rw [h.unique (offers_of_assemble hassemble).1]
    exact ⟨grown, rfl⟩

/-! ## The chain with the first block -/

theorem exists_ofRun_one {block : Int} {first : ByteArray}
    (h : source.readBlock block = .ok first) :
    ∃ chain, ofRun source block 1 = .ok chain ∧ chain.bytes = first ∧ chain.blocks = [block] := by
  obtain ⟨chain, hchain, hbytes, -⟩ := appendRun_of_read .empty h
  exact ⟨chain, hchain, hbytes.trans ByteArray.empty_append, blocks_ofRun_one hchain⟩

theorem exists_readBlock_of_ofRun {block : Int} (h : ofRun source block 1 = .ok chain) :
    ∃ first, source.readBlock block = .ok first := by
  obtain ⟨first, hread, -⟩ := appendRun_eq_ok h
  exact ⟨first, hread⟩

/-- A record that is assembled from its first block has as many blocks as it needs. -/
theorem length_of_assemble {block : Int} (hblocks : chain.blocks = [block])
    (h : chain.assemble source extra = .ok (payload, grown)) :
    (grown.blocks.length : Int) = recordBlocks (be32 chain.bytes 0) := by
  have hcount := (exact_of_assemble h).count_eq
  rw [hblocks, List.length_singleton] at hcount
  rw [recordBlocks_natCast]
  omega

end SectorChain

/-! ## Decoding from the chain -/

variable {source : BlockSource} {block : Int} {extra : Option (List Int)}
  {chain grown : SectorChain} {payload : ByteArray}

theorem decodeRecord_of_unassembled {e : AssemblyFailure}
    (hchain : SectorChain.ofRun source block 1 = .ok chain)
    (h : chain.assemble source extra = .error e) :
    decodeRecord source block extra =
      .ok ⟨block, be32 chain.bytes 0, chain.blocks, .error (.assembly e)⟩ := by
  rw [decodeRecord, hchain]
  simp only [h]

theorem decodeRecord_of_assembled (hchain : SectorChain.ofRun source block 1 = .ok chain)
    (h : chain.assemble source extra = .ok (payload, grown)) :
    decodeRecord source block extra =
      .ok ⟨block, be32 chain.bytes 0, grown.blocks,
        (Zlib.inflate payload Zlib.defaultWindow).mapError .decompression⟩ := by
  rw [decodeRecord, hchain]
  simp only [h]
  cases Zlib.inflate payload Zlib.defaultWindow <;> rfl

theorem mapError_eq_decompression_iff {answer : Except Zlib.InflateError ByteArray}
    {e : Zlib.InflateError} :
    answer.mapError DecodeFailure.decompression = .error (.decompression e) ↔
      answer = .error e := by
  cases answer <;> simp [Except.mapError]

theorem mapError_ne_assembly (answer : Except Zlib.InflateError ByteArray) (e : AssemblyFailure) :
    answer.mapError DecodeFailure.decompression ≠ .error (.assembly e) := by
  cases answer <;> simp [Except.mapError]

theorem decodeRecord_eq_error_iff {e : ReadError} :
    decodeRecord source block extra = .error e ↔ source.readBlock block = .error e := by
  cases hread : source.readBlock block with
  | error e' =>
    have hchain : SectorChain.ofRun source block 1 = .error e' :=
      SectorChain.appendRun_of_error .empty hread
    rw [decodeRecord, hchain]
    simp only [Except.error.injEq]
  | ok first =>
    obtain ⟨chain, hchain, -⟩ := SectorChain.exists_ofRun_one hread
    cases hassemble : chain.assemble source extra with
    | error e' => simp [decodeRecord_of_unassembled hchain hassemble]
    | ok answer => simp [decodeRecord_of_assembled hchain hassemble]

/-! ## Texts of errors -/

namespace DecodedRecord

/-- The text of the error tells the three outcomes apart. -/
theorem errorText_iff (decoded : DecodedRecord) :
    (decoded.errorText = "" ↔ ∃ content, decoded.outcome = .ok content) ∧
      (decoded.errorText.startsWith "assembly" = true ↔
        ∃ e, decoded.outcome = .error (.assembly e)) ∧
      (decoded.errorText.startsWith "decompression" = true ↔
        ∃ e, decoded.outcome = .error (.decompression e)) := by
  rw [errorText]
  obtain (_ | _) | content := decoded.outcome <;> simp [DecodeFailure.message]

end DecodedRecord

/-! ## Classes of candidates -/

/-- The default window takes all output that a payload determines, and says why there is no more. -/
theorem inflate_defaultWindow (payload : ByteArray) {e : Zlib.InflateError}
    (h : Zlib.inflate payload Zlib.defaultWindow = .error e) :
    (∃ f, e = .corrupt f) ∨ ∃ size, e = .truncated size := by
  have hanswers := (Zlib.inflate_ensures payload Zlib.isWindow_defaultWindow).2
  rw [h] at hanswers
  cases hanswers with
  | corrupt => exact .inl ⟨_, rfl⟩
  | truncated => exact .inr ⟨_, rfl⟩

/-- The candidate whose first block makes this chain is of one of three classes, and the text of the
error says of which. -/
structure Classified (source : BlockSource) (chain : SectorChain) (extra : Option (List Int))
    (decoded : DecodedRecord) : Prop where
  dataLength_eq : decoded.dataLength = be32 chain.bytes 0
  inflated : ∀ content, decoded.outcome = .ok content ↔ ∃ payload,
    chain.Offers source extra payload ∧ Zlib.inflate payload Zlib.defaultWindow = .ok content
  unassembled : (∃ e, decoded.outcome = .error (.assembly e)) ↔ chain.Unassemblable source extra
  uninflated : ∀ e, decoded.outcome = .error (.decompression e) ↔ ∃ payload,
    chain.Offers source extra payload ∧ Zlib.inflate payload Zlib.defaultWindow = .error e
  /-- A payload that is not inflated is no valid stream, or not a whole one. -/
  reason : ∀ e, decoded.outcome = .error (.decompression e) →
    (∃ f, e = .corrupt f) ∨ ∃ size, e = .truncated size
  /-- Without a payload, the blocks are those that were there. -/
  blocks_of_unassemblable : chain.Unassemblable source extra → decoded.blocks = chain.blocks
  blocks_of_offers : ∀ payload, chain.Offers source extra payload →
    payload.size = decoded.dataLength ∧ decoded.blocks = chain.blocks ++ chain.needed extra ∧
      (decoded.blocks.length : Int) = recordBlocks decoded.dataLength
  text_inflated : decoded.errorText = "" ↔ ∃ content, decoded.outcome = .ok content
  text_unassembled : decoded.errorText.startsWith "assembly" = true ↔
    ∃ e, decoded.outcome = .error (.assembly e)
  text_uninflated : decoded.errorText.startsWith "decompression" = true ↔
    ∃ e, decoded.outcome = .error (.decompression e)

theorem classified_of_unassembled {e : AssemblyFailure}
    (h : chain.assemble source extra = .error e) :
    Classified source chain extra
      ⟨block, be32 chain.bytes 0, chain.blocks, .error (.assembly e)⟩ where
  dataLength_eq := rfl
  inflated _ := iff_of_false nofun fun ⟨_, hoffers, _⟩ =>
    hoffers.not_unassemblable (SectorChain.unassemblable_of_assemble h)
  unassembled := iff_of_true ⟨e, rfl⟩ (SectorChain.unassemblable_of_assemble h)
  uninflated _ := iff_of_false nofun fun ⟨_, hoffers, _⟩ =>
    hoffers.not_unassemblable (SectorChain.unassemblable_of_assemble h)
  reason _ := nofun
  blocks_of_unassemblable _ := rfl
  blocks_of_offers _ hoffers :=
    absurd (SectorChain.unassemblable_of_assemble h) hoffers.not_unassemblable
  text_inflated := (DecodedRecord.errorText_iff _).1
  text_unassembled := (DecodedRecord.errorText_iff _).2.1
  text_uninflated := (DecodedRecord.errorText_iff _).2.2

theorem classified_of_assembled (hblocks : chain.blocks = [block])
    (h : chain.assemble source extra = .ok (payload, grown)) :
    Classified source chain extra
      ⟨block, be32 chain.bytes 0, grown.blocks,
        (Zlib.inflate payload Zlib.defaultWindow).mapError .decompression⟩ := by
  obtain ⟨hoffers, hgrown⟩ := SectorChain.offers_of_assemble h
  refine
    { dataLength_eq := rfl
      inflated := fun content => by rw [SectorChain.mapError_eq_ok_iff, hoffers.exists_iff]
      unassembled := iff_of_false ?_ hoffers.not_unassemblable
      uninflated := fun e => by rw [mapError_eq_decompression_iff, hoffers.exists_iff]
      reason := fun e he => inflate_defaultWindow payload (mapError_eq_decompression_iff.1 he)
      blocks_of_unassemblable := fun hnone => absurd hnone hoffers.not_unassemblable
      blocks_of_offers := fun payload' hoffers' => ?_
      text_inflated := (DecodedRecord.errorText_iff _).1
      text_unassembled := (DecodedRecord.errorText_iff _).2.1
      text_uninflated := (DecodedRecord.errorText_iff _).2.2 }
  · rintro ⟨e, he⟩
    exact mapError_ne_assembly _ e he
  · rw [← hoffers.unique hoffers']
    exact ⟨(SectorChain.exact_of_assemble h).size_eq, hgrown,
      SectorChain.length_of_assemble hblocks h⟩

/-! ## Failures that a recovery counts -/

/-- Whether a candidate failed in this stage, going by the text of its error. -/
def failedIn (stage : String) : Except ReadError DecodedRecord → Bool
  | .error _ => false
  | .ok decoded => decoded.errorText.startsWith stage

namespace Recovery

/-- Behind a candidate with this answer, its failure has been counted in the tally. -/
structure CountsFailure (answer : Except ReadError DecodedRecord) (before after : RecoveryTally) :
    Prop where
  assembly : after.assemblyFailures = before.assemblyFailures + (failedIn "assembly" answer).toNat
  decompression : after.decompressionFailures =
    before.decompressionFailures + (failedIn "decompression" answer).toNat

theorem countsFailure_fate (source : BlockSource) (seen : List String) (block : Int)
    (t : RecoveryTally) :
    CountsFailure (decodeRecord source block none) t ((fate source seen block).count t) := by
  unfold fate
  cases decodeRecord source block none with
  | error e => exact ⟨rfl, rfl⟩
  | ok decoded =>
    obtain ⟨_, _, _, failure | content⟩ := decoded
    · cases failure <;> constructor <;>
        simp [Fate.count, failedIn, DecodedRecord.errorText, DecodeFailure.message, eq_comm (a := 1)]
    · -- Whether the content is novel makes no difference here.
      dsimp only
      split <;> constructor <;> simp [Fate.count, failedIn, DecodedRecord.errorText]

/-- What is done with the content of a candidate counts nothing among these failures. -/
theorem countsFailure_tryCandidate (r : Recovery) (block : Int) (s : RecoveryState) :
    CountsFailure (decodeRecord r.source block none) s.stats (r.tryCandidate block s).2.stats := by
  have hcounts := countsFailure_fate r.source s.seen block s.stats
  have htried := r.tried block s
  generalize r.tryCandidate block s = result at htried ⊢
  obtain ⟨answer, s'⟩ := result
  cases htried with
  | unreadable hfate | unassembled hfate | uninflated hfate | duplicate hfate | untold hfate =>
    exact hfate ▸ hcounts
  | unsaved hfate | recovered hfate =>
    rw [hfate] at hcounts
    exact ⟨hcounts.assembly, hcounts.decompression⟩

end Recovery

/-! ## Every candidate -/

/-- Decoding fails with the error of the first block, and only if that cannot be read.  Every other
candidate is classified, and a recovery counts it as what it is. -/
theorem decodeRecord_classifies (source : BlockSource) (block : Int) (extra : Option (List Int)) :
    (∀ e, decodeRecord source block extra = .error e ↔ source.readBlock block = .error e) ∧
    (∀ first, source.readBlock block = .ok first → ∃ chain decoded,
      SectorChain.ofRun source block 1 = .ok chain ∧ chain.bytes = first ∧ chain.blocks = [block] ∧
        decodeRecord source block extra = .ok decoded ∧ decoded.block = block ∧
        Classified source chain extra decoded) ∧
    ∀ (r : Recovery) (s : RecoveryState), r.source = source →
      Recovery.CountsFailure (decodeRecord source block none) s.stats
        (r.tryCandidate block s).2.stats := by
  refine ⟨fun e => decodeRecord_eq_error_iff, ?_, ?_⟩
  · intro first hread
    obtain ⟨chain, hchain, hbytes, hblocks⟩ := SectorChain.exists_ofRun_one hread
    -- The payload is assembled or it is not; then it is the inflater that decides.
    cases hassemble : chain.assemble source extra with
    | error e =>
      exact ⟨chain, _, hchain, hbytes, hblocks, decodeRecord_of_unassembled hchain hassemble, rfl,
        classified_of_unassembled hassemble⟩
    | ok answer =>
      obtain ⟨payload, grown⟩ := answer
      exact ⟨chain, _, hchain, hbytes, hblocks, decodeRecord_of_assembled hchain hassemble, rfl,
        classified_of_assembled hblocks hassemble⟩
  · rintro r s rfl
    exact Recovery.countsFailure_tryCandidate r block s

/-- The second sector of a record is in the list of blocks, or it is not; behind the image there is
nothing. -/
theorem decodeRecord_classifies_swappedImage :
    let source := BlockSource.inMemory swappedImage [] 0 {}
    (∃ decoded, decodeRecord source 1 (some [0, 7]) = .ok decoded ∧ decoded.errorText = "" ∧
      decoded.outcome = .ok ⟨#[0x61]⟩) ∧
    (∃ decoded, decodeRecord source 1 (some []) = .ok decoded ∧
      decoded.errorText.startsWith "assembly" = true ∧ decoded.blocks = [1]) ∧
    decodeRecord source 2 none = .error (.outOfRange 2 1) := by
  intro source
  obtain ⟨chain, grown, hchain, hblocks, hlacking, hassemble⟩ :=
    SectorChain.exists_chain_swappedImage
  obtain ⟨first, hread⟩ := SectorChain.exists_readBlock_of_ofRun hchain
  refine ⟨?_, ?_, ?_⟩
  · obtain ⟨-, hall, -⟩ := decodeRecord_classifies source 1 (some [0, 7])
    obtain ⟨chain', decoded, hchain', -, -, hdecoded, -, hclass⟩ := hall first hread
    cases Except.ok.inj (hchain.symm.trans hchain')
    have houtcome : decoded.outcome = .ok ⟨#[0x61]⟩ := (hclass.inflated _).2
      ⟨longStream, (SectorChain.offers_of_assemble hassemble).1, inflate_longStream⟩
    exact ⟨decoded, hdecoded, hclass.text_inflated.2 ⟨_, houtcome⟩, houtcome⟩
  · obtain ⟨-, hall, -⟩ := decodeRecord_classifies source 1 (some [])
    obtain ⟨chain', decoded, hchain', -, -, hdecoded, -, hclass⟩ := hall first hread
    cases Except.ok.inj (hchain.symm.trans hchain')
    have hfew : ¬ chain.Enough (some []) := fun h => absurd (h [] rfl) (by rw [hlacking]; decide)
    exact ⟨decoded, hdecoded, hclass.text_unassembled.2 (hclass.unassembled.2 (.tooFew hfew)),
      (hclass.blocks_of_unassemblable (.tooFew hfew)).trans hblocks⟩
  · have hend : source.readBlock 2 = .error (.outOfRange 2 1) :=
      BlockSource.readBlock_behind [] 0 (n := 2) size_swappedImage
    obtain ⟨hfails, -, -⟩ := decodeRecord_classifies source 2 none
    exact (hfails _).2 hend

end RegionSalvage
