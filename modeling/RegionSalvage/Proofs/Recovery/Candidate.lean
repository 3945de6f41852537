import RegionSalvage.Proofs.Record.Growth
import RegionSalvage.Recovery.Session

/-! # What becomes of a candidate

What a candidate is does not depend on the recovery: its record decodes or not, and if it does, its
content has been seen before or not.  `Recovery.fate` says which.  Only a novel candidate is looked
at and saved, and only there can a readable candidate end the pass.

`Recovery.Tried` lists all ways in which a candidate is disposed of, each with the state that it
leaves; the properties of a recovery follow from it case by case.
-/

namespace RegionSalvage

/-! ## The blocks of a record -/

theorem one_le_recordBlocks (n : Nat) : 1 ≤ recordBlocks n := by
  unfold recordBlocks recordHeaderSize blockSize
  omega

namespace SectorChain

/-- From the chain with its first block a record is assembled out of consecutive blocks. -/
theorem blocks_assemble {chain grown : SectorChain} {source : BlockSource} {payload : ByteArray}
    {block : Int} (hblocks : chain.blocks = [block])
    (h : chain.assemble source none = .ok (payload, grown)) :
    grown.blocks = consecutive block (recordBlocks (be32 chain.bytes 0)).toNat := by
  have hcount := one_le_recordBlocks (be32 chain.bytes 0)
  have hhave : chain.blockCount = 1 := by rw [blockCount, hblocks, List.length_singleton]
  obtain ⟨hmissing, rfl⟩ | ⟨hmissing, hgrow⟩ := assemble_eq_ok h
  · rw [show (recordBlocks (be32 grown.bytes 0)).toNat = 0 + 1 by omega, consecutive_succ, hblocks,
      consecutive_zero]
  · rw [blocks_appendRun (attempt_eq_ok hgrow), hblocks, hhave]
    -- The first block is there already, and the run goes on behind it.
    generalize recordBlocks (be32 chain.bytes 0) = count at hcount ⊢
    obtain ⟨more, rfl⟩ : ∃ more : Nat, count = (more + 1 : Nat) := ⟨(count - 1).toNat, by omega⟩
    rw [Int.toNat_natCast, consecutive_succ, show ((more + 1 : Nat) - (1 : Nat) : Int).toNat =
      more by omega]
    rfl

end SectorChain

/-- A candidate that inflates was gathered from consecutive blocks, as many as it needs. -/
theorem decodeRecord_blocks {source : BlockSource} {block : Int} {decoded : DecodedRecord}
    {content : ByteArray} (h : decodeRecord source block none = .ok decoded)
    (houtcome : decoded.outcome = .ok content) :
    decoded.block = block ∧
      decoded.blocks = consecutive block (recordBlocks decoded.dataLength).toNat := by
  unfold decodeRecord at h
  split at h
  · exact nomatch h
  · next chain hchain =>
    have hblocks := SectorChain.blocks_ofRun_one hchain
    simp only at h
    split at h
    · cases Except.ok.inj h
      exact nomatch houtcome
    · next payload grown hassemble =>
      cases Except.ok.inj h
      exact ⟨rfl, SectorChain.blocks_assemble hblocks hassemble⟩

namespace Recovery

/-! ## Fates -/

/-- What a candidate turns out to be. -/
inductive Fate where
  | unreadable (e : ReadError)
  | unassembled
  | uninflated
  | duplicate
  | novel (decoded : DecodedRecord) (content : ByteArray)

/-- What the candidate at `block` is behind content with the digests `seen`. -/
def fate (source : BlockSource) (seen : List String) (block : Int) : Fate :=
  match decodeRecord source block none with
  | .error e => .unreadable e
  | .ok decoded =>
    match decoded.outcome with
    | .error (.assembly _) => .unassembled
    | .error (.decompression _) => .uninflated
    | .ok content =>
      if seen.contains (Md5.hexDigest content) then .duplicate else .novel decoded content

/-- The digests that are known behind a candidate. -/
def Fate.remember (seen : List String) : Fate → List String
  | .novel _ content => Md5.hexDigest content :: seen
  | _ => seen

/-- The tally with a candidate, as far as its content does not have to be looked at. -/
def Fate.count (t : RecoveryTally) : Fate → RecoveryTally
  | .unassembled =>
    { t with candidates := t.candidates + 1, assemblyFailures := t.assemblyFailures + 1 }
  | .uninflated =>
    { t with candidates := t.candidates + 1, decompressionFailures := t.decompressionFailures + 1 }
  | .duplicate => { t with candidates := t.candidates + 1, duplicates := t.duplicates + 1 }
  | .unreadable _ | .novel _ _ => { t with candidates := t.candidates + 1 }

theorem decodeRecord_of_novel {source : BlockSource} {seen : List String} {block : Int}
    {decoded : DecodedRecord} {content : ByteArray}
    (h : fate source seen block = .novel decoded content) :
    decodeRecord source block none = .ok decoded ∧ decoded.outcome = .ok content ∧
      Md5.hexDigest content ∉ seen := by
  unfold fate at h
  split at h
  · exact nomatch h
  · next hdecoded =>
    split at h
    · exact nomatch h
    · exact nomatch h
    · next houtcome =>
      split at h
      · exact nomatch h
      · next hnew =>
        cases h
        exact ⟨hdecoded, houtcome, fun hseen => hnew (List.contains_iff_mem.2 hseen)⟩

theorem block_of_novel {source : BlockSource} {seen : List String} {block : Int}
    {decoded : DecodedRecord} {content : ByteArray}
    (h : fate source seen block = .novel decoded content) : decoded.block = block := by
  obtain ⟨hdecoded, houtcome, -⟩ := decodeRecord_of_novel h
  exact (decodeRecord_blocks hdecoded houtcome).1

theorem fate_of_new {source : BlockSource} {seen : List String} {block : Int}
    {decoded : DecodedRecord} {content : ByteArray}
    (hdecoded : decodeRecord source block none = .ok decoded)
    (hcontent : decoded.outcome = .ok content) (hnew : Md5.hexDigest content ∉ seen) :
    fate source seen block = .novel decoded content := by
  simp only [fate, hdecoded, hcontent, List.contains_iff_mem, hnew, if_false]

/-- The chunk made of a candidate. -/
def chunkOf (decoded : DecodedRecord) (content : ByteArray) (check : DocumentCheck)
    (savedTo : String) : SalvagedChunk where
  block := decoded.block
  blocks := decoded.blocks
  dataLength := decoded.dataLength
  size := content.size
  md5 := Md5.hexDigest content
  check
  savedTo

/-! ## One candidate -/

/-- Takes note of what a candidate is. -/
def register (f : Fate) (s : RecoveryState) : RecoveryState :=
  { s with stats := f.count s.stats, seen := f.remember s.seen }

/-- Books what a look at content has shown. -/
def look (check : DocumentCheck) (s : RecoveryState) : RecoveryState :=
  { s with stats :=
      { s.stats with nbtFailures := s.stats.nbtFailures + (check == .refuted).toNat } }

theorem countCheck_eq_look (check : DocumentCheck) (s : RecoveryState) :
    countCheck check s = look check s := by
  cases check <;> rfl

/-- The candidate at `block` is disposed of with this answer, and this is the state behind it. -/
inductive Tried (r : Recovery) (block : Int) (s : RecoveryState) :
    Except RecoveryError (Option SalvagedChunk) → RecoveryState → Prop
  | unreadable {e : ReadError} (hfate : fate r.source s.seen block = .unreadable e) :
      Tried r block s (.error (.unreadable e)) (register (.unreadable e) s)
  | unassembled (hfate : fate r.source s.seen block = .unassembled) :
      Tried r block s (.ok none) (register .unassembled s)
  | uninflated (hfate : fate r.source s.seen block = .uninflated) :
      Tried r block s (.ok none) (register .uninflated s)
  | duplicate (hfate : fate r.source s.seen block = .duplicate) :
      Tried r block s (.ok none) (register .duplicate s)
  | untold {decoded : DecodedRecord} {content : ByteArray} {e : Nbt.PositionError}
      (hfate : fate r.source s.seen block = .novel decoded content)
      (hcheck : r.inspect content = .error e) :
      Tried r block s (.error (.position e)) (register (.novel decoded content) s)
  | unsaved {decoded : DecodedRecord} {content : ByteArray} {check : DocumentCheck} {e : PathError}
      (hfate : fate r.source s.seen block = .novel decoded content)
      (hcheck : r.inspect content = .ok check)
      (hsave : r.save decoded.block content s.files = .error e) :
      Tried r block s (.error (.file e)) (look check (register (.novel decoded content) s))
  | recovered {decoded : DecodedRecord} {content : ByteArray} {check : DocumentCheck}
      {savedTo : String} {files : FileTree}
      (hfate : fate r.source s.seen block = .novel decoded content)
      (hcheck : r.inspect content = .ok check)
      (hsave : r.save decoded.block content s.files = .ok (savedTo, files)) :
      Tried r block s (.ok (some (chunkOf decoded content check savedTo)))
        (enter (chunkOf decoded content check savedTo)
          { look check (register (.novel decoded content) s) with files })

theorem tried (r : Recovery) (block : Int) (s : RecoveryState) :
    r.Tried block s (r.tryCandidate block s).1 (r.tryCandidate block s).2 := by
  unfold tryCandidate
  cases hdecoded : decodeRecord r.source block none with
  | error e => exact .unreadable (by rw [fate, hdecoded])
  | ok decoded =>
    -- The cases are those of the fate, and for novel content what comes of the look and the saving.
    cases houtcome : decoded.outcome with
    | error failure =>
      cases failure with
      | assembly e =>
        simp only [houtcome]
        exact .unassembled (by simp only [fate, hdecoded, houtcome])
      | decompression e =>
        simp only [houtcome]
        exact .uninflated (by simp only [fate, hdecoded, houtcome])
    | ok content =>
      simp only [houtcome]
      unfold dispose
      by_cases hseen : s.seen.contains (Md5.hexDigest content) = true
      · simp only [hseen, if_true]
        exact .duplicate (by simp only [fate, hdecoded, houtcome, hseen, if_true])
      · have hfate : fate r.source s.seen block = .novel decoded content :=
          fate_of_new hdecoded houtcome fun hmem => hseen (List.contains_iff_mem.2 hmem)
        simp only [hseen, Bool.false_eq_true, if_false]
        cases hcheck : r.inspect content with
        | error e => exact .untold hfate hcheck
        | ok check =>
          simp only [countCheck_eq_look, look]
          cases hsave : r.save decoded.block content s.files with
          | error e => exact .unsaved hfate hcheck hsave
          | ok saved => exact .recovered hfate hcheck hsave

end Recovery

end RegionSalvage
