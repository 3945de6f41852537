import RegionSalvage.Proofs.Record.RoundTrip

/-! # What assembling a record does to its chain

A chain that starts with a record lacks a number of blocks (`SectorChain.lacking`), and their numbers
are fixed by the chain and the list of further blocks (`SectorChain.needed`).  Assembling asks the
source for these blocks and no others, and it changes the chain only when it has them all.

`SectorChain.Assembled` lists all ways in which a record is assembled or not, each with its answer;
what there is to say of a chain that covers its record (`assemble_of_covered`) makes the answer the
same when it is asked for again.
-/

namespace RegionSalvage

theorem exists_error_iff {ε α : Type} {x : Except ε α} :
    (∃ e, x = .error e) ↔ ¬ ∃ a, x = .ok a := by
  cases x <;> simp

/-! ## Headers in front of further bytes -/

theorem size_of_startsChunk {b : ByteArray} (h : startsChunk b = true) : 8 ≤ b.size := by
  simp only [startsChunk, Bool.and_eq_true, decide_eq_true_eq] at h
  exact h.1.1

/-- What comes behind a chunk header does not matter to it. -/
theorem startsChunk_append_left {a b : ByteArray} (h : startsChunk a = true) :
    startsChunk (a ++ b) = true := by
  have hsize := size_of_startsChunk h
  rw [startsChunk, be32_append_left (by omega), be32_append_left (by omega)]
  simp only [startsChunk, Bool.and_eq_true, decide_eq_true_eq] at h ⊢
  exact ⟨⟨by rw [ByteArray.size_append]; omega, h.1.2⟩, h.2⟩

namespace SectorChain

variable {source : BlockSource} {chain grown : SectorChain} {extra : Option (List Int)}

/-! ## What a chain lacks -/

/-- How many blocks a chain lacks for the record that it starts with. -/
def lacking (chain : SectorChain) : Nat :=
  (5 + be32 chain.bytes 0 + 4095) / 4096 - chain.blocks.length

/-- The blocks that go behind the chain: those that follow its last one, or the first of a list. -/
def needed (chain : SectorChain) : Option (List Int) → List Int
  | none => consecutive (chain.blocks.getLast?.getD 0 + 1) chain.lacking
  | some blocks => blocks.take chain.lacking

/-- Whether there are numbers for all blocks that the chain lacks. -/
def Enough (chain : SectorChain) (extra : Option (List Int)) : Prop :=
  ∀ blocks, extra = some blocks → chain.lacking ≤ blocks.length

/-- What the source answers when it is asked for these blocks: for a run of them at once, for those
of a list one after the other. -/
def fetch (chain : SectorChain) (source : BlockSource) :
    Option (List Int) → Except ReadError ByteArray
  | none => source.read (chain.blocks.getLast?.getD 0 + 1) chain.lacking
  | some blocks => source.readBlocks (blocks.take chain.lacking)

theorem length_needed (henough : chain.Enough extra) :
    (chain.needed extra).length = chain.lacking := by
  cases extra with
  | none => exact length_consecutive _ _
  | some blocks => exact List.length_take_of_le (henough blocks rfl)

theorem needed_of_covered (h : chain.lacking = 0) (extra : Option (List Int)) :
    chain.needed extra = [] := by
  cases extra with
  | none => rw [needed, h, consecutive_zero]
  | some blocks => rw [needed, h, List.take_zero]

/-- Where runs are read blockwise, the blocks come unless one of them cannot be read.  A list of
blocks is read blockwise by any source. -/
theorem fetch_fails_iff (hsource : extra = none → source.ReadsBlockwise)
    (hlacking : 0 < chain.lacking) :
    (∃ e, chain.fetch source extra = .error e) ↔
      ∃ block ∈ chain.needed extra, ∃ e, source.readBlock block = .error e := by
  have hfetch : (∃ bytes, chain.fetch source extra = .ok bytes) ↔
      ∀ block ∈ chain.needed extra, ∃ single, source.readBlock block = .ok single := by
    cases extra with
    | none => exact hsource rfl _ _ (by omega)
    | some blocks => exact BlockSource.exists_readBlocks_eq_ok_iff
  simp only [exists_error_iff, hfetch, not_forall, exists_prop]

/-! ## All ways in which it ends -/

/-- The record that a chain starts with is assembled, or not, with this answer. -/
inductive Assembled (source : BlockSource) (chain : SectorChain) (extra : Option (List Int)) :
    Except AssemblyFailure (ByteArray × SectorChain) → Prop
  | notHeader (hstart : startsChunk chain.bytes = false) :
      Assembled source chain extra (.error (.notHeader chain.blocks.head?))
  | covered (hstart : startsChunk chain.bytes = true) (hlacking : chain.lacking = 0) :
      Assembled source chain extra (.ok (chain.payload (be32 chain.bytes 0), chain))
  | tooFew {blocks : List Int} (hstart : startsChunk chain.bytes = true)
      (hextra : extra = some blocks) (hfew : blocks.length < chain.lacking) :
      Assembled source chain extra (.error (.tooFewBlocks chain.lacking blocks.length))
  | unreadable {e : ReadError} (hstart : startsChunk chain.bytes = true)
      (hlacking : 0 < chain.lacking) (henough : chain.Enough extra)
      (hfetch : chain.fetch source extra = .error e) :
      Assembled source chain extra
        (.error (.unreadable chain.lacking (chain.blocks.head?.getD 0) e))
  | grown {more : ByteArray} {grown : SectorChain} (hstart : startsChunk chain.bytes = true)
      (hlacking : 0 < chain.lacking) (henough : chain.Enough extra)
      (hfetch : chain.fetch source extra = .ok more) (hbytes : grown.bytes = chain.bytes ++ more)
      (hblocks : grown.blocks = chain.blocks ++ chain.needed extra) :
      Assembled source chain extra (.ok (grown.payload (be32 chain.bytes 0), grown))

/-- A chain grows by the blocks that it lacks when they come. -/
theorem grow_of_fetch {more : ByteArray} (henough : chain.Enough extra)
    (hfetch : chain.fetch source extra = .ok more) :
    ∃ grown, chain.grow source chain.lacking extra = .ok grown ∧
      grown.bytes = chain.bytes ++ more ∧ grown.blocks = chain.blocks ++ chain.needed extra := by
  cases extra with
  | none =>
    obtain ⟨grown, happend, hbytes, hblocks⟩ := appendRun_of_read chain hfetch
    refine ⟨grown, ?_, hbytes, hblocks⟩
    rw [grow, happend]
    rfl
  | some blocks =>
    have hlength := henough blocks rfl
    obtain ⟨grown, happend, hbytes, hblocks⟩ := appendBlocks_of_read chain hfetch
    refine ⟨grown, ?_, hbytes, hblocks⟩
    rw [grow, if_neg (by omega), Int.toNat_natCast, happend]
    rfl

theorem grow_of_error {e : ReadError} (henough : chain.Enough extra)
    (hfetch : chain.fetch source extra = .error e) :
    chain.grow source chain.lacking extra =
      .error (.unreadable chain.lacking (chain.blocks.head?.getD 0) e) := by
  cases extra with
  | none =>
    rw [grow, appendRun_of_error chain hfetch]
    rfl
  | some blocks =>
    have hlength := henough blocks rfl
    rw [grow, if_neg (by omega), Int.toNat_natCast, appendBlocks_of_error chain hfetch]
    rfl

theorem assembled (source : BlockSource) (chain : SectorChain) (extra : Option (List Int)) :
    chain.Assembled source extra (chain.assemble source extra) := by
  unfold assemble
  cases hstart : startsChunk chain.bytes with
  | false => exact .notHeader hstart
  | true =>
    have hcount := recordBlocks_natCast (be32 chain.bytes 0)
    have hlacking : chain.lacking =
        (5 + be32 chain.bytes 0 + 4095) / 4096 - chain.blocks.length := rfl
    have hhave : chain.blockCount = chain.blocks.length := rfl
    simp only [Bool.not_true, Bool.false_eq_true, if_false]
    by_cases hcovered : chain.lacking = 0
    · rw [if_pos (by omega)]
      exact .covered hstart hcovered
    · -- Blocks are missing, so their number is not cut off at zero.
      have hmissing : recordBlocks (be32 chain.bytes 0) - chain.blockCount = chain.lacking := by
        omega
      rw [if_neg (by omega), hmissing]
      by_cases henough : chain.Enough extra
      · cases hfetch : chain.fetch source extra with
        | error e =>
          rw [grow_of_error henough hfetch]
          exact .unreadable hstart (by omega) henough hfetch
        | ok more =>
          obtain ⟨grown, hgrown, hbytes, hblocks⟩ := grow_of_fetch henough hfetch
          rw [hgrown]
          exact .grown hstart (by omega) henough hfetch hbytes hblocks
      · obtain ⟨blocks, rfl, hfew⟩ : ∃ blocks, extra = some blocks ∧
            blocks.length < chain.lacking := by
          simpa only [Enough, not_forall, Nat.not_le, exists_prop] using henough
        rw [grow, if_pos (by omega)]
        exact .tooFew hstart rfl hfew

/-! ## Chains that cover their records -/

theorem size_payload {length : Nat} (h : (5 + length + 4095) / 4096 ≤ chain.blocks.length) :
    (chain.payload length).size = length := by
  have hsize : chain.bytes.size = 4096 * chain.blocks.length := chain.size_eq
  rw [payload, size_slice, recordHeaderSize]
  omega

/-- From a chain that covers its record the payload comes out, whatever the source. -/
theorem assemble_of_covered (hstart : startsChunk chain.bytes = true)
    (hcovered : (5 + be32 chain.bytes 0 + 4095) / 4096 ≤ chain.blocks.length) (source : BlockSource)
    (extra : Option (List Int)) :
    chain.assemble source extra = .ok (chain.payload (be32 chain.bytes 0), chain) := by
  have hmissing : recordBlocks (be32 chain.bytes 0) - chain.blockCount ≤ 0 := by
    rw [recordBlocks_natCast, blockCount]
    omega
  rw [assemble, hstart]
  simp only [Bool.not_true, Bool.false_eq_true, if_false, hmissing, if_true]

/-- A chain with a record has a last block. -/
theorem exists_last (hstart : startsChunk chain.bytes = true) :
    ∃ last, chain.blocks.getLast? = some last := by
  have hsize := size_of_startsChunk hstart
  rw [chain.size_eq] at hsize
  cases hlast : chain.blocks.getLast? with
  | none =>
    rw [List.getLast?_eq_none_iff.1 hlast, List.length_nil, Nat.mul_zero] at hsize
    omega
  | some last => exact ⟨last, rfl⟩

/-! ## What comes out -/

/-- The payload is that of the record, and the chain has grown by the blocks that it lacked. -/
structure Exact (source : BlockSource) (chain : SectorChain) (extra : Option (List Int))
    (payload : ByteArray) (grown : SectorChain) : Prop where
  size_eq : payload.size = be32 chain.bytes 0
  payload_eq : payload = slice grown.bytes 5 (5 + be32 chain.bytes 0)
  /-- The old bytes come first, and behind them stand those that were read. -/
  bytes_eq : ∃ more, grown.bytes = chain.bytes ++ more ∧
    (0 < chain.lacking → chain.fetch source extra = .ok more)
  count_eq : grown.blocks.length =
    max chain.blocks.length ((5 + be32 chain.bytes 0 + 4095) / 4096)
  behind : extra = none → ∃ last, chain.blocks.getLast? = some last ∧
    grown.blocks = chain.blocks ++ consecutive (last + 1) chain.lacking
  listed : ∀ blocks, extra = some blocks →
    grown.blocks = chain.blocks ++ blocks.take chain.lacking
  /-- The grown chain gives the same payload and does not grow again. -/
  again : ∀ source' extra', grown.assemble source' extra' = .ok (payload, grown)

theorem exact_of_grown {more : ByteArray} (hstart : startsChunk chain.bytes = true)
    (henough : 0 < chain.lacking → chain.Enough extra)
    (hfetch : 0 < chain.lacking → chain.fetch source extra = .ok more)
    (hbytes : grown.bytes = chain.bytes ++ more)
    (hblocks : grown.blocks = chain.blocks ++ chain.needed extra) :
    chain.Exact source extra (grown.payload (be32 chain.bytes 0)) grown := by
  have hlacking : chain.lacking =
      (5 + be32 chain.bytes 0 + 4095) / 4096 - chain.blocks.length := rfl
  have hneeded : (chain.needed extra).length = chain.lacking := by
    by_cases hcovered : chain.lacking = 0
    · rw [needed_of_covered hcovered, hcovered, List.length_nil]
    · exact length_needed (henough (by omega))
  have hlength : grown.blocks.length = chain.blocks.length + chain.lacking := by
    rw [hblocks, List.length_append, hneeded]
  -- The header stands in front of what was added, so the grown chain has the same record.
  have hgrownStart : startsChunk grown.bytes = true := hbytes ▸ startsChunk_append_left hstart
  have hword : be32 grown.bytes 0 = be32 chain.bytes 0 := by
    have hsize := size_of_startsChunk hstart
    rw [hbytes, be32_append_left (by omega)]
  refine ⟨size_payload (by omega), rfl, ⟨more, hbytes, hfetch⟩, by omega, ?_, ?_, ?_⟩
  · rintro rfl
    obtain ⟨last, hlast⟩ := exists_last hstart
    refine ⟨last, hlast, ?_⟩
    rw [hblocks, needed, hlast, Option.getD_some]
  · rintro blocks rfl
    exact hblocks
  · intro source' extra'
    rw [assemble_of_covered hgrownStart (by omega), hword]

theorem exact_of_assemble {payload : ByteArray}
    (h : chain.assemble source extra = .ok (payload, grown)) :
    chain.Exact source extra payload grown := by
  have hassembled := assembled source chain extra
  rw [h] at hassembled
  cases hassembled with
  | covered hstart hlacking =>
    -- A chain that covers its record has grown by nothing.
    refine exact_of_grown hstart (fun h => absurd hlacking (by omega))
      (fun h => absurd hlacking (by omega)) ByteArray.append_empty.symm ?_
    rw [needed_of_covered hlacking, List.append_nil]
  | grown hstart hlacking henough hfetch hbytes hblocks =>
    exact exact_of_grown hstart (fun _ => henough) (fun _ => hfetch) hbytes hblocks

/-- No payload comes out just when there is no header, or when blocks are lacking and there are no
numbers for them or they do not come. -/
theorem assemble_fails_iff :
    (∃ e, chain.assemble source extra = .error e) ↔
      startsChunk chain.bytes = false ∨ 0 < chain.lacking ∧
        (¬ chain.Enough extra ∨ ∃ e, chain.fetch source extra = .error e) := by
  have hassembled := assembled source chain extra
  generalize chain.assemble source extra = answer at hassembled ⊢
  -- Of the ways to assemble a record, two bring a payload.
  cases hassembled with
  | notHeader hstart => exact iff_of_true ⟨_, rfl⟩ (.inl hstart)
  | covered hstart hlacking =>
    refine iff_of_false (fun ⟨_, h⟩ => nomatch h) ?_
    rintro (hno | ⟨hpositive, -⟩)
    · exact nomatch hstart.symm.trans hno
    · omega
  | tooFew hstart hextra hfew =>
    have hlacking : 0 < chain.lacking := Nat.zero_lt_of_lt hfew
    have hnot : ¬ chain.Enough extra := fun h => Nat.not_le_of_lt hfew (h _ hextra)
    exact iff_of_true ⟨_, rfl⟩ (.inr ⟨hlacking, .inl hnot⟩)
  | unreadable hstart hlacking henough hfetch =>
    exact iff_of_true ⟨_, rfl⟩ (.inr ⟨hlacking, .inr ⟨_, hfetch⟩⟩)
  | grown hstart hlacking henough hfetch hbytes hblocks =>
    refine iff_of_false (fun ⟨_, h⟩ => nomatch h) ?_
    rintro (hno | ⟨-, hfew | ⟨e, hfails⟩⟩)
    · exact nomatch hstart.symm.trans hno
    · exact hfew henough
    · exact nomatch hfetch.symm.trans hfails

/-- Among the chains of a caller, one grows when its record is assembled; otherwise none changes. -/
theorem step_assemble {chains : List SectorChain} {i : Nat} (hchain : chains[i]? = some chain) :
    step source chains { call := .assemble i extra } =
      match chain.assemble source extra with
      | .ok (_, grown) => chains.set i grown
      | .error _ => chains := by
  simp only [step, BlockSource.refusing_none, perform, withChain, hchain]
  cases chain.assemble source extra <;> rfl

/-- Assembling is exact, takes no more than it needs, and does nothing by halves. -/
theorem assemble_exactly (source : BlockSource) (chain : SectorChain)
    (extra : Option (List Int)) :
    (∀ payload grown, chain.assemble source extra = .ok (payload, grown) →
      chain.Exact source extra payload grown) ∧
    ((∃ e, chain.assemble source extra = .error e) ↔
      startsChunk chain.bytes = false ∨ 0 < chain.lacking ∧
        (¬ chain.Enough extra ∨ ∃ e, chain.fetch source extra = .error e)) ∧
    ((extra = none → source.ReadsBlockwise) →
      ((∃ e, chain.assemble source extra = .error e) ↔
        startsChunk chain.bytes = false ∨ 0 < chain.lacking ∧
          (¬ chain.Enough extra ∨
            ∃ block ∈ chain.needed extra, ∃ e, source.readBlock block = .error e))) ∧
    ∀ chains i, chains[i]? = some chain →
      step source chains { call := .assemble i extra } =
        match chain.assemble source extra with
        | .ok (_, grown) => chains.set i grown
        | .error _ => chains := by
  refine ⟨fun _ _ => exact_of_assemble, assemble_fails_iff, ?_, fun _ _ => step_assemble⟩
  intro hsource
  rw [assemble_fails_iff]
  exact or_congr_right (and_congr_right fun hlacking =>
    or_congr_right (fetch_fails_iff hsource hlacking))

/-! ### The two sectors of a record, the second one in front -/

/-- The first sector of the record in `swappedImage`: one more is lacking. -/
theorem exists_chain_swappedImage :
    let source := BlockSource.inMemory swappedImage [] 0 {}
    ∃ chain grown : SectorChain, ofRun source 1 1 = .ok chain ∧ chain.blocks = [1] ∧
      chain.lacking = 1 ∧ chain.assemble source (some [0, 7]) = .ok (longStream, grown) := by
  have hmark : octet longStream 0 = 0x78 ∧ octet longStream 1 = 0x9C := by decide +kernel
  have hsize : (recordBytes longStream (zeros 4095)).size = 4096 * 2 := size_longRecord
  have hlength : longStream.size ≤ maxRecordLength := by
    rw [size_longStream]
    decide
  have hcount : 2 = (5 + longStream.size + 4095) / 4096 := by rw [size_longStream]
  have hextra (blocks : List Int) (h : some [0, 7] = some blocks) : 2 - 1 ≤ blocks.length := by
    cases h
    decide
  obtain ⟨chain, hchain, hbytes, hblocks⟩ := ofRun_of_liesAt [] 0
    (liesAt_swappedImage (j := 0) rfl) (by rw [size_longRecord]; decide)
  obtain ⟨grown, hassemble, -⟩ := assemble_of_liesAt [] 0 hmark hlength hbytes hblocks hcount hsize
    hextra fun j block => liesAt_swappedImage
  refine ⟨chain, grown, hchain, hblocks, ?_, hassemble⟩
  have hword : be32 (slice longRecord 0 blockSize) 0 = longStream.size :=
    be32_recordBytes hlength (by decide)
  rw [lacking, hblocks, hbytes, hword, size_longStream]
  rfl

theorem assemble_exactly_swappedImage :
    let source := BlockSource.inMemory swappedImage [] 0 {}
    ∃ chain grown : SectorChain, ofRun source 1 1 = .ok chain ∧
      chain.Exact source (some [0, 7]) longStream grown ∧ grown.blocks = [1, 0] ∧
      (∃ e, chain.assemble source none = .error e) ∧
      (∃ e, chain.assemble source (some []) = .error e) ∧
      step source [chain] { call := .assemble 0 none } = [chain] := by
  intro source
  have hserves : source.Serves swappedImage := .inMemory [] 0 []
  obtain ⟨chain, grown, hchain, hblocks, hlacking, hassemble⟩ := exists_chain_swappedImage
  obtain ⟨hexact, -, -, -⟩ := assemble_exactly source chain (some [0, 7])
  obtain ⟨-, -, hblockwise, hstep⟩ := assemble_exactly source chain none
  obtain ⟨-, hfails, -, -⟩ := assemble_exactly source chain (some [])
  have hgrown := hexact longStream grown hassemble
  -- Behind block 1 the image ends.
  have hend : source.readBlock 2 = .error (.outOfRange 2 1) :=
    BlockSource.readBlock_behind [] 0 (n := 2) size_swappedImage
  have hbehind : ∃ e, chain.assemble source none = .error e := by
    refine (hblockwise fun _ => hserves.readsBlockwise).2 (.inr ⟨by omega, .inr ⟨2, ?_, _, hend⟩⟩)
    rw [needed, hblocks, hlacking]
    decide
  refine ⟨chain, grown, hchain, hgrown, ?_, hbehind, ?_, ?_⟩
  · rw [hgrown.listed [0, 7] rfl, hblocks, hlacking]
    rfl
  · exact hfails.2 (.inr ⟨by omega, .inl fun h => absurd (h [] rfl) (by rw [hlacking]; decide)⟩)
  · obtain ⟨e, he⟩ := hbehind
    rw [hstep [chain] 0 rfl, he]

end SectorChain

end RegionSalvage
