import RegionSalvage.Proofs.Block.Runs
import RegionSalvage.Record.Calls

/-! # Chains only grow

Whatever is done with a chain, it either stays as it is or gets further blocks at its end, with the
bytes that the source has for them (`SectorChain.GrowsInto`).  So its bytes are at any time those of
its blocks, one after the other, also when the device refuses reads on the way.
-/

namespace RegionSalvage

/-! ## Reads that a device refuses -/

namespace BlockSource

variable {source : BlockSource} {refusal : Int → Int → Option ReadError} {bytes : ByteArray}

theorem read_of_refusing {index count : Int}
    (h : (source.refusing refusal).read index count = .ok bytes) :
    source.read index count = .ok bytes := by
  simp only [refusing] at h
  split at h
  · cases h
  · exact h

theorem refusing_none (source : BlockSource) : source.refusing (fun _ _ => none) = source := rfl

theorem readBlocks_of_refusing {indices : List Int}
    (h : (source.refusing refusal).readBlocks indices = .ok bytes) :
    source.readBlocks indices = .ok bytes := by
  induction indices generalizing bytes with
  | nil => exact h
  | cons index rest ih =>
    obtain ⟨single, more, hsingle, hmore, rfl⟩ := readBlocks_cons_eq_ok_iff.1 h
    exact readBlocks_cons_eq_ok_iff.2 ⟨single, more, read_of_refusing hsingle, ih hmore, rfl⟩

end BlockSource

namespace SectorChain

variable {source : BlockSource} {refusal : Int → Int → Option ReadError}
  {chain grown : SectorChain}

/-! ## What the operations add -/

theorem appendRun_of_read (chain : SectorChain) {source : BlockSource} {index count : Int}
    {bytes : ByteArray} (hread : source.read index count = .ok bytes) :
    ∃ grown, chain.appendRun source index count = .ok grown ∧ grown.bytes = chain.bytes ++ bytes ∧
      grown.blocks = chain.blocks ++ consecutive index count.toNat := by
  unfold appendRun
  split
  · next hfail =>
    rw [hread] at hfail
    cases hfail
  · next got hgot =>
    rw [hread] at hgot
    cases hgot
    exact ⟨_, rfl, rfl, rfl⟩

theorem appendBlocks_of_read (chain : SectorChain) {source : BlockSource} {indices : List Int}
    {bytes : ByteArray} (hread : source.readBlocks indices = .ok bytes) :
    ∃ grown, chain.appendBlocks source indices = .ok grown ∧ grown.bytes = chain.bytes ++ bytes ∧
      grown.blocks = chain.blocks ++ indices := by
  unfold appendBlocks
  split
  · next hfail =>
    rw [hread] at hfail
    cases hfail
  · next got hgot =>
    rw [hread] at hgot
    cases hgot
    exact ⟨_, rfl, rfl, rfl⟩

theorem appendRun_eq_ok {index count : Int} (h : chain.appendRun source index count = .ok grown) :
    ∃ bytes, source.read index count = .ok bytes ∧ grown.bytes = chain.bytes ++ bytes ∧
      grown.blocks = chain.blocks ++ consecutive index count.toNat := by
  unfold appendRun at h
  split at h
  · exact nomatch h
  · next bytes hread =>
    cases h
    exact ⟨bytes, hread, rfl, rfl⟩

theorem appendBlocks_eq_ok {indices : List Int}
    (h : chain.appendBlocks source indices = .ok grown) :
    ∃ bytes, source.readBlocks indices = .ok bytes ∧ grown.bytes = chain.bytes ++ bytes ∧
      grown.blocks = chain.blocks ++ indices := by
  unfold appendBlocks at h
  split at h
  · exact nomatch h
  · next bytes hread =>
    cases h
    exact ⟨bytes, hread, rfl, rfl⟩

theorem appendRun_of_error (chain : SectorChain) {index count : Int} {e : ReadError}
    (hread : source.read index count = .error e) :
    chain.appendRun source index count = .error e := by
  unfold appendRun
  split
  · next e' he => rw [← Except.error.inj (hread.symm.trans he)]
  · next bytes hbytes =>
    rw [hread] at hbytes
    exact nomatch hbytes

theorem appendBlocks_of_error (chain : SectorChain) {indices : List Int} {e : ReadError}
    (hread : source.readBlocks indices = .error e) :
    chain.appendBlocks source indices = .error e := by
  unfold appendBlocks
  split
  · next e' he => rw [← Except.error.inj (hread.symm.trans he)]
  · next bytes hbytes =>
    rw [hread] at hbytes
    exact nomatch hbytes

theorem blocks_ofRun_one {block : Int} (h : ofRun source block 1 = .ok chain) :
    chain.blocks = [block] := by
  rw [blocks_appendRun h, Int.toNat_one, consecutive_succ, consecutive_zero]
  rfl

theorem attempt_eq_ok {missing : Int} {answer : Except ReadError SectorChain}
    (h : grow.attempt chain missing answer = .ok grown) : answer = .ok grown := by
  cases answer with
  | error e => exact nomatch h
  | ok chain => exact congrArg Except.ok (Except.ok.inj h)

theorem grow_eq_ok {missing : Int} {extra : Option (List Int)}
    (h : chain.grow source missing extra = .ok grown) :
    (∃ index, chain.appendRun source index missing = .ok grown) ∨
      ∃ indices, chain.appendBlocks source indices = .ok grown := by
  unfold grow at h
  split at h
  · exact .inl ⟨_, attempt_eq_ok h⟩
  · split at h
    · exact nomatch h
    · exact .inr ⟨_, attempt_eq_ok h⟩

theorem assemble_eq_ok {extra : Option (List Int)} {payload : ByteArray}
    (h : chain.assemble source extra = .ok (payload, grown)) :
    let missing := recordBlocks (be32 chain.bytes 0) - chain.blockCount
    missing ≤ 0 ∧ grown = chain ∨ 0 < missing ∧ chain.grow source missing extra = .ok grown := by
  unfold assemble at h
  split at h
  · exact nomatch h
  · simp only at h
    split at h
    · next hmissing =>
      obtain ⟨_, rfl⟩ := Prod.mk.inj (Except.ok.inj h)
      exact .inl ⟨hmissing, rfl⟩
    · next hmissing =>
      split at h
      · exact nomatch h
      · next hgrow =>
        obtain ⟨_, rfl⟩ := Prod.mk.inj (Except.ok.inj h)
        exact .inr ⟨Int.lt_of_not_ge hmissing, hgrow⟩

/-! ## Growth -/

/-- The chain with further blocks at its end, and with the bytes that the source has for them. -/
def GrowsInto (source : BlockSource) (chain grown : SectorChain) : Prop :=
  ∃ blocks bytes, source.readBlocks blocks = .ok bytes ∧
    grown.blocks = chain.blocks ++ blocks ∧ grown.bytes = chain.bytes ++ bytes

/-- The bytes of the chain are those of its blocks, each read by itself. -/
def IsReadFrom (chain : SectorChain) (source : BlockSource) : Prop :=
  source.readBlocks chain.blocks = .ok chain.bytes

theorem GrowsInto.refl (source : BlockSource) (chain : SectorChain) : GrowsInto source chain chain :=
  ⟨[], .empty, rfl, (List.append_nil _).symm, ByteArray.append_empty.symm⟩

theorem isReadFrom_empty (source : BlockSource) : IsReadFrom .empty source := rfl

theorem IsReadFrom.growsInto (h : chain.IsReadFrom source) (hgrown : GrowsInto source chain grown) :
    grown.IsReadFrom source := by
  obtain ⟨blocks, bytes, hread, hblocks, hbytes⟩ := hgrown
  rw [IsReadFrom, hblocks, hbytes]
  exact BlockSource.readBlocks_append_eq_ok_iff.2 ⟨_, _, h, hread, rfl⟩

/-! ### One call -/

theorem enlist_eq_ok {chains after : List SectorChain} {made : Except ReadError SectorChain}
    (h : enlist chains made = .ok after) : ∃ chain, made = .ok chain ∧ after = chains ++ [chain] := by
  cases made with
  | error e => exact nomatch h
  | ok chain => exact ⟨chain, rfl, (Except.ok.inj h).symm⟩

theorem withChain_cases {chains after : List SectorChain} {i : Nat}
    {act : SectorChain → Except ChainFailure SectorChain} (h : withChain chains i act = .ok after) :
    after = chains ∨ ∃ chain grown, chains[i]? = some chain ∧ act chain = .ok grown ∧
      after = chains.set i grown := by
  unfold withChain at h
  split at h
  · exact .inl (Except.ok.inj h).symm
  · next chain hchain =>
    split at h
    · exact nomatch h
    · next grown hact => exact .inr ⟨chain, grown, hchain, hact, (Except.ok.inj h).symm⟩

theorem mapError_eq_ok_iff {ε ε' α : Type} {f : ε → ε'} {x : Except ε α} {a : α} :
    x.mapError f = .ok a ↔ x = .ok a := by
  cases x with
  | error e => exact iff_of_false nofun nofun
  | ok b =>
    change Except.ok b = .ok a ↔ _
    rw [Except.ok.injEq, Except.ok.injEq]

theorem map_snd_eq_ok {ε α β : Type} {x : Except ε (α × β)} {b : β}
    (h : x.map Prod.snd = .ok b) : ∃ a, x = .ok (a, b) := by
  cases x with
  | error e => exact nomatch h
  | ok pair => exact ⟨pair.1, congrArg (fun b => Except.ok (pair.1, b)) (Except.ok.inj h)⟩

section Calls

variable {image : ByteArray} (hsource : source.Serves image)

include hsource

theorem growsInto_of_appendRun {index count : Int}
    (h : chain.appendRun (source.refusing refusal) index count = .ok grown) :
    GrowsInto source chain grown := by
  obtain ⟨bytes, hread, hbytes, hblocks⟩ := appendRun_eq_ok h
  have hsingle := hsource.readBlocks_consecutive (BlockSource.read_of_refusing hread)
  exact ⟨_, bytes, hsingle, hblocks, hbytes⟩

omit hsource in
theorem growsInto_of_appendBlocks {indices : List Int}
    (h : chain.appendBlocks (source.refusing refusal) indices = .ok grown) :
    GrowsInto source chain grown := by
  obtain ⟨bytes, hread, hbytes, hblocks⟩ := appendBlocks_eq_ok h
  exact ⟨_, bytes, BlockSource.readBlocks_of_refusing hread, hblocks, hbytes⟩

theorem growsInto_of_assemble {extra : Option (List Int)} {payload : ByteArray}
    (h : chain.assemble (source.refusing refusal) extra = .ok (payload, grown)) :
    GrowsInto source chain grown := by
  obtain ⟨-, rfl⟩ | ⟨-, hgrow⟩ := assemble_eq_ok h
  · exact .refl source grown
  · obtain ⟨index, happend⟩ | ⟨indices, happend⟩ := grow_eq_ok hgrow
    · exact growsInto_of_appendRun hsource happend
    · exact growsInto_of_appendBlocks happend

/-- A call either makes a chain or makes one grow; the other chains stay as they are. -/
theorem perform_cases {chains after : List SectorChain} {call : ChainCall}
    (h : perform (source.refusing refusal) chains call = .ok after) :
    after = chains ∨
      (∃ made, GrowsInto source .empty made ∧ after = chains ++ [made]) ∨
      ∃ i chain grown, chains[i]? = some chain ∧ GrowsInto source chain grown ∧
        after = chains.set i grown := by
  -- Two of the calls make a chain, the others put blocks at the end of one.
  cases call with
  | ofRun index count =>
    obtain ⟨made, hmade, rfl⟩ := enlist_eq_ok h
    exact .inr (.inl ⟨made, growsInto_of_appendRun hsource hmade, rfl⟩)
  | ofBlocks indices =>
    obtain ⟨made, hmade, rfl⟩ := enlist_eq_ok h
    exact .inr (.inl ⟨made, growsInto_of_appendBlocks hmade, rfl⟩)
  | appendRun i index count =>
    obtain rfl | ⟨chain, grown, hchain, hact, rfl⟩ := withChain_cases h
    · exact .inl rfl
    · have happend := mapError_eq_ok_iff.1 hact
      exact .inr (.inr ⟨i, chain, grown, hchain, growsInto_of_appendRun hsource happend, rfl⟩)
  | appendBlocks i indices =>
    obtain rfl | ⟨chain, grown, hchain, hact, rfl⟩ := withChain_cases h
    · exact .inl rfl
    · have happend := mapError_eq_ok_iff.1 hact
      exact .inr (.inr ⟨i, chain, grown, hchain, growsInto_of_appendBlocks happend, rfl⟩)
  | assemble i extra =>
    obtain rfl | ⟨chain, grown, hchain, hact, rfl⟩ := withChain_cases h
    · exact .inl rfl
    · obtain ⟨payload, hassemble⟩ := map_snd_eq_ok (mapError_eq_ok_iff.1 hact)
      exact .inr (.inr ⟨i, chain, grown, hchain, growsInto_of_assemble hsource hassemble, rfl⟩)

/-! ### A number of steps -/

/-- A step leaves behind every chain the chain that it was or has grown into. -/
theorem getElem?_step {chains : List SectorChain} (s : ChainStep) {i : Nat}
    (h : chains[i]? = some chain) :
    ∃ grown, (step source chains s)[i]? = some grown ∧ GrowsInto source chain grown := by
  unfold step
  split
  · exact ⟨chain, h, .refl source chain⟩
  · next after hperform =>
    obtain rfl | ⟨made, -, rfl⟩ | ⟨j, old, grown, hold, hgrown, rfl⟩ :=
      perform_cases hsource hperform
    · exact ⟨chain, h, .refl source chain⟩
    · have hi : i < chains.length := (List.getElem?_eq_some_iff.1 h).1
      exact ⟨chain, by rw [List.getElem?_append_left hi, h], .refl source chain⟩
    · by_cases hij : j = i
      · subst hij
        obtain rfl : old = chain := Option.some.inj (hold.symm.trans h)
        have hj : j < chains.length := (List.getElem?_eq_some_iff.1 h).1
        exact ⟨grown, List.getElem?_set_self hj, hgrown⟩
      · exact ⟨chain, by rw [List.getElem?_set_ne hij, h], .refl source chain⟩

theorem isReadFrom_step {chains : List SectorChain} (s : ChainStep)
    (h : ∀ chain ∈ chains, chain.IsReadFrom source) :
    ∀ chain ∈ step source chains s, chain.IsReadFrom source := by
  unfold step
  split
  · exact h
  · next after hperform =>
    obtain rfl | ⟨made, hmade, rfl⟩ | ⟨i, old, grown, hold, hgrown, rfl⟩ :=
      perform_cases hsource hperform
    · exact h
    · intro chain hchain
      obtain hchain | hchain := List.mem_append.1 hchain
      · exact h chain hchain
      · rw [List.mem_singleton.1 hchain]
        exact (isReadFrom_empty source).growsInto hmade
    · intro chain hchain
      obtain hchain | rfl := List.mem_or_eq_of_mem_set hchain
      · exact h chain hchain
      · exact (h old (List.mem_of_getElem? hold)).growsInto hgrown

theorem isReadFrom_performAll (steps : List ChainStep) :
    ∀ chain ∈ performAll source steps, chain.IsReadFrom source := by
  unfold performAll
  have key : ∀ (steps : List ChainStep) (chains : List SectorChain),
      (∀ chain ∈ chains, chain.IsReadFrom source) →
        ∀ chain ∈ steps.foldl (step source) chains, chain.IsReadFrom source := by
    intro steps
    induction steps with
    | nil => exact fun _ h => h
    | cons s rest ih => exact fun chains h => ih _ (isReadFrom_step hsource s h)
  exact key steps [] nofun

end Calls

/-- After every step the bytes of each chain are those of its blocks, each read by itself; the
chains that were there have kept what they had; and a call that fails has changed nothing. -/
theorem chains_only_grow {image : ByteArray} {source : BlockSource} (hsource : source.Serves image)
    (steps : List ChainStep) (s : ChainStep) :
    let before := performAll source steps
    let after := performAll source (steps ++ [s])
    (∀ chain ∈ after, source.readBlocks chain.blocks = .ok chain.bytes ∧
        chain.bytes.size = 4096 * chain.blocks.length) ∧
      (∀ (i : Nat) (chain : SectorChain), before[i]? = some chain →
        ∃ grown : SectorChain, after[i]? = some grown ∧ chain.blocks <+: grown.blocks ∧
          ∃ more, grown.bytes = chain.bytes ++ more) ∧
      ((∃ e, perform (source.refusing s.refusal) before s.call = .error e) → after = before) := by
  intro before after
  -- The last step starts from the chains that the others have made.
  have hafter : after = step source before s := by
    simp only [after, performAll, List.foldl_append, List.foldl_cons, List.foldl_nil]
    rfl
  refine ⟨fun chain hchain => ⟨isReadFrom_performAll hsource _ chain hchain, chain.size_eq⟩, ?_, ?_⟩
  · intro i chain hchain
    obtain ⟨grown, hgrown, blocks, bytes, -, hblocks, hbytes⟩ := getElem?_step hsource s hchain
    exact ⟨grown, hafter ▸ hgrown, ⟨blocks, hblocks.symm⟩, bytes, hbytes⟩
  · rintro ⟨e, he⟩
    rw [hafter, step, he]

/-- With one block at hand, a list that goes on to the next one fails after its first block, and the
chain stays as it was; the block by itself can be appended, also to the chain that holds it. -/
theorem steps_of_single {image : ByteArray} (hsize : image.size = 4096) :
    let source := BlockSource.inMemory image [] 0 {}
    ∃ chain grown : SectorChain, chain.blocks = [0] ∧ grown.blocks = [0, 0] ∧
      step source [] { call := .ofRun 0 1 } = [chain] ∧
      perform source [chain] (.appendBlocks 0 [0, 1]) = .error (.read (.outOfRange 1 1)) ∧
      step source [chain] { call := .appendBlocks 0 [0] } = [grown] := by
  intro source
  have hfirst : source.readBlock 0 = .ok (BlockSource.imageBytes image 0 1) :=
    BlockSource.read_inMemory _ _ (by decide) (by decide) (by rw [hsize]; decide)
  have hnext : source.readBlock 1 = .error (.outOfRange 1 1) :=
    BlockSource.readBlock_behind [] 0 (n := 1) hsize
  have hboth : source.readBlocks [0, 1] = .error (.outOfRange 1 1) := by
    simp [BlockSource.readBlocks, hfirst, hnext, bind, Except.bind, pure, Except.pure]
  obtain ⟨chain, hchain, -, hone⟩ := appendRun_of_read .empty hfirst
  obtain ⟨grown, hgrown, -, htwo⟩ := appendBlocks_of_read chain
    ((source.readBlocks_singleton 0).trans hfirst)
  refine ⟨chain, grown, hone, by rw [htwo, hone]; rfl, ?_, ?_, ?_⟩
  · rw [step, BlockSource.refusing_none, perform, ofRun, hchain]
    rfl
  · simp [perform, withChain, chain.appendBlocks_of_error hboth, Except.mapError]
  · simp [step, BlockSource.refusing_none, perform, withChain, hgrown, Except.mapError]

theorem chains_only_grow_single :
    let source := BlockSource.inMemory (zeros 4096) [] 0 {}
    let steps : List ChainStep := [{ call := .ofRun 0 1 }, { call := .appendBlocks 0 [0, 1] }]
    source.Serves (zeros 4096) ∧
      ∃ chain grown : SectorChain, performAll source steps = [chain] ∧ chain.blocks = [0] ∧
        performAll source (steps ++ [{ call := .appendBlocks 0 [0] }]) = [grown] ∧
        grown.blocks = [0, 0] ∧ source.readBlocks [0, 0] = .ok grown.bytes ∧
        ∃ more, grown.bytes = chain.bytes ++ more := by
  have hsize := size_zeros 4096
  -- Only the size of the block matters from here on.
  generalize zeros 4096 = image at hsize ⊢
  intro source steps
  have hsource : source.Serves image := .inMemory [] 0 []
  obtain ⟨chain, grown, hone, htwo, hmake, hfails, hgrow⟩ := steps_of_single hsize
  have hmade : performAll source [{ call := .ofRun 0 1 }] = [chain] := by
    rw [performAll, List.foldl_cons, hmake, List.foldl_nil]
  have hbefore : performAll source steps = [chain] := by
    obtain ⟨-, -, hkept⟩ := chains_only_grow hsource [{ call := .ofRun 0 1 }]
      { call := .appendBlocks 0 [0, 1] }
    rw [hmade] at hkept
    exact hkept ⟨_, hfails⟩
  have hafter : performAll source (steps ++ [{ call := .appendBlocks 0 [0] }]) = [grown] := by
    rw [performAll, List.foldl_append, ← performAll, hbefore, List.foldl_cons, hgrow,
      List.foldl_nil]
  obtain ⟨hread, hkept, -⟩ := chains_only_grow hsource steps { call := .appendBlocks 0 [0] }
  rw [hbefore, hafter] at hkept
  rw [hafter] at hread
  obtain ⟨_, hlast, -, more, hmore⟩ := hkept 0 chain rfl
  obtain rfl := Option.some.inj hlast
  have hbytes := (hread grown (List.mem_singleton_self grown)).1
  rw [htwo] at hbytes
  exact ⟨hsource, chain, grown, hbefore, hone, hafter, htwo, hbytes, more, hmore⟩

end SectorChain

end RegionSalvage
