import RegionSalvage.Proofs.Recovery.Completion

/-! # What candidates inflate to

A candidate has its content whatever came before it; the digests that are known only decide whether
the content is novel.  Content is told apart by its digest, so some of what is said of content here
holds where no two candidates have different content of one digest (`Recovery.CollisionFree`).

* `Recovery.novel_mem_fates_iff` — a candidate is novel if it is the first one with its digest.
* `Recovery.completed_of_ok` — what there is to say of a pass that came to its end.
* `Recovery.Completed.firstOf_chunk` — a chunk is credited to the first block with its content.
* `Recovery.Completed.contents_iff` — the chunks have all the content of the candidates.
-/

namespace RegionSalvage

namespace Recovery

variable {source : BlockSource} {seen : List String} {block : Int} {content : ByteArray}

/-- What the candidate at `block` inflates to, if it does. -/
def inflated? (source : BlockSource) (block : Int) : Option ByteArray :=
  match decodeRecord source block none with
  | .error _ => none
  | .ok decoded => decoded.outcome.toOption

theorem digest?_eq (source : BlockSource) (block : Int) :
    digest? source block = (inflated? source block).map Md5.hexDigest := by
  unfold digest? inflated?
  cases decodeRecord source block none <;> rfl

theorem digest?_of_inflated (h : inflated? source block = some content) :
    digest? source block = some (Md5.hexDigest content) := by
  rw [digest?_eq, h]
  rfl

/-- The candidates at these blocks have different digests where they have different content. -/
def CollisionFree (source : BlockSource) (blocks : List Int) : Prop :=
  ∀ block ∈ blocks, ∀ other ∈ blocks, ∀ content content',
    inflated? source block = some content → inflated? source other = some content' →
      Md5.hexDigest content = Md5.hexDigest content' → content = content'

theorem CollisionFree.of_subset {blocks blocks' : List Int} (h : CollisionFree source blocks)
    (hsubset : blocks' ⊆ blocks) : CollisionFree source blocks' :=
  fun block hblock other hother => h block (hsubset hblock) other (hsubset hother)

theorem inflated?_eq_some_iff :
    inflated? source block = some content ↔
      ∃ decoded, decodeRecord source block none = .ok decoded ∧ decoded.outcome = .ok content := by
  unfold inflated?
  constructor
  · intro h
    split at h
    · exact nomatch h
    · next decoded hdecoded => exact ⟨decoded, hdecoded, eq_ok_of_toOption h⟩
  · rintro ⟨decoded, hdecoded, houtcome⟩
    simp only [hdecoded, houtcome]
    rfl

/-- A candidate that inflates is a duplicate or novel, as its digest is known or not. -/
theorem fate_of_inflated (h : inflated? source block = some content) (seen : List String) :
    ∃ decoded, fate source seen block =
      if Md5.hexDigest content ∈ seen then .duplicate else .novel decoded content := by
  obtain ⟨decoded, hdecoded, houtcome⟩ := inflated?_eq_some_iff.1 h
  exact ⟨decoded, by simp only [fate, hdecoded, houtcome, List.contains_iff_mem]⟩

theorem inflated?_of_novel {decoded : DecodedRecord}
    (h : fate source seen block = .novel decoded content) :
    inflated? source block = some content := by
  obtain ⟨hdecoded, houtcome, -⟩ := decodeRecord_of_novel h
  exact inflated?_eq_some_iff.2 ⟨decoded, hdecoded, houtcome⟩

/-- Candidates behind others know the digests of all of them. -/
theorem fates_append (source : BlockSource) (blocks more : List Int) (seen : List String) :
    ∃ seen', (∀ md5, md5 ∈ seen' ↔ md5 ∈ seen ∨ ∃ block ∈ blocks, digest? source block = some md5) ∧
      fates source (blocks ++ more) seen = fates source blocks seen ++ fates source more seen' := by
  induction blocks generalizing seen with
  | nil => exact ⟨seen, by simp, rfl⟩
  | cons block blocks ih =>
    obtain ⟨seen', hseen', happend⟩ := ih ((fate source seen block).remember seen)
    refine ⟨seen', fun md5 => ?_, ?_⟩
    · rw [hseen', mem_remember_iff, or_assoc]
      simp
    · rw [List.cons_append, fates, happend, fates, List.cons_append]

/-! ## First occurrences -/

/-- `block` is the first of the candidates whose content has its digest. -/
structure FirstOf (source : BlockSource) (blocks : List Int) (block : Int) (md5 : String) :
    Prop where
  digest : digest? source block = some md5
  first : ∃ before after, blocks = before ++ block :: after ∧
    ∀ other ∈ before, digest? source other ≠ some md5

theorem FirstOf.mem {blocks : List Int} {md5 : String} (h : FirstOf source blocks block md5) :
    block ∈ blocks := by
  obtain ⟨before, after, hsplit, -⟩ := h.first
  rw [hsplit]
  exact List.mem_append_right _ List.mem_cons_self

/-- Among candidates with a digest there is a first one. -/
theorem exists_firstOf {blocks : List Int} {md5 : String} (hmem : block ∈ blocks)
    (hdigest : digest? source block = some md5) : ∃ first, FirstOf source blocks first md5 := by
  induction blocks with
  | nil => exact nomatch hmem
  | cons head blocks ih =>
    by_cases hhead : digest? source head = some md5
    · exact ⟨head, hhead, [], blocks, rfl, nofun⟩
    · have hlater : block ∈ blocks := (List.mem_cons.1 hmem).resolve_left fun heq =>
        hhead (heq ▸ hdigest)
      obtain ⟨first, hfirst, before, after, rfl, hbefore⟩ := ih hlater
      exact ⟨first, hfirst, head :: before, after, rfl, List.forall_mem_cons.2 ⟨hhead, hbefore⟩⟩

/-- The novel candidates are the first ones with their digests, if those are not known before. -/
theorem novel_mem_fates_iff {blocks : List Int} {decoded : DecodedRecord} :
    .novel decoded content ∈ fates source blocks seen ↔
      Md5.hexDigest content ∉ seen ∧ ∃ block, decodeRecord source block none = .ok decoded ∧
        decoded.outcome = .ok content ∧ FirstOf source blocks block (Md5.hexDigest content) := by
  induction blocks generalizing seen with
  | nil =>
    refine iff_of_false List.not_mem_nil ?_
    rintro ⟨-, block, -, -, -, before, after, hnil, -⟩
    exact List.cons_ne_nil _ _ (List.append_eq_nil_iff.1 hnil.symm).2
  | cons head blocks ih =>
    rw [fates, List.mem_cons, ih, mem_remember_iff, not_or]
    -- A novel candidate is the first with its digest: the head, or one behind a head without it.
    constructor
    · rintro (hhead | ⟨⟨hnew, hhead⟩, block, hdecoded, houtcome, hdigest, before, after, rfl,
        hbefore⟩)
      · obtain ⟨hdecoded, houtcome, hnew⟩ := decodeRecord_of_novel hhead.symm
        have hdigest := digest?_of_inflated (inflated?_of_novel hhead.symm)
        exact ⟨hnew, head, hdecoded, houtcome, hdigest, [], blocks, rfl, List.forall_mem_nil _⟩
      · exact ⟨hnew, block, hdecoded, houtcome, hdigest, head :: before, after, rfl,
          List.forall_mem_cons.2 ⟨hhead, hbefore⟩⟩
    · rintro ⟨hnew, block, hdecoded, houtcome, hdigest, before, after, hsplit, hbefore⟩
      cases before with
      | nil =>
        obtain ⟨rfl, rfl⟩ := List.cons.inj hsplit
        exact .inl (fate_of_new hdecoded houtcome hnew).symm
      | cons first before =>
        obtain ⟨rfl, rfl⟩ := List.cons.inj hsplit
        obtain ⟨hhead, hbefore⟩ := List.forall_mem_cons.1 hbefore
        exact .inr ⟨⟨hnew, hhead⟩, block, hdecoded, houtcome, hdigest, before, after, rfl, hbefore⟩

/-! ## Passes that come to their ends -/

variable {r : Recovery} {s s' : RecoveryState}

/-- What a candidate that lets the pass go on adds in front, a pass that comes to its end has. -/
theorem tryAll_induction {P : List Int → RecoveryState → RecoveryState → Prop}
    (hnil : ∀ s, P [] s s)
    (hcons : ∀ block blocks s found s' t, r.Tried block s (.ok found) s' → P blocks s' t →
      P (block :: blocks) s t)
    {sightings : List Sighting} (h : (r.tryAll sightings s).1 = .ok ()) :
    P (headersOf sightings) s (r.tryAll sightings s).2 := by
  induction sightings generalizing s with
  | nil => exact hnil s
  | cons sighting sightings ih =>
    unfold tryAll at ih h ⊢
    unfold tryEach at h ⊢
    cases hpart : sighting.part with
    | timestamps | offsets =>
      rw [headersOf_cons_other (by rw [hpart]; decide)]
      rw [hpart] at h
      exact ih h
    | chunkHeader =>
      rw [headersOf_cons_header hpart]
      rw [hpart] at h
      simp only at h ⊢
      have htried := r.tried sighting.block s
      generalize r.tryCandidate sighting.block s = result at htried h ⊢
      obtain ⟨answer, next⟩ := result
      -- The pass came to its end, so no candidate has ended it.
      cases answer with
      | error e => exact nomatch h
      | ok found => exact hcons _ _ _ found next _ htried (ih h)

/-- What there is to say of a pass that came to its end. -/
structure Completed (r : Recovery) (blocks : List Int) (s s' : RecoveryState) : Prop where
  read : ∀ e, .unreadable e ∉ fates r.source blocks s.seen
  told : r.Told (fates r.source blocks s.seen)
  processed : r.Processed (fates r.source blocks s.seen) s s'
  seen : ∀ md5, md5 ∈ s'.seen ↔ md5 ∈ s.seen ∨ ∃ block ∈ blocks, digest? r.source block = some md5

theorem Completed.cons {blocks : List Int} {f : Fate} {t : RecoveryState}
    (hfate : fate r.source s.seen block = f) (hread : ∀ e, f ≠ .unreadable e) (htold : r.Told [f])
    (hprocessed : r.Processed [f] s s') (hseen : s'.seen = f.remember s.seen)
    (hrest : r.Completed blocks s' t) : r.Completed (block :: blocks) s t := by
  have hfates : fates r.source (block :: blocks) s.seen = f :: fates r.source blocks s'.seen := by
    rw [fates, hfate, hseen]
  refine ⟨?_, ?_, ?_, ?_⟩
  · intro e hmem
    rw [hfates] at hmem
    rcases List.mem_cons.1 hmem with hfirst | hlater
    · exact hread e hfirst.symm
    · exact hrest.read e hlater
  · rw [hfates]
    exact told_cons_iff.2 ⟨htold, hrest.told⟩
  · rw [hfates]
    exact hprocessed.cons hrest.processed
  · intro md5
    rw [hrest.seen, hseen, ← hfate, mem_remember_iff, or_assoc]
    simp

theorem completed_of_ok {sightings : List Sighting} (h : (r.tryAll sightings s).1 = .ok ()) :
    r.Completed (headersOf sightings) s (r.tryAll sightings s).2 := by
  refine tryAll_induction (fun s => ?_) (fun block blocks s found s' t htried hrest => ?_) h
  · exact ⟨fun e => List.not_mem_nil, fun _ _ hmem => absurd hmem List.not_mem_nil, .nil r s,
      fun md5 => by simp⟩
  · cases htried with
    | unassembled hfate | uninflated hfate | duplicate hfate =>
      exact .cons hfate nofun (told_of_dropped rfl) (processed_register rfl s) rfl hrest
    | recovered hfate hcheck hsave =>
      exact .cons hfate nofun (told_of_inspect hcheck) (processed_enter hcheck hsave) rfl hrest

/-- Candidates that come after others find the digests of all of them. -/
theorem Completed.append {blocks more : List Int} {s'' : RecoveryState}
    (h : r.Completed blocks s s') (hmore : r.Completed more s' s'') :
    r.Completed (blocks ++ more) s s'' := by
  obtain ⟨seen, hseen, happend⟩ := fates_append r.source blocks more s.seen
  have hfates : fates r.source more seen = fates r.source more s'.seen :=
    fates_congr fun _ _ md5 _ => by rw [hseen, h.seen]
  rw [hfates] at happend
  refine ⟨?_, ?_, ?_, ?_⟩
  · intro e
    rw [happend, List.mem_append, not_or]
    exact ⟨h.read e, hmore.read e⟩
  · rw [happend]
    exact fun decoded content hmem =>
      (List.mem_append.1 hmem).elim (h.told decoded content) (hmore.told decoded content)
  · rw [happend]
    exact h.processed.append hmore.processed
  · intro md5
    rw [hmore.seen, h.seen, or_assoc]
    simp only [List.mem_append, or_and_right, exists_or]

theorem Completed.with_files {blocks : List Int} (h : r.Completed blocks s s') {s'' : RecoveryState}
    (hs : s'' = { s' with files := s''.files }) : r.Completed blocks s s'' := by
  have hseen : s''.seen = s'.seen := by rw [hs]
  exact ⟨h.read, h.told, h.processed.with_files hs, hseen ▸ h.seen⟩

/-! ## What a new recovery has -/

variable {blocks : List Int} {files : FileTree}

/-- A chunk is credited to the first block with its content. -/
theorem Completed.firstOf_chunk (h : r.Completed blocks { files } s) {c : SalvagedChunk}
    (hc : c ∈ s.chunks.toList) :
    ∃ content, inflated? r.source c.block = some content ∧
      FirstOf r.source blocks c.block (Md5.hexDigest content) := by
  have hchunks : s.chunks.toList = (fates r.source blocks []).filterMap (Fate.chunk? r) :=
    h.processed.chunks
  rw [hchunks] at hc
  obtain ⟨f, hf, hchunk⟩ := List.mem_filterMap.1 hc
  cases f with
  | unreadable | unassembled | uninflated | duplicate => exact nomatch hchunk
  | novel decoded content =>
    obtain ⟨-, block, hdecoded, houtcome, hfirst⟩ := novel_mem_fates_iff.1 hf
    obtain ⟨check, -, rfl⟩ := Option.map_eq_some_iff.1 hchunk
    have hblock : (chunkOf decoded content check (r.placeOf decoded.block)).block = block :=
      (decodeRecord_blocks hdecoded houtcome).1
    rw [hblock]
    exact ⟨content, inflated?_eq_some_iff.2 ⟨decoded, hdecoded, houtcome⟩, hfirst⟩

/-- For every content there is a chunk with its digest. -/
theorem Completed.exists_chunk (h : r.Completed blocks { files } s) (hblock : block ∈ blocks)
    (hinflated : inflated? r.source block = some content) :
    ∃ c ∈ s.chunks.toList, c.block ∈ blocks ∧
      ∃ content', inflated? r.source c.block = some content' ∧
        Md5.hexDigest content' = Md5.hexDigest content := by
  have hdigest := digest?_of_inflated hinflated
  -- The first candidate with this digest is novel, and the pass has made its chunk.
  obtain ⟨first, hfirst⟩ := exists_firstOf hblock hdigest
  obtain ⟨content', hinflated', hsame⟩ : ∃ content', inflated? r.source first = some content' ∧
      Md5.hexDigest content' = Md5.hexDigest content :=
    Option.map_eq_some_iff.1 ((digest?_eq r.source first).symm.trans hfirst.digest)
  obtain ⟨decoded, hdecoded, houtcome⟩ := inflated?_eq_some_iff.1 hinflated'
  have hnovel : .novel decoded content' ∈ fates r.source blocks [] :=
    novel_mem_fates_iff.2 ⟨List.not_mem_nil, first, hdecoded, houtcome, hsame.symm ▸ hfirst⟩
  obtain ⟨check, hcheck⟩ := h.told decoded content' hnovel
  have hfirstBlock : decoded.block = first := (decodeRecord_blocks hdecoded houtcome).1
  refine ⟨chunkOf decoded content' check (r.placeOf decoded.block), ?_, ?_, content', ?_, hsame⟩
  · rw [show s.chunks.toList = (fates r.source blocks []).filterMap (Fate.chunk? r) from
      h.processed.chunks, List.mem_filterMap]
    exact ⟨_, hnovel, by rw [Fate.chunk?, hcheck]; rfl⟩
  · rw [chunkOf, hfirstBlock]
    exact hfirst.mem
  · rw [chunkOf, hfirstBlock, hinflated']

/-- A chunk has the digest of what its block inflates to. -/
theorem Sound.exists_content (h : Sound source s) {c : SalvagedChunk} (hc : c ∈ s.chunks.toList) :
    ∃ content, inflated? source c.block = some content ∧ c.md5 = Md5.hexDigest content := by
  obtain ⟨decoded, content, hof⟩ := h.faithful c hc
  exact ⟨content, inflated?_eq_some_iff.2 ⟨decoded, hof.decoded_eq, hof.content_eq⟩, hof.md5_eq⟩

/-- No two chunks have the same content. -/
theorem Sound.contents (h : Sound source s) :
    (s.chunks.toList.map fun c => inflated? source c.block).Nodup := by
  have hdigests := h.digests
  rw [List.Nodup, List.pairwise_map] at hdigests ⊢
  apply hdigests.imp_of_mem
  intro c c' hc hc' hne hsame
  obtain ⟨content, hinflated, hmd5⟩ := h.exists_content hc
  obtain ⟨content', hinflated', hmd5'⟩ := h.exists_content hc'
  rw [hinflated, hinflated'] at hsame
  exact hne (by rw [hmd5, hmd5', Option.some.inj hsame])

/-- The chunks have all the content that there is among the candidates. -/
theorem Completed.contents_iff (h : r.Completed blocks { files } s)
    (hfree : CollisionFree r.source blocks) :
    (∃ c ∈ s.chunks.toList, inflated? r.source c.block = some content) ↔
      ∃ block ∈ blocks, inflated? r.source block = some content := by
  constructor
  · rintro ⟨c, hc, hinflated⟩
    obtain ⟨_, -, hfirst⟩ := h.firstOf_chunk hc
    exact ⟨c.block, hfirst.mem, hinflated⟩
  · rintro ⟨block, hblock, hinflated⟩
    obtain ⟨c, hc, hcblock, content', hinflated', hsame⟩ := h.exists_chunk hblock hinflated
    obtain rfl := hfree c.block hcblock block hblock content' content hinflated' hinflated hsame
    exact ⟨c, hc, hinflated'⟩

/-! ## The same content twice -/

/-- An image of two blocks with the record of `levelStream` in either. -/
def twinImage : ByteArray := levelRecord ++ levelRecord

def twinSource : BlockSource := .inMemory twinImage [] 0 {}

theorem size_twinImage : twinImage.size = 8192 := by
  rw [twinImage, ByteArray.size_append, size_levelRecord]

theorem liesAt_twinImage (h : block = 0 ∨ block = 1) : LiesAt twinImage levelRecord 0 block := by
  rcases h with rfl | rfl
  · exact
      { nonneg := by decide
        inside := by rw [size_twinImage]; decide
        octet_eq := by
          intro i hi
          have hleft := octet_append_left (a := levelRecord) (b := levelRecord) (i := i)
            (by rw [size_levelRecord]; exact hi)
          rw [show (4096 * (0 : Int)).toNat + i = blockSize * 0 + i from rfl, Nat.mul_zero,
            Nat.zero_add]
          exact hleft }
  · exact
      { nonneg := by decide
        inside := by rw [size_twinImage]; decide
        octet_eq := by
          intro i _
          have hright := octet_append_right levelRecord levelRecord i
          rw [size_levelRecord] at hright
          rw [Nat.mul_zero, Nat.zero_add]
          exact hright }

theorem decodeRecord_twinSource (h : block = 0 ∨ block = 1) :
    decodeRecord twinSource block none =
      .ok { block, dataLength := 27, blocks := [block], outcome := .ok levelContent } :=
  decodeRecord_of_liesAt (liesAt_twinImage h)

theorem inflated?_twinSource (h : block = 0 ∨ block = 1) :
    inflated? twinSource block = some levelContent := by
  simp only [inflated?, decodeRecord_twinSource h]
  rfl

theorem collisionFree_twinSource {blocks : List Int} (h : ∀ block ∈ blocks, block = 0 ∨ block = 1) :
    CollisionFree twinSource blocks := by
  intro block hblock other hother content content' hcontent hcontent' _
  rw [inflated?_twinSource (h block hblock)] at hcontent
  rw [inflated?_twinSource (h other hother)] at hcontent'
  exact Option.some.inj (hcontent.symm.trans hcontent')

/-- The first of the two candidates is novel, and the other one its duplicate. -/
theorem fates_twinSource {other : Int} (hblock : block = 0 ∨ block = 1)
    (hother : other = 0 ∨ other = 1) :
    fates twinSource [block, other] [] =
      [.novel ⟨block, 27, [block], .ok levelContent⟩ levelContent, .duplicate] := by
  have hfirst := fate_of_new (decodeRecord_twinSource hblock) rfl
    (List.not_mem_nil (a := Md5.hexDigest levelContent))
  obtain ⟨decoded, hsecond⟩ :=
    fate_of_inflated (inflated?_twinSource hother) [Md5.hexDigest levelContent]
  rw [if_pos (List.mem_singleton_self _)] at hsecond
  rw [fates, fates, fates, hfirst]
  exact congrArg (fun f => [_, f]) hsecond

end Recovery

end RegionSalvage
