import RegionSalvage.Proofs.Recovery.Content

/-! # Recovery in another order

Which of several candidates with the same content is recovered depends on their order, and so does
the block that a chunk is credited to.  Everything else does not: in another order the candidates
have the same fates, up to the records that novel content is taken from (`fates_perm`), so the books
and the content are the same (`recover_perm`).
-/

namespace RegionSalvage

theorem headersOf_perm {sightings sightings' : List Sighting} (h : sightings.Perm sightings') :
    (headersOf sightings).Perm (headersOf sightings') :=
  (h.filter _).map _

/-- What a chunk tells about its content, wherever that was found. -/
def SalvagedChunk.reading (c : SalvagedChunk) : String × Nat × DocumentCheck :=
  (c.md5, c.size, c.check)

namespace Recovery

variable {source : BlockSource} {seen : List String} {block other : Int}

/-! ## Fates without records -/

/-- What a candidate is, whatever the record that its content is taken from. -/
def Fate.anonymous : Fate → Fate
  | .novel _ content => .novel ⟨0, 0, [], .ok content⟩ content
  | f => f

theorem anonymous_fate {content : ByteArray} (h : inflated? source block = some content)
    (seen : List String) :
    (fate source seen block).anonymous =
      if Md5.hexDigest content ∈ seen then .duplicate
      else .novel ⟨0, 0, [], .ok content⟩ content := by
  obtain ⟨decoded, hfate⟩ := fate_of_inflated h seen
  rw [hfate]
  split <;> rfl

/-- A candidate does not depend on one in front that inflates to something else, or to nothing. -/
theorem fate_remember (h : ∀ md5, digest? source block = some md5 → digest? source other ≠ some md5)
    (seen : List String) :
    fate source ((fate source seen other).remember seen) block = fate source seen block := by
  apply fate_congr
  intro md5 hmd5
  rw [mem_remember_iff, or_iff_left (h md5 hmd5)]

/-- Two candidates in a row may change places. -/
theorem anonymous_swap (hfree : CollisionFree source [block, other]) (seen : List String) :
    ((fates source [block, other] seen).map Fate.anonymous).Perm
      ((fates source [other, block] seen).map Fate.anonymous) := by
  change [(fate source seen block).anonymous,
      (fate source ((fate source seen block).remember seen) other).anonymous].Perm
    [(fate source seen other).anonymous,
      (fate source ((fate source seen other).remember seen) block).anonymous]
  by_cases hshared : ∃ md5, digest? source block = some md5 ∧ digest? source other = some md5
  · -- They have the same content: the first of them may be novel, the second is a duplicate.
    obtain ⟨md5, hblock, hother⟩ := hshared
    have hknown : md5 ∈ (fate source seen block).remember seen := mem_remember_iff.2 (.inr hblock)
    have hknown' : md5 ∈ (fate source seen other).remember seen := mem_remember_iff.2 (.inr hother)
    rw [digest?_eq] at hblock hother
    obtain ⟨content, hcontent, rfl⟩ := Option.map_eq_some_iff.1 hblock
    obtain ⟨content', hcontent', hdigest⟩ := Option.map_eq_some_iff.1 hother
    obtain rfl := hfree block (by simp) other (by simp) content content' hcontent hcontent'
      hdigest.symm
    rw [anonymous_fate hcontent, anonymous_fate hcontent', anonymous_fate hcontent,
      anonymous_fate hcontent', if_pos hknown, if_pos hknown']
  · have hblock (md5) (hmd5 : digest? source block = some md5) : digest? source other ≠ some md5 :=
      fun hother => hshared ⟨md5, hmd5, hother⟩
    have hother (md5) (hmd5 : digest? source other = some md5) : digest? source block ≠ some md5 :=
      fun hblock => hshared ⟨md5, hblock, hmd5⟩
    rw [fate_remember hblock, fate_remember hother]
    exact .swap ..

/-- In another order, the candidates have the same fates, up to the records. -/
theorem fates_perm {blocks blocks' : List Int} (h : blocks.Perm blocks')
    (hfree : CollisionFree source blocks) (seen : List String) :
    ((fates source blocks seen).map Fate.anonymous).Perm
      ((fates source blocks' seen).map Fate.anonymous) := by
  induction h generalizing seen with
  | nil => exact .nil
  | cons block _ ih =>
    rw [fates, fates, List.map_cons, List.map_cons]
    exact (ih (hfree.of_subset (List.subset_cons_self ..)) _).cons _
  | swap other block rest =>
    -- Behind both of them the same digests are known, whichever came first.
    obtain ⟨seen₁, hseen₁, hfates₁⟩ := fates_append source [block, other] rest seen
    obtain ⟨seen₂, hseen₂, hfates₂⟩ := fates_append source [other, block] rest seen
    have hrest : fates source rest seen₁ = fates source rest seen₂ := by
      refine fates_congr fun _ _ md5 _ => ?_
      rw [hseen₁, hseen₂]
      simp only [List.mem_cons, List.not_mem_nil, or_false, exists_eq_or_imp, exists_eq_left]
      rw [or_comm (a := digest? source block = some md5)]
    change ((fates source ([block, other] ++ rest) seen).map Fate.anonymous).Perm
      ((fates source ([other, block] ++ rest) seen).map Fate.anonymous)
    rw [hfates₁, hfates₂, hrest, List.map_append, List.map_append]
    have hpair := hfree.of_subset (List.subset_append_left [block, other] rest)
    exact (anonymous_swap hpair seen).append_right _
  | trans hfirst _ ih ih' =>
    exact (ih hfree seen).trans (ih' (hfree.of_subset hfirst.symm.subset) seen)

/-! ## What fates without records still tell -/

variable {r : Recovery} {fates fates' : List Fate}

theorem told_anonymous_iff (r : Recovery) (fates : List Fate) :
    r.Told (fates.map Fate.anonymous) ↔ r.Told fates := by
  constructor
  · intro h decoded content hmem
    exact h _ content (List.mem_map_of_mem hmem)
  · intro h decoded content hmem
    obtain ⟨f, hf, heq⟩ := List.mem_map.1 hmem
    cases f with
    | novel decoded' content' =>
      cases heq
      exact h decoded' content hf
    | unreadable | unassembled | uninflated | duplicate => exact nomatch heq

theorem unreadable_mem_anonymous_iff (fates : List Fate) {e : ReadError} :
    .unreadable e ∈ fates.map Fate.anonymous ↔ .unreadable e ∈ fates := by
  constructor
  · intro h
    obtain ⟨f, hf, heq⟩ := List.mem_map.1 h
    cases f with
    | unreadable e' =>
      cases heq
      exact hf
    | unassembled | uninflated | duplicate | novel => exact nomatch heq
  · exact fun h => List.mem_map_of_mem h

theorem told_iff_of_perm (h : (fates.map Fate.anonymous).Perm (fates'.map Fate.anonymous)) :
    r.Told fates ↔ r.Told fates' := by
  rw [← r.told_anonymous_iff fates, ← r.told_anonymous_iff fates']
  simp only [Told, h.mem_iff]

theorem unreadable_mem_iff_of_perm {e : ReadError}
    (h : (fates.map Fate.anonymous).Perm (fates'.map Fate.anonymous)) :
    .unreadable e ∈ fates ↔ .unreadable e ∈ fates' := by
  rw [← unreadable_mem_anonymous_iff fates, ← unreadable_mem_anonymous_iff fates', h.mem_iff]

theorem reading_anonymous (r : Recovery) (f : Fate) :
    (f.anonymous.chunk? r).map SalvagedChunk.reading = (f.chunk? r).map SalvagedChunk.reading := by
  cases f with
  | novel decoded content =>
    simp only [Fate.anonymous, Fate.chunk?, Option.map_map]
    rfl
  | unreadable | unassembled | uninflated | duplicate => rfl

/-- The chunks of fates that are the same up to the records tell the same of their content. -/
theorem readings_perm (h : (fates.map Fate.anonymous).Perm (fates'.map Fate.anonymous)) :
    ((fates.filterMap (Fate.chunk? r)).map SalvagedChunk.reading).Perm
      ((fates'.filterMap (Fate.chunk? r)).map SalvagedChunk.reading) := by
  have hreadings (fates : List Fate) :
      (fates.filterMap (Fate.chunk? r)).map SalvagedChunk.reading =
        (fates.map Fate.anonymous).filterMap fun f => (f.chunk? r).map SalvagedChunk.reading := by
    rw [List.map_filterMap, List.filterMap_map]
    exact congrArg (List.filterMap · fates) (funext fun f => (reading_anonymous r f).symm)
  rw [hreadings, hreadings]
  exact h.filterMap _

/-- As many candidates are counted as this among fates that are the same up to the records. -/
theorem countP_eq_of_perm {p : Fate → Bool} (hp : ∀ f : Fate, p f.anonymous = p f)
    (h : (fates.map Fate.anonymous).Perm (fates'.map Fate.anonymous)) :
    fates.countP p = fates'.countP p := by
  have hcount := h.countP_eq p
  rw [List.countP_map, List.countP_map] at hcount
  rwa [show p ∘ Fate.anonymous = p from funext hp] at hcount

/-! ## Passes -/

variable {sightings sightings' : List Sighting}

/-- Without a directory, a recovery comes to its end if every candidate can be read and the
coordinates in novel content can be told, and not else. -/
theorem recover_ok_iff (hdirectory : r.saveDirectory? = none) (sightings : List Sighting)
    (s : RecoveryState) :
    let fates := Recovery.fates r.source (headersOf sightings) s.seen
    ((r.recover sightings s).1 = .ok () ↔ (∀ e, .unreadable e ∉ fates) ∧ r.Told fates) ∧
      ((r.recover sightings s).1 = .ok () → r.Processed fates s (r.recover sightings s).2) := by
  intro fates
  have hsaved := recover_ne_file hdirectory sightings s
  have hend := recover_fst hsaved
  rw [hend]
  refine ⟨⟨fun hok => ?_, fun h => ?_⟩, fun hok => ?_⟩
  · have hcompleted := completed_of_ok hok
    exact ⟨hcompleted.read, hcompleted.told⟩
  · refine (completes_tryAll h.1 fun e => ?_).1.2 h.2
    rw [← hend]
    exact hsaved e
  · exact (completed_of_ok hok).processed.with_files (r.recover_snd sightings s)

/-- Without a directory, a recovery counts the chunks that are no documents. -/
theorem nbtFailures_recover (hdirectory : r.saveDirectory? = none) (sightings : List Sighting)
    (files : FileTree) :
    (r.recover sightings { files }).2.stats.nbtFailures =
      ((r.recover sightings { files }).2.chunks.toList.map SalvagedChunk.reading).countP
        (·.2.2 == .refuted) := by
  have hpass : r.Balanced (r.trials sightings { files }) (r.recover sightings { files }).2 :=
    (r.balanced_new files).recover sightings
  have hbooks := hpass.refuted (trials_ne_file hdirectory sightings { files })
  rw [List.countP_map]
  exact hbooks

/-- A chunk is what there is at the block that it is credited to. -/
theorem chunk_eq_of_block {seen seen' : List String} {blocks blocks' : List Int}
    {c c' : SalvagedChunk}
    (hc : c ∈ (Recovery.fates r.source blocks seen).filterMap (Fate.chunk? r))
    (hc' : c' ∈ (Recovery.fates r.source blocks' seen').filterMap (Fate.chunk? r))
    (hblock : c.block = c'.block) : c = c' := by
  have hdecoded {seen : List String} {blocks : List Int} {c : SalvagedChunk}
      (hc : c ∈ (Recovery.fates r.source blocks seen).filterMap (Fate.chunk? r)) :
      ∃ decoded content, decodeRecord r.source c.block none = .ok decoded ∧
        decoded.outcome = .ok content ∧ Fate.chunk? r (.novel decoded content) = some c := by
    obtain ⟨f, hf, hchunk⟩ := List.mem_filterMap.1 hc
    cases f with
    | unreadable | unassembled | uninflated | duplicate => exact nomatch hchunk
    | novel decoded content =>
      obtain ⟨block, -, seen', hfate⟩ := exists_of_mem_fates hf
      obtain ⟨hdecoded, houtcome, -⟩ := decodeRecord_of_novel hfate
      obtain ⟨check, -, rfl⟩ := Option.map_eq_some_iff.1 hchunk
      exact ⟨decoded, content, by rw [chunkOf, block_of_novel hfate, hdecoded], houtcome, hchunk⟩
  -- Both are made of what the same block decodes to.
  obtain ⟨decoded, content, hat, houtcome, hchunk⟩ := hdecoded hc
  obtain ⟨decoded', content', hat', houtcome', hchunk'⟩ := hdecoded hc'
  rw [hblock, hat'] at hat
  cases hat
  rw [houtcome'] at houtcome
  cases houtcome
  exact Option.some.inj (hchunk.symm.trans hchunk')

/-- The counters are those of the fates, records aside. -/
theorem Processed.stats_eq {s s' t t' : RecoveryState} (h : r.Processed fates s s')
    (h' : r.Processed fates' t t') (hstart : s.stats = t.stats)
    (hfates : (fates.map Fate.anonymous).Perm (fates'.map Fate.anonymous))
    (hrefuted : s'.stats.nbtFailures = t'.stats.nbtFailures) : s'.stats = t'.stats := by
  have hlength : fates.length = fates'.length := by
    have hmapped := hfates.length_eq
    rwa [List.length_map, List.length_map] at hmapped
  have hcount {p : Fate → Bool} (hp : ∀ f : Fate, p f.anonymous = p f) :
      fates.countP p = fates'.countP p := countP_eq_of_perm hp hfates
  rw [RecoveryTally.mk.injEq]
  refine ⟨?_, ?_, ?_, ?_, hrefuted, ?_⟩
  · rw [h.candidates, h'.candidates, hstart, hlength]
  · rw [h.recovered, h'.recovered, hstart, hcount (fun f => by cases f <;> rfl)]
  · rw [h.assemblyFailures, h'.assemblyFailures, hstart, hcount (fun f => by cases f <;> rfl)]
  · rw [h.decompressionFailures, h'.decompressionFailures, hstart,
      hcount (fun f => by cases f <;> rfl)]
  · rw [h.duplicates, h'.duplicates, hstart, hcount (fun f => by cases f <;> rfl)]

/-- Two recoveries of the same candidates in different orders both come to their ends or neither
does.  If they do, their counters are the same and their chunks tell the same of the same content;
only the block that a content is credited to may differ. -/
theorem recover_perm (r : Recovery) (files files' : FileTree) (hperm : sightings.Perm sightings')
    (hdirectory : r.saveDirectory? = none)
    (hfree : CollisionFree r.source (headersOf sightings)) :
    let pass := r.recover sightings { files }
    let pass' := r.recover sightings' { files := files' }
    (pass.1 = .ok () ↔ pass'.1 = .ok ()) ∧
      (pass.1 = .ok () →
        pass.2.stats = pass'.2.stats ∧
        (pass.2.chunks.toList.map fun c =>
            (c.md5, c.size, c.check.isDocument?, c.check.position?)).Perm
          (pass'.2.chunks.toList.map fun c =>
            (c.md5, c.size, c.check.isDocument?, c.check.position?)) ∧
        ∀ c ∈ pass.2.chunks.toList, ∀ c' ∈ pass'.2.chunks.toList, c.block = c'.block → c = c') := by
  intro pass pass'
  have hfates := fates_perm (headersOf_perm hperm) hfree []
  obtain ⟨hiff, hbooks⟩ := recover_ok_iff hdirectory sightings { files }
  obtain ⟨hiff', hbooks'⟩ := recover_ok_iff hdirectory sightings' { files := files' }
  -- Whether a pass comes to its end is said of its fates, and these are the same up to their order.
  have hsame : pass.1 = .ok () ↔ pass'.1 = .ok () := by
    refine hiff.trans (Iff.trans ?_ hiff'.symm)
    exact and_congr (forall_congr' fun e => not_congr (unreadable_mem_iff_of_perm hfates))
      (told_iff_of_perm hfates)
  refine ⟨hsame, fun hok => ?_⟩
  have hpass : r.Processed (Recovery.fates r.source (headersOf sightings) []) { files } pass.2 :=
    hbooks hok
  have hpass' : r.Processed (Recovery.fates r.source (headersOf sightings') [])
      { files := files' } pass'.2 := hbooks' (hsame.1 hok)
  -- The chunks are those of the novel fates, and a block has one record.
  have hchunks : pass.2.chunks.toList =
      (Recovery.fates r.source (headersOf sightings) []).filterMap (Fate.chunk? r) := hpass.chunks
  have hchunks' : pass'.2.chunks.toList =
      (Recovery.fates r.source (headersOf sightings') []).filterMap (Fate.chunk? r) :=
    hpass'.chunks
  have hreadings : (pass.2.chunks.toList.map SalvagedChunk.reading).Perm
      (pass'.2.chunks.toList.map SalvagedChunk.reading) := by
    rw [hchunks, hchunks']
    exact readings_perm hfates
  refine ⟨?_, ?_, ?_⟩
  · refine hpass.stats_eq hpass' rfl hfates ?_
    rw [nbtFailures_recover hdirectory, nbtFailures_recover hdirectory]
    exact hreadings.countP_eq _
  · have hnames := hreadings.map fun reading =>
      (reading.1, reading.2.1, reading.2.2.isDocument?, reading.2.2.position?)
    rwa [List.map_map, List.map_map] at hnames
  · intro c hc c' hc' hblock
    rw [hchunks] at hc
    rw [hchunks'] at hc'
    exact chunk_eq_of_block hc hc' hblock

/-- Of two blocks with the same content, the one that comes first is credited with it. -/
theorem recover_perm_twins :
    let r : Recovery := { source := twinSource, readsDocuments := false }
    let sightings : List Sighting := [⟨0, .chunkHeader⟩, ⟨1, .chunkHeader⟩]
    let sightings' : List Sighting := [⟨1, .chunkHeader⟩, ⟨0, .chunkHeader⟩]
    sightings.Perm sightings' ∧ r.saveDirectory? = none ∧
      CollisionFree r.source (headersOf sightings) ∧
      (r.recover sightings {}).1 = .ok () ∧ (r.recover sightings' {}).1 = .ok () ∧
      (r.recover sightings {}).2.stats = (r.recover sightings' {}).2.stats ∧
      (r.recover sightings {}).2.chunks.toList.map (·.block) = [0] ∧
      (r.recover sightings' {}).2.chunks.toList.map (·.block) = [1] := by
  intro r sightings sightings'
  have hperm : sightings.Perm sightings' := .swap ..
  have hfree : CollisionFree r.source (headersOf sightings) := by
    refine collisionFree_twinSource fun block hblock => ?_
    change block ∈ [0, 1] at hblock
    simpa using hblock
  obtain ⟨hsame, hstats⟩ := recover_perm r {} {} hperm rfl hfree
  obtain ⟨hiff, hbooks⟩ := recover_ok_iff (r := r) rfl sightings {}
  obtain ⟨-, hbooks'⟩ := recover_ok_iff (r := r) rfl sightings' {}
  have hfates : fates r.source (headersOf sightings) [] = _ :=
    fates_twinSource (.inl rfl) (.inr rfl)
  have hfates' : fates r.source (headersOf sightings') [] = _ :=
    fates_twinSource (.inr rfl) (.inl rfl)
  have hok : (r.recover sightings {}).1 = .ok () := by
    refine hiff.2 ⟨fun e => ?_, fun decoded content _ => ⟨.skipped, rfl⟩⟩
    rw [hfates]
    simp
  have hok' := hsame.1 hok
  -- Each recovery credits the candidate that it came to first.
  have hchunks := (hbooks hok).chunks
  have hchunks' := (hbooks' hok').chunks
  rw [hfates] at hchunks
  rw [hfates'] at hchunks'
  exact ⟨hperm, rfl, hfree, hok, hok', (hstats hok).1, by rw [hchunks]; rfl, by rw [hchunks']; rfl⟩

end Recovery

end RegionSalvage
