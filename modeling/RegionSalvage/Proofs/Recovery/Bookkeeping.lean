import RegionSalvage.Proofs.Recovery.Candidate
import RegionSalvage.Recovery.Calls

/-! # The books of a recovery

The counters, the chunks and the digests of a recovery stay in step over any calls, those included
that end early.  `Recovery.Balanced` is the invariant, about the state and everything the candidates
have come to so far; a candidate keeps it (`Balanced.tryCandidate`), so a pass does, and so do all
calls.

* `Recovery.tryAll_keeps` — what every candidate keeps, a pass keeps.
* `Recovery.bookkeeping` — the books after any calls of a new recovery.
-/

namespace RegionSalvage

/-- A chunk tells what its record decodes to. -/
structure SalvagedChunk.IsOf (source : BlockSource) (c : SalvagedChunk) (decoded : DecodedRecord)
    (content : ByteArray) : Prop where
  decoded_eq : decodeRecord source c.block none = .ok decoded
  content_eq : decoded.outcome = .ok content
  blocks_eq : c.blocks = decoded.blocks
  dataLength_eq : c.dataLength = decoded.dataLength
  size_eq : c.size = content.size
  md5_eq : c.md5 = Md5.hexDigest content

/-- Two chunks of one block have the same content. -/
theorem SalvagedChunk.IsOf.md5_eq_of_block {source : BlockSource} {c c' : SalvagedChunk}
    {decoded decoded' : DecodedRecord} {content content' : ByteArray}
    (h : c.IsOf source decoded content) (h' : c'.IsOf source decoded' content')
    (hblock : c.block = c'.block) : c.md5 = c'.md5 := by
  have hdecoded := h.decoded_eq
  rw [hblock, h'.decoded_eq] at hdecoded
  cases hdecoded
  have hcontent := h.content_eq
  rw [h'.content_eq] at hcontent
  cases hcontent
  rw [h.md5_eq, h'.md5_eq]

namespace Recovery

variable {r : Recovery} {s : RecoveryState}

/-! ## From candidates to passes -/

/-- What holds of a history of candidates and the state behind it, and is kept by every further
candidate, is kept by a pass. -/
theorem tryAll_keeps {P : List Answer → RecoveryState → Prop}
    (hstep : ∀ answers block s, P answers s →
      P (answers ++ [(r.tryCandidate block s).1]) (r.tryCandidate block s).2)
    {answers : List Answer} (h : P answers s) (sightings : List Sighting) :
    P (answers ++ r.trials sightings s) (r.tryAll sightings s).2 := by
  induction sightings generalizing answers s with
  | nil =>
    rw [trials, List.append_nil]
    exact h
  | cons sighting sightings ih =>
    unfold tryAll at ih ⊢
    unfold trials tryEach
    cases sighting.part with
    | timestamps | offsets => exact ih h
    | chunkHeader =>
      -- A candidate that ends the pass is the last of the history.
      have hnext := hstep answers sighting.block s h
      match htry : r.tryCandidate sighting.block s with
      | (.error e, s') =>
        rw [htry] at hnext
        exact hnext
      | (.ok found, s') =>
        rw [htry] at hnext
        have hrest := ih hnext
        rw [List.append_assoc] at hrest
        exact hrest

/-- A pass ends with an error just when one of its candidates does. -/
theorem tryAll_eq_error_iff (r : Recovery) (sightings : List Sighting) (s : RecoveryState)
    (e : RecoveryError) :
    (r.tryAll sightings s).1 = .error e ↔ .error e ∈ r.trials sightings s := by
  induction sightings generalizing s with
  | nil => simp [tryAll, tryEach, trials]
  | cons sighting sightings ih =>
    unfold tryAll at ih ⊢
    unfold trials tryEach
    cases sighting.part with
    | timestamps | offsets => exact ih s
    | chunkHeader =>
      match r.tryCandidate sighting.block s with
      | (.error e', s') => simp [eq_comm]
      | (.ok found, s') => simpa using ih s'

/-! ## The invariant -/

/-- The chunks of a state are different, and they are what the source has. -/
structure Sound (source : BlockSource) (s : RecoveryState) : Prop where
  digests : (s.chunks.toList.map (·.md5)).Nodup
  known : ∀ c ∈ s.chunks.toList, c.md5 ∈ s.seen
  faithful : ∀ c ∈ s.chunks.toList, ∃ decoded content, c.IsOf source decoded content

/-- The state fits what the candidates have come to. -/
structure Balanced (r : Recovery) (answers : List Answer) (s : RecoveryState) : Prop where
  sound : Sound r.source s
  tried : s.stats.candidates = answers.length
  candidates : s.stats.candidates = s.stats.recovered + s.stats.duplicates +
    s.stats.assemblyFailures + s.stats.decompressionFailures + answers.countP (!·.isOk)
  recovered : s.stats.recovered = s.chunks.toList.length
  refuted : (∀ answer ∈ answers, ∀ e, answer ≠ .error (.file e)) →
    s.stats.nbtFailures = s.chunks.toList.countP (·.check == .refuted)
  unread : r.readsDocuments = false →
    s.stats.nbtFailures = 0 ∧ ∀ c ∈ s.chunks.toList, c.check = .skipped

theorem Sound.of_seen {source : BlockSource} {s' : RecoveryState} (h : Sound source s)
    (hchunks : s'.chunks = s.chunks) (hseen : ∀ md5 ∈ s.seen, md5 ∈ s'.seen) : Sound source s' := by
  refine ⟨?_, ?_, ?_⟩
  · rw [hchunks]
    exact h.digests
  · intro c hc
    rw [hchunks] at hc
    exact hseen c.md5 (h.known c hc)
  · rw [hchunks]
    exact h.faithful

theorem Sound.enter {source : BlockSource} (h : Sound source s) {c : SalvagedChunk}
    (hnew : ∀ old ∈ s.chunks.toList, old.md5 ≠ c.md5) (hknown : c.md5 ∈ s.seen)
    (hfaithful : ∃ decoded content, c.IsOf source decoded content) :
    Sound source (enter c s) := by
  have hchunks : (Recovery.enter c s).chunks.toList = s.chunks.toList ++ [c] := Array.toList_push
  refine ⟨?_, ?_, ?_⟩
  · rw [hchunks, List.map_append, List.map_singleton, List.nodup_append]
    refine ⟨h.digests, by simp, ?_⟩
    intro old hold new hc heq
    obtain ⟨chunk, hchunk, rfl⟩ := List.mem_map.1 hold
    rw [List.mem_singleton] at hc
    exact hnew chunk hchunk (heq.trans hc)
  · rw [hchunks, List.forall_mem_append, List.forall_mem_singleton]
    exact ⟨h.known, hknown⟩
  · rw [hchunks, List.forall_mem_append, List.forall_mem_singleton]
    exact ⟨h.faithful, hfaithful⟩

/-- No two chunks come from one block. -/
theorem Sound.blocks {source : BlockSource} (h : Sound source s) :
    (s.chunks.toList.map (·.block)).Nodup := by
  have hdigests := h.digests
  rw [List.Nodup, List.pairwise_map] at hdigests ⊢
  apply hdigests.imp_of_mem
  intro c c' hc hc' hne hblock
  obtain ⟨_, _, hof⟩ := h.faithful c hc
  obtain ⟨_, _, hof'⟩ := h.faithful c' hc'
  exact hne (hof.md5_eq_of_block hof' hblock)

/-- A chunk made of a novel candidate is what the source has. -/
theorem isOf_chunkOf {source : BlockSource} {seen : List String} {block : Int}
    {decoded : DecodedRecord} {content : ByteArray}
    (hfate : fate source seen block = .novel decoded content) (check : DocumentCheck)
    (savedTo : String) : (chunkOf decoded content check savedTo).IsOf source decoded content := by
  obtain ⟨hdecoded, hcontent, _⟩ := decodeRecord_of_novel hfate
  have hat : decodeRecord source decoded.block none = .ok decoded := by
    rw [block_of_novel hfate, hdecoded]
  exact ⟨hat, hcontent, rfl, rfl, rfl, rfl⟩

theorem inspect_unread (h : r.readsDocuments = false) {content : ByteArray} {check : DocumentCheck}
    (hcheck : r.inspect content = .ok check) : check = .skipped := by
  rw [inspect, h] at hcheck
  exact (Except.ok.inj hcheck).symm

/-- Candidates that are dropped are counted as such. -/
def Fate.isDropped : Fate → Bool
  | .unassembled | .uninflated | .duplicate => true
  | .unreadable _ | .novel _ _ => false

theorem Fate.mem_remember {md5 : String} {seen : List String} (h : md5 ∈ seen) (f : Fate) :
    md5 ∈ f.remember seen := by
  cases f with
  | novel decoded content => exact List.mem_cons_of_mem _ h
  | unreadable | unassembled | uninflated | duplicate => exact h

theorem countP_concat (answers : List Answer) (answer : Answer) :
    (answers ++ [answer]).countP (!·.isOk) = answers.countP (!·.isOk) + (!answer.isOk).toNat := by
  rw [List.countP_append, List.countP_singleton]
  cases answer <;> rfl

/-- A candidate that is dropped, or that ends the pass, is booked when it is registered. -/
theorem Balanced.register {answers : List Answer} (h : r.Balanced answers s) {f : Fate}
    {answer : Answer} (hdropped : answer.isOk = f.isDropped) :
    r.Balanced (answers ++ [answer]) (register f s) := by
  have hcandidates := h.candidates
  have hcount : (f.count s.stats).candidates = s.stats.candidates + 1 := by cases f <;> rfl
  have hsame : (f.count s.stats).recovered = s.stats.recovered ∧
      (f.count s.stats).nbtFailures = s.stats.nbtFailures := by cases f <;> exact ⟨rfl, rfl⟩
  refine ⟨h.sound.of_seen rfl fun _ hseen => f.mem_remember hseen, ?_, ?_, ?_, ?_, ?_⟩
  · rw [List.length_append, List.length_singleton, ← h.tried]
    exact hcount
  · rw [countP_concat, hdropped]
    cases f <;> simp only [Recovery.register, Fate.count, Fate.isDropped, Bool.not_true,
      Bool.not_false, Bool.toNat_true, Bool.toNat_false] <;> omega
  · exact hsame.1.trans h.recovered
  · intro hall
    exact hsame.2.trans (h.refuted fun a ha => hall a (List.mem_append_left _ ha))
  · intro hunread
    obtain ⟨hnone, hskipped⟩ := h.unread hunread
    exact ⟨hsame.2.trans hnone, hskipped⟩

theorem Balanced.tryCandidate {answers : List Answer} (h : r.Balanced answers s) (block : Int) :
    r.Balanced (answers ++ [(r.tryCandidate block s).1]) (r.tryCandidate block s).2 := by
  have htried := r.tried block s
  generalize r.tryCandidate block s = result at htried ⊢
  obtain ⟨answer, s'⟩ := result
  cases htried with
  | unreadable hfate | unassembled hfate | uninflated hfate | duplicate hfate =>
    exact h.register rfl
  | untold hfate hcheck => exact h.register rfl
  | @unsaved decoded content check e hfate hcheck hsave =>
    -- The refuted document is counted and its chunk is lost, so nothing is said of such a history.
    have hbooked : r.Balanced (answers ++ [.error (.file e)])
        (Recovery.register (.novel decoded content) s) := h.register rfl
    refine ⟨hbooked.sound.of_seen rfl fun _ hseen => hseen, hbooked.tried, hbooked.candidates,
      hbooked.recovered, ?_, ?_⟩
    · intro hall
      exact absurd rfl (hall _ (List.mem_append_right _ (List.mem_singleton_self _)) e)
    · intro hunread
      cases inspect_unread hunread hcheck
      exact hbooked.unread hunread
  | @recovered decoded content check savedTo files hfate hcheck hsave =>
    let c := chunkOf decoded content check savedTo
    have hcandidates := h.candidates
    have hchunks : (s.chunks.push c).toList = s.chunks.toList ++ [c] := Array.toList_push
    -- A chunk with this digest would be known, and then the candidate would be its duplicate.
    have hnew : ∀ old ∈ s.chunks.toList, old.md5 ≠ c.md5 := by
      intro old hold heq
      have hseen := h.sound.known old hold
      rw [heq] at hseen
      exact (decodeRecord_of_novel hfate).2.2 hseen
    have hmore : Sound r.source { look check (Recovery.register (.novel decoded content) s) with
        files } := h.sound.of_seen rfl fun _ hseen => List.mem_cons_of_mem _ hseen
    refine ⟨hmore.enter hnew List.mem_cons_self ⟨_, _, isOf_chunkOf hfate check savedTo⟩,
      ?_, ?_, ?_, ?_, ?_⟩
    · rw [List.length_append, List.length_singleton, ← h.tried]
      rfl
    · rw [countP_concat]
      change s.stats.candidates + 1 = s.stats.recovered + 1 + s.stats.duplicates +
        s.stats.assemblyFailures + s.stats.decompressionFailures +
        (answers.countP (!·.isOk) + 0)
      omega
    · change s.stats.recovered + 1 = (s.chunks.push c).toList.length
      rw [hchunks, List.length_append, List.length_singleton, h.recovered]
    · intro hall
      have hbefore := h.refuted fun a ha => hall a (List.mem_append_left _ ha)
      change s.stats.nbtFailures + (check == .refuted).toNat =
        (s.chunks.push c).toList.countP (·.check == .refuted)
      rw [hchunks, List.countP_append, List.countP_singleton, hbefore]
      change _ = _ + if (check == .refuted) = true then 1 else 0
      cases check == .refuted <;> rfl
    · intro hunread
      obtain ⟨hnone, hskipped⟩ := h.unread hunread
      cases inspect_unread hunread hcheck
      refine ⟨hnone, ?_⟩
      change ∀ old ∈ (s.chunks.push c).toList, old.check = .skipped
      rw [hchunks, List.forall_mem_append, List.forall_mem_singleton]
      exact ⟨hskipped, rfl⟩

/-! ## From passes to calls -/

/-- The end of a pass changes nothing but files. -/
theorem Balanced.with_files {answers : List Answer} (h : r.Balanced answers s) {s' : RecoveryState}
    (hs : s' = { s with files := s'.files }) : r.Balanced answers s' := by
  rw [hs]
  exact ⟨h.sound.of_seen rfl fun _ hseen => hseen, h.tried, h.candidates, h.recovered, h.refuted,
    h.unread⟩

theorem conclude_snd (r : Recovery) (s : RecoveryState) :
    (r.conclude s).2 = { s with files := (r.conclude s).2.files } := by
  have hlog : (r.writeLog s).2 = { s with files := (r.writeLog s).2.files } := by
    unfold writeLog
    cases r.outputDirectory with
    | none => rfl
    | some directory =>
      simp only
      split
      · rfl
      · split <;> rfl
  unfold conclude
  split
  · rfl
  · match hwrite : r.writeLog s with
    | (.error e, s') | (.ok path, s') =>
      rw [hwrite] at hlog
      exact hlog

theorem recover_snd (r : Recovery) (sightings : List Sighting) (s : RecoveryState) :
    (r.recover sightings s).2 =
      { (r.tryAll sightings s).2 with files := (r.recover sightings s).2.files } := by
  unfold recover finish
  match r.tryAll sightings s with
  | (.error e, s') => rfl
  | (.ok _, s') => exact r.conclude_snd s'

theorem recoverFromScan_snd (r : Recovery) (scanner : Scanner) (s : RecoveryState) :
    (r.recoverFromScan scanner s).2 =
      { (r.tryAll (scanner.drain scanner.scan {}).sightings.toList s).2 with
        files := (r.recoverFromScan scanner s).2.files } := by
  unfold recoverFromScan
  simp only
  match r.tryAll (scanner.drain scanner.scan {}).sightings.toList s with
  | (.error e, s') => rfl
  | (.ok _, s') =>
    cases (scanner.drain scanner.scan {}).ending with
    | failed e => rfl
    | satisfied | exhausted => exact r.conclude_snd s'

/-- What every candidate keeps, and what is not about files, every call keeps. -/
theorem perform_keeps {P : List Answer → RecoveryState → Prop}
    (hstep : ∀ answers block s, P answers s →
      P (answers ++ [(r.tryCandidate block s).1]) (r.tryCandidate block s).2)
    (hfiles : ∀ answers s s', P answers s → s' = { s with files := s'.files } → P answers s')
    {answers : List Answer} (h : P answers s) (call : RecoveryCall) :
    P (answers ++ (r.perform call s).1) (r.perform call s).2 := by
  cases call with
  | recover sightings =>
    exact hfiles _ _ _ (tryAll_keeps hstep h sightings) (r.recover_snd sightings s)
  | recoverFromScan scanner =>
    exact hfiles _ _ _ (tryAll_keeps hstep h _) (r.recoverFromScan_snd scanner s)
  | tryCandidate block => exact hstep answers block s h

theorem performAll_keeps {P : List Answer → RecoveryState → Prop}
    (hstep : ∀ answers block s, P answers s →
      P (answers ++ [(r.tryCandidate block s).1]) (r.tryCandidate block s).2)
    (hfiles : ∀ answers s s', P answers s → s' = { s with files := s'.files } → P answers s')
    {answers : List Answer} (h : P answers s) (calls : List RecoveryCall) :
    P (answers ++ (r.performAll calls s).1) (r.performAll calls s).2 := by
  induction calls generalizing answers s with
  | nil =>
    rw [Recovery.performAll, List.append_nil]
    exact h
  | cons call calls ih =>
    have hrest := ih (perform_keeps hstep hfiles h call)
    rw [List.append_assoc] at hrest
    exact hrest

theorem Balanced.recover {answers : List Answer} (h : r.Balanced answers s)
    (sightings : List Sighting) :
    r.Balanced (answers ++ r.trials sightings s) (r.recover sightings s).2 :=
  (tryAll_keeps (fun _ block _ h => h.tryCandidate block) h sightings).with_files
    (r.recover_snd sightings s)

theorem Balanced.performAll {answers : List Answer} (h : r.Balanced answers s)
    (calls : List RecoveryCall) :
    r.Balanced (answers ++ (r.performAll calls s).1) (r.performAll calls s).2 :=
  performAll_keeps (fun _ block _ h => h.tryCandidate block) (fun _ _ _ h => h.with_files) h calls

theorem balanced_new (r : Recovery) (files : FileTree) : r.Balanced [] { files } :=
  ⟨⟨List.nodup_nil, nofun, nofun⟩, rfl, rfl, rfl, fun _ => rfl, fun _ => ⟨rfl, nofun⟩⟩

/-- The books of a new recovery, after any calls. -/
theorem bookkeeping (r : Recovery) (files : FileTree) (calls : List RecoveryCall) :
    let answers := (r.performAll calls { files }).1
    let after := (r.performAll calls { files }).2
    let chunks := after.chunks.toList
    after.stats.candidates = answers.length ∧
    after.stats.candidates = after.stats.recovered + after.stats.duplicates +
        after.stats.assemblyFailures + after.stats.decompressionFailures +
        answers.countP (!·.isOk) ∧
    after.stats.recovered = chunks.length ∧
    ((∀ answer ∈ answers, ∀ e, answer ≠ .error (.file e)) →
      after.stats.nbtFailures = chunks.countP (·.check == .refuted)) ∧
    (r.readsDocuments = false →
      after.stats.nbtFailures = 0 ∧ ∀ c ∈ chunks, c.check.isDocument? = none) ∧
    (chunks.map (·.md5)).Nodup ∧
    (chunks.map (·.block)).Nodup ∧
    ∀ c ∈ chunks, ∃ decoded content, c.IsOf r.source decoded content ∧
      c.blocks = consecutive c.block (recordBlocks c.dataLength).toNat := by
  intro answers after chunks
  have h : r.Balanced answers after := (r.balanced_new files).performAll calls
  refine ⟨h.tried, h.candidates, h.recovered, h.refuted, ?_, h.sound.digests, h.sound.blocks, ?_⟩
  · intro hunread
    obtain ⟨hnone, hskipped⟩ := h.unread hunread
    exact ⟨hnone, fun c hc => by rw [hskipped c hc]; rfl⟩
  · intro c hc
    obtain ⟨decoded, content, hof⟩ := h.sound.faithful c hc
    refine ⟨decoded, content, hof, ?_⟩
    rw [hof.blocks_eq, hof.dataLength_eq]
    exact (decodeRecord_blocks hof.decoded_eq hof.content_eq).2

end Recovery

end RegionSalvage
