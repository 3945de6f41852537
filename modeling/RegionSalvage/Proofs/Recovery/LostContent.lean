import RegionSalvage.Proofs.Recovery.Content

/-! # Content that is kept, and content that is lost

The digest of novel content is taken down before its document is looked at and before it is saved.
A call that ends in between leaves the digest behind and no chunk, and from then on every candidate
with that digest is dropped as a duplicate of nothing: its content is lost (`Recovery.lostDigests`).

* `Recovery.Reached` — the states of a recovery, with the candidates that led there.
* `Recovery.tryCandidate_of_error` — all that a candidate leaves behind when it ends its call.
* `Recovery.Reached.seen_perm` — every known digest is that of one chunk or of one lost content.
-/

namespace RegionSalvage

namespace Recovery

variable {source : BlockSource} {seen : List String} {block : Int} {r : Recovery}
  {past : List (Int × Answer)} {s : RecoveryState}

/-! ## States and how they are reached -/

/-- The states that a new recovery comes to, with the candidates that were tried on the way and what
they came to.  In between, files may change in any way. -/
inductive Reached (r : Recovery) : List (Int × Answer) → RecoveryState → Prop
  | new (files : FileTree) : Reached r [] { files }
  | candidate {past : List (Int × Answer)} {s : RecoveryState} (h : Reached r past s)
      (block : Int) :
      Reached r (past ++ [(block, (r.tryCandidate block s).1)]) (r.tryCandidate block s).2
  | refiled {past : List (Int × Answer)} {s : RecoveryState} (h : Reached r past s)
      (files : FileTree) : Reached r past { s with files }

theorem performAll_nil (r : Recovery) (s : RecoveryState) : (r.performAll [] s).2 = s := rfl

theorem performAll_tryCandidate (r : Recovery) (block : Int) (s : RecoveryState) :
    (r.performAll [.tryCandidate block] s).2 = (r.tryCandidate block s).2 := rfl

/-- Whatever is called, the state behind it is reached through the candidates of the calls. -/
theorem reached_performAll (r : Recovery) (files : FileTree) (calls : List RecoveryCall) :
    ∃ past, past.map Prod.snd = (r.performAll calls { files }).1 ∧
      r.Reached past (r.performAll calls { files }).2 := by
  refine performAll_keeps (r := r)
    (P := fun answers s => ∃ past, past.map Prod.snd = answers ∧ r.Reached past s)
    ?_ ?_ ⟨[], rfl, .new files⟩ calls
  · rintro answers block s ⟨past, rfl, h⟩
    exact ⟨_, List.map_append, h.candidate block⟩
  · rintro answers s s' ⟨past, hpast, h⟩ hs
    rw [hs]
    exact ⟨past, hpast, h.refiled s'.files⟩

/-! ## Digests and fates -/

theorem digest?_of_unreadable {e : ReadError} (h : fate source seen block = .unreadable e) :
    digest? source block = none := by
  cases hinflated : inflated? source block with
  | none =>
    rw [digest?_eq, hinflated]
    rfl
  | some content =>
    obtain ⟨decoded, hfate⟩ := fate_of_inflated hinflated seen
    rw [h] at hfate
    split at hfate <;> exact nomatch hfate

theorem digest?_of_novel {decoded : DecodedRecord} {content : ByteArray}
    (h : fate source seen block = .novel decoded content) :
    digest? source block = some (Md5.hexDigest content) :=
  digest?_of_inflated (inflated?_of_novel h)

/-- A candidate is a duplicate just when its digest is known. -/
theorem fate_eq_duplicate_iff :
    fate source seen block = .duplicate ↔ ∃ md5 ∈ seen, digest? source block = some md5 := by
  constructor
  · intro h
    unfold fate at h
    split at h
    · exact nomatch h
    · next decoded hdecoded =>
      split at h
      · exact nomatch h
      · exact nomatch h
      · next content houtcome =>
        split at h
        · next hseen =>
          have hinflated := inflated?_eq_some_iff.2 ⟨decoded, hdecoded, houtcome⟩
          exact ⟨_, List.contains_iff_mem.1 hseen, digest?_of_inflated hinflated⟩
        · exact nomatch h
  · rintro ⟨md5, hseen, hdigest⟩
    rw [digest?_eq] at hdigest
    obtain ⟨content, hinflated, rfl⟩ := Option.map_eq_some_iff.1 hdigest
    obtain ⟨decoded, hfate⟩ := fate_of_inflated hinflated seen
    rw [hfate, if_pos hseen]

/-! ## One candidate -/

/-- How many documents are counted as refuted by a candidate that ends its call: one, if it is the
saving that failed. -/
def refutedUnsaved (r : Recovery) (block : Int) : RecoveryError → Nat
  | .file _ => ((inflated? r.source block).map r.inspect matches some (.ok .refuted)).toNat
  | .unreadable _ | .position _ | .noDirectory => 0

/-- A candidate that ends its call is counted, and its digest stays behind if it has one. -/
theorem tryCandidate_of_error {e : RecoveryError} (h : (r.tryCandidate block s).1 = .error e) :
    (r.tryCandidate block s).2 =
      { s with
        stats :=
          { s.stats with
            candidates := s.stats.candidates + 1
            nbtFailures := s.stats.nbtFailures + r.refutedUnsaved block e }
        seen := (digest? r.source block).toList ++ s.seen } := by
  have htried := r.tried block s
  generalize r.tryCandidate block s = result at h htried ⊢
  obtain ⟨answer, s'⟩ := result
  cases h
  cases htried with
  | unreadable hfate =>
    rw [digest?_of_unreadable hfate]
    rfl
  | untold hfate hcheck =>
    rw [digest?_of_novel hfate]
    rfl
  | @unsaved _ _ check _ hfate hcheck hsave =>
    -- The look at the document has been booked before the saving failed.
    rw [digest?_of_novel hfate, refutedUnsaved, inflated?_of_novel hfate, Option.map_some, hcheck]
    cases check <;> rfl

/-- Only a digest that was not known can end a call. -/
theorem not_mem_seen_of_error {e : RecoveryError} {md5 : String}
    (h : (r.tryCandidate block s).1 = .error e) (hdigest : digest? r.source block = some md5) :
    md5 ∉ s.seen := by
  intro hseen
  have hfate := fate_eq_duplicate_iff.2 ⟨md5, hseen, hdigest⟩
  have htried := r.tried block s
  generalize r.tryCandidate block s = result at h htried
  obtain ⟨answer, s'⟩ := result
  cases h
  cases htried with
  | unreadable hother | untold hother | unsaved hother => exact nomatch hfate.symm.trans hother

theorem duplicates_tryCandidate_iff :
    (r.tryCandidate block s).2.stats.duplicates = s.stats.duplicates + 1 ↔
      ∃ md5 ∈ s.seen, digest? r.source block = some md5 := by
  rw [← fate_eq_duplicate_iff]
  have htried := r.tried block s
  generalize r.tryCandidate block s = result at htried ⊢
  obtain ⟨answer, s'⟩ := result
  cases htried with
  | duplicate hfate => exact iff_of_true rfl hfate
  | unreadable hfate | unassembled hfate | uninflated hfate | untold hfate | unsaved hfate
  | recovered hfate =>
    exact iff_of_false (Nat.ne_of_lt (Nat.lt_succ_self _)) (by rw [hfate]; exact nofun)

/-! ## What is known -/

/-- The digests of the candidates that have ended their calls. -/
def lostDigests (source : BlockSource) (past : List (Int × Answer)) : List String :=
  past.filterMap fun tried => if tried.2.isOk then none else digest? source tried.1

theorem lostDigests_concat (source : BlockSource) (past : List (Int × Answer)) (block : Int)
    (answer : Answer) :
    lostDigests source (past ++ [(block, answer)]) =
      lostDigests source past ++ if answer.isOk then [] else (digest? source block).toList := by
  rw [lostDigests, lostDigests, List.filterMap_append, List.filterMap_cons, List.filterMap_nil]
  cases answer with
  | ok found => rfl
  | error e => cases digest? source block <;> rfl

theorem lostDigests_singleton (source : BlockSource) (block : Int) (e : RecoveryError) :
    lostDigests source [(block, .error e)] = (digest? source block).toList :=
  lostDigests_concat source [] block (.error e)

/-- Every known digest is that of one chunk or of one candidate that has ended its call. -/
theorem Reached.seen_perm (h : r.Reached past s) :
    s.seen.Nodup ∧ s.seen.Perm (s.chunks.toList.map (·.md5) ++ lostDigests r.source past) := by
  induction h with
  | new files => exact ⟨List.nodup_nil, .nil⟩
  | refiled h files ih => exact ih
  | @candidate past s h block ih =>
    obtain ⟨hnodup, hperm⟩ := ih
    rw [lostDigests_concat]
    cases hanswer : (r.tryCandidate block s).1 with
    | error e =>
      -- The digest, if there is one, moves to the known ones and to the lost ones.
      have hnew := fun md5 (hmd5 : digest? r.source block = some md5) =>
        not_mem_seen_of_error hanswer hmd5
      rw [tryCandidate_of_error hanswer]
      cases hdigest : digest? r.source block with
      | none =>
        simp only [Option.toList_none, List.nil_append, ite_self, List.append_nil]
        exact ⟨hnodup, hperm⟩
      | some md5 =>
        refine ⟨List.nodup_cons.2 ⟨hnew md5 hdigest, hnodup⟩, ?_⟩
        have hlost := (hperm.cons md5).trans (List.perm_append_singleton md5 _).symm
        rwa [List.append_assoc] at hlost
    | ok found =>
      have htried := r.tried block s
      generalize r.tryCandidate block s = result at hanswer htried ⊢
      obtain ⟨answer, s'⟩ := result
      cases hanswer
      change s'.seen.Nodup ∧ s'.seen.Perm (_ ++ (_ ++ []))
      rw [List.append_nil]
      -- Of the calls that come to their ends, only one that recovers a chunk meets a new digest.
      cases htried with
      | unassembled | uninflated | duplicate => exact ⟨hnodup, hperm⟩
      | @recovered decoded content check savedTo files hfate =>
        have hnew := (decodeRecord_of_novel hfate).2.2
        refine ⟨List.nodup_cons.2 ⟨hnew, hnodup⟩, ?_⟩
        change (Md5.hexDigest content :: s.seen).Perm
          ((s.chunks.push (chunkOf decoded content check savedTo)).toList.map (·.md5) ++ _)
        rw [Array.toList_push, List.map_append, List.append_assoc]
        exact (hperm.cons _).trans List.perm_middle.symm

/-- A digest is known if there is a chunk with it or if it is lost. -/
theorem Reached.mem_seen_iff (h : r.Reached past s) {md5 : String} :
    md5 ∈ s.seen ↔ (∃ c ∈ s.chunks.toList, c.md5 = md5) ∨ md5 ∈ lostDigests r.source past := by
  rw [h.seen_perm.2.mem_iff, List.mem_append, List.mem_map]

/-- What is lost is in no chunk. -/
theorem Reached.not_mem_lostDigests (h : r.Reached past s) {c : SalvagedChunk}
    (hc : c ∈ s.chunks.toList) : c.md5 ∉ lostDigests r.source past := by
  obtain ⟨hnodup, hperm⟩ := h.seen_perm
  have hdisjoint := (List.nodup_append.1 (hperm.nodup_iff.1 hnodup)).2.2
  intro hlost
  exact hdisjoint c.md5 (List.mem_map_of_mem hc) c.md5 hlost rfl

/-- A candidate that ends its call leaves its digest behind, and nothing else but that it was counted.
A candidate is counted as a duplicate just when its digest is that of a chunk, or that of a
candidate that ended its call, of which there is no chunk. -/
theorem Reached.kept_or_lost (h : r.Reached past s) (block : Int) :
    let after := (r.tryCandidate block s).2
    (∀ e, (r.tryCandidate block s).1 = .error e →
      after =
        { s with
          stats :=
            { s.stats with
              candidates := s.stats.candidates + 1
              nbtFailures := s.stats.nbtFailures + r.refutedUnsaved block e }
          seen := (digest? r.source block).toList ++ s.seen } ∧
      ∀ md5, digest? r.source block = some md5 → md5 ∉ s.seen) ∧
    (after.stats.duplicates = s.stats.duplicates + 1 ↔
      ∃ md5, digest? r.source block = some md5 ∧
        ((∃ c ∈ s.chunks.toList, c.md5 = md5) ∨ md5 ∈ lostDigests r.source past)) ∧
    ∀ c ∈ s.chunks.toList, c.md5 ∉ lostDigests r.source past := by
  intro after
  refine ⟨?_, ?_, fun c => h.not_mem_lostDigests⟩
  · intro e he
    exact ⟨tryCandidate_of_error he, fun md5 => not_mem_seen_of_error he⟩
  · -- A duplicate has a known digest, and each of these is that of a chunk or lost.
    rw [duplicates_tryCandidate_iff]
    simp only [h.mem_seen_iff, and_comm]

/-! ### Content that is there twice and lost -/

theorem digest?_twinSource (h : block = 0 ∨ block = 1) :
    digest? twinSource block = some (Md5.hexDigest levelContent) :=
  digest?_of_inflated (inflated?_twinSource h)

/-- The first of the two candidates ends its call: the coordinates in its document cannot be told. -/
theorem tryCandidate_twinSource (files : FileTree) :
    (tryCandidate { source := twinSource } 0 { files }).1 = .error (.position .noMembers) := by
  have hfate : fate twinSource [] 0 = .novel ⟨0, 27, [0], .ok levelContent⟩ levelContent :=
    fate_of_new (decodeRecord_twinSource (.inl rfl)) rfl List.not_mem_nil
  obtain ⟨document, hparse, hposition⟩ := read?_levelContent
  have hcheck : inspect { source := twinSource } levelContent = .error .noMembers := by
    simp only [inspect, Bool.not_true, Bool.false_eq_true, if_false, hparse, hposition]
  have htried := tried { source := twinSource } 0 { files }
  generalize tryCandidate { source := twinSource } 0 { files } = result at htried ⊢
  obtain ⟨answer, s'⟩ := result
  cases htried with
  | unreadable hother | unassembled hother | uninflated hother | duplicate hother =>
    cases hfate.symm.trans hother
  | untold hother hfailed =>
    cases hfate.symm.trans hother
    rw [Except.error.inj (hcheck.symm.trans hfailed)]
  | unsaved hother hok | recovered hother hok =>
    cases hfate.symm.trans hother
    cases hcheck.symm.trans hok

theorem kept_or_lost_twins :
    let r : Recovery := { source := twinSource }
    let s := (r.tryCandidate 0 {}).2
    r.Reached [(0, .error (.position .noMembers))] s ∧ s.stats.candidates = 1 ∧
      s.seen = [Md5.hexDigest levelContent] ∧ s.chunks = #[] ∧
      lostDigests twinSource [(0, .error (.position .noMembers))] = [Md5.hexDigest levelContent] ∧
      (r.tryCandidate 1 s).2.stats.duplicates = s.stats.duplicates + 1 := by
  intro r s
  have hsource : r.source = twinSource := rfl
  have hends : (r.tryCandidate 0 {}).1 = .error (.position .noMembers) :=
    tryCandidate_twinSource {}
  -- What the recovery does has been said; its source is all that matters from here on.
  clear_value r
  have hlost : lostDigests twinSource [(0, .error (.position .noMembers))] =
      [Md5.hexDigest levelContent] := by
    rw [lostDigests_singleton, digest?_twinSource (.inl rfl), Option.toList_some]
  have hreached : r.Reached [(0, .error (.position .noMembers))] s := by
    have h := (Reached.new (r := r) {}).candidate 0
    rwa [hends] at h
  obtain ⟨hfirst, -, -⟩ := (Reached.new (r := r) {}).kept_or_lost 0
  obtain ⟨-, hduplicate, -⟩ := hreached.kept_or_lost 1
  have hs := (hfirst _ hends).1
  rw [hsource] at hs hduplicate
  rw [digest?_twinSource (.inl rfl)] at hs
  refine ⟨hreached, congrArg (·.stats.candidates) hs, congrArg (·.seen) hs,
    congrArg (·.chunks) hs, hlost, ?_⟩
  refine hduplicate.2 ⟨_, digest?_twinSource (.inr rfl), .inr ?_⟩
  rw [hlost]
  exact List.mem_singleton_self _

/-- A call that ends early leaves a known digest behind; and the other candidate with the same
content is counted as a duplicate where there is no chunk at all. -/
theorem loses_twins :
    (¬ ∀ (r : Recovery) (calls : List RecoveryCall) (block : Int) (e : RecoveryError),
      let s := (r.performAll calls {}).2
      (r.tryCandidate block s).1 = .error e →
        ∀ md5, md5 ∈ (r.tryCandidate block s).2.seen ↔ md5 ∈ s.seen) ∧
    ¬ ∀ (r : Recovery) (calls : List RecoveryCall) (block : Int),
      let s := (r.performAll calls {}).2
      (r.tryCandidate block s).2.stats.duplicates = s.stats.duplicates + 1 →
        ∃ c ∈ s.chunks.toList, digest? r.source block = some c.md5 := by
  obtain ⟨r, hsource, hends⟩ : ∃ r : Recovery, r.source = twinSource ∧
      (r.tryCandidate 0 {}).1 = .error (.position .noMembers) :=
    ⟨{ source := twinSource }, rfl, tryCandidate_twinSource {}⟩
  have hs := tryCandidate_of_error hends
  rw [hsource, digest?_twinSource (.inl rfl)] at hs
  refine ⟨fun hkept => ?_, fun hkept => ?_⟩
  · -- The digest was not known before the call, and it is known behind it.
    have hsame := hkept r [] 0
    simp only [performAll_nil] at hsame
    have hknown := hsame _ hends (Md5.hexDigest levelContent)
    rw [hs] at hknown
    exact List.not_mem_nil (hknown.1 List.mem_cons_self)
  · -- Behind that call the twin is a duplicate, and there is no chunk.
    have hchunk := hkept r [.tryCandidate 0] 1
    simp only [performAll_tryCandidate] at hchunk
    rw [duplicates_tryCandidate_iff, hs, hsource] at hchunk
    obtain ⟨c, hc, -⟩ := hchunk ⟨_, List.mem_cons_self, digest?_twinSource (.inr rfl)⟩
    exact nomatch hc

end Recovery

end RegionSalvage
