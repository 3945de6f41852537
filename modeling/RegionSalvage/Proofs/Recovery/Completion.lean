import RegionSalvage.Proofs.Nbt.Coordinates
import RegionSalvage.Proofs.Record.RoundTrip
import RegionSalvage.Proofs.Recovery.Bookkeeping

/-! # Which candidates end a recovery

A pass comes to its end unless the document of a novel candidate has coordinates that cannot be
told (`Nbt.Document.AllAnswer`).  No other content can stop it, and then every candidate fares as its
content and the digests of the content in front of it say (`Recovery.fates`), and the books are
those of the fates (`Recovery.Processed`).

* `Recovery.fates_without` — a candidate makes no difference to those that are not its duplicates.
* `Recovery.completes_tryAll` — the induction over a pass.
* `Recovery.recover_completes_iff` — when a recovery comes to its end, and what it has done then.
* `Recovery.recover_stops_early` — a document without coordinates that does stop it.
-/

namespace RegionSalvage

/-- The blocks of the chunk headers among the sightings. -/
def headersOf (sightings : List Sighting) : List Int :=
  (sightings.filter (·.part == .chunkHeader)).map (·.block)

theorem headersOf_cons_header {sighting : Sighting} (h : sighting.part = .chunkHeader)
    (sightings : List Sighting) :
    headersOf (sighting :: sightings) = sighting.block :: headersOf sightings := by
  rw [headersOf, List.filter_cons_of_pos (by rw [h]; rfl)]
  rfl

theorem headersOf_cons_other {sighting : Sighting} (h : sighting.part ≠ .chunkHeader)
    (sightings : List Sighting) : headersOf (sighting :: sightings) = headersOf sightings := by
  rw [headersOf, List.filter_cons_of_neg (by simpa using h)]
  rfl

namespace Recovery

variable {source : BlockSource} {seen seen' : List String} {block : Int}

/-! ## The fates of a series of candidates -/

/-- What the candidates at these blocks are, one behind the other. -/
def fates (source : BlockSource) : (blocks : List Int) → (seen : List String) → List Fate
  | [], _ => []
  | block :: blocks, seen =>
    let f := fate source seen block
    f :: fates source blocks (f.remember seen)

/-- The digest of what a candidate inflates to, if it does. -/
def digest? (source : BlockSource) (block : Int) : Option String :=
  match decodeRecord source block none with
  | .error _ => none
  | .ok decoded => decoded.outcome.toOption.map Md5.hexDigest

/-- Whatever a candidate is, its digest is known behind it. -/
theorem mem_remember_iff {md5 : String} :
    md5 ∈ (fate source seen block).remember seen ↔
      md5 ∈ seen ∨ digest? source block = some md5 := by
  unfold fate digest?
  cases decodeRecord source block none with
  | error e => simp [Fate.remember]
  | ok decoded =>
    cases hcontent : decoded.outcome with
    | error failure => cases failure <;> simp [hcontent, Fate.remember, Except.toOption]
    | ok content =>
      -- A digest is remembered once: what is known already is not added again.
      by_cases hseen : Md5.hexDigest content ∈ seen
      · simp only [hcontent, List.contains_iff_mem, hseen, if_true, Fate.remember, Except.toOption,
          Option.map_some, Option.some.injEq]
        constructor
        · exact .inl
        · rintro (hold | rfl)
          · exact hold
          · exact hseen
      · simp only [hcontent, List.contains_iff_mem, hseen, if_false, Fate.remember, Except.toOption,
          Option.map_some, Option.some.injEq, List.mem_cons]
        exact or_comm.trans (or_congr_right eq_comm)

theorem fate_congr (h : ∀ md5, digest? source block = some md5 → (md5 ∈ seen ↔ md5 ∈ seen')) :
    fate source seen block = fate source seen' block := by
  unfold digest? at h
  unfold fate
  cases hdecoded : decodeRecord source block none with
  | error e => rfl
  | ok decoded =>
    cases hcontent : decoded.outcome with
    | error failure =>
      simp only [hcontent]
      cases failure <;> rfl
    | ok content =>
      rw [hdecoded] at h
      have hsame := h (Md5.hexDigest content) (by simp only [hcontent]; rfl)
      simp only [hcontent, List.contains_iff_mem, hsame]

/-- Candidates fare alike behind digests among which they find the same of theirs. -/
theorem fates_congr {blocks : List Int}
    (h : ∀ block ∈ blocks, ∀ md5, digest? source block = some md5 → (md5 ∈ seen ↔ md5 ∈ seen')) :
    fates source blocks seen = fates source blocks seen' := by
  induction blocks generalizing seen seen' with
  | nil => rfl
  | cons block blocks ih =>
    have hfirst := fate_congr (h block List.mem_cons_self)
    have hlater : ∀ other ∈ blocks, ∀ md5, digest? source other = some md5 →
        (md5 ∈ (fate source seen block).remember seen ↔
          md5 ∈ (fate source seen' block).remember seen') := by
      intro other hother md5 hmd5
      rw [mem_remember_iff, mem_remember_iff, h other (List.mem_cons_of_mem _ hother) md5 hmd5]
    rw [fates, fates, ih hlater, hfirst]

/-- All candidates but its duplicates fare as if a candidate had not been there. -/
theorem fates_without {before after : List Int} (seen : List String)
    (h : ∀ md5, digest? source block = some md5 →
      ∀ other ∈ after, digest? source other ≠ some md5) :
    ∃ earlier f later, fates source (before ++ block :: after) seen = earlier ++ f :: later ∧
      fates source (before ++ after) seen = earlier ++ later := by
  induction before generalizing seen with
  | nil =>
    -- Behind the candidate one more digest may be known, but nobody asks for it.
    refine ⟨[], fate source seen block, fates source after seen, ?_, rfl⟩
    have hafter : fates source after ((fate source seen block).remember seen) =
        fates source after seen := by
      apply fates_congr
      intro other hother md5 hmd5
      rw [mem_remember_iff, or_iff_left]
      exact fun hblock => h md5 hblock other hother hmd5
    rw [List.nil_append, fates, hafter]
    rfl
  | cons first before ih =>
    obtain ⟨earlier, f, later, hwith, hwithout⟩ := ih ((fate source seen first).remember seen)
    refine ⟨fate source seen first :: earlier, f, later, ?_, ?_⟩
    · rw [List.cons_append, fates, hwith]
      rfl
    · rw [List.cons_append, fates, hwithout]
      rfl

theorem exists_of_mem_fates {f : Fate} {blocks : List Int} (h : f ∈ fates source blocks seen) :
    ∃ block ∈ blocks, ∃ seen', fate source seen' block = f := by
  induction blocks generalizing seen with
  | nil => exact nomatch h
  | cons block blocks ih =>
    rw [fates] at h
    rcases List.mem_cons.1 h with hfirst | hrest
    · exact ⟨block, List.mem_cons_self, seen, hfirst.symm⟩
    · obtain ⟨other, hother, hfate⟩ := ih hrest
      exact ⟨other, List.mem_cons_of_mem _ hother, hfate⟩

/-- A candidate whose block can be read is not unreadable. -/
theorem fate_ne_unreadable {bytes : ByteArray} (hread : source.readBlock block = .ok bytes)
    (seen : List String) (e : ReadError) : fate source seen block ≠ .unreadable e := by
  obtain ⟨chain, hchain, _⟩ := SectorChain.appendRun_of_read .empty hread
  have hrun : SectorChain.ofRun source block 1 = .ok chain := hchain
  unfold fate decodeRecord
  rw [hrun]
  simp only
  split
  · next hfailed => split at hfailed <;> exact nomatch hfailed
  · split
    · exact nofun
    · exact nofun
    · split <;> exact nofun

theorem unreadable_not_mem_fates {blocks : List Int}
    (hread : ∀ block ∈ blocks, ∃ bytes, source.readBlock block = .ok bytes) (seen : List String)
    (e : ReadError) : .unreadable e ∉ fates source blocks seen := by
  intro hmem
  obtain ⟨block, hblock, seen', hfate⟩ := exists_of_mem_fates hmem
  obtain ⟨bytes, hbytes⟩ := hread block hblock
  exact fate_ne_unreadable hbytes seen' e hfate

/-! ## The books of a pass -/

variable {r : Recovery} {s s' : RecoveryState}

/-- Where the chunk with its header at `block` is saved. -/
def placeOf (r : Recovery) (block : Int) : String :=
  match r.saveDirectory? with
  | none => ""
  | some directory => FileTree.joinPath directory (chunkName block)

/-- The chunk that a candidate is recovered as. -/
def Fate.chunk? (r : Recovery) : Fate → Option SalvagedChunk
  | .novel decoded content =>
    (r.inspect content).toOption.map fun check =>
      chunkOf decoded content check (r.placeOf decoded.block)
  | _ => none

/-- Every candidate with one of these fates has been disposed of between the two states: it is
recovered, a duplicate, an assembly failure or a decompression failure. -/
structure Processed (r : Recovery) (fates : List Fate) (s s' : RecoveryState) : Prop where
  candidates : s'.stats.candidates = s.stats.candidates + fates.length
  recovered : s'.stats.recovered = s.stats.recovered + fates.countP (· matches .novel _ _)
  duplicates : s'.stats.duplicates = s.stats.duplicates + fates.countP (· matches .duplicate)
  assemblyFailures : s'.stats.assemblyFailures =
    s.stats.assemblyFailures + fates.countP (· matches .unassembled)
  decompressionFailures : s'.stats.decompressionFailures =
    s.stats.decompressionFailures + fates.countP (· matches .uninflated)
  chunks : s'.chunks.toList = s.chunks.toList ++ fates.filterMap (Fate.chunk? r)

theorem Processed.nil (r : Recovery) (s : RecoveryState) : Processed r [] s s :=
  ⟨rfl, rfl, rfl, rfl, rfl, (List.append_nil _).symm⟩

theorem Processed.append {fates more : List Fate} {s'' : RecoveryState}
    (hfirst : Processed r fates s s') (hrest : Processed r more s' s'') :
    Processed r (fates ++ more) s s'' := by
  refine ⟨?_, ?_, ?_, ?_, ?_, ?_⟩
  · rw [hrest.candidates, hfirst.candidates, List.length_append, Nat.add_assoc]
  · rw [hrest.recovered, hfirst.recovered, List.countP_append, Nat.add_assoc]
  · rw [hrest.duplicates, hfirst.duplicates, List.countP_append, Nat.add_assoc]
  · rw [hrest.assemblyFailures, hfirst.assemblyFailures, List.countP_append, Nat.add_assoc]
  · rw [hrest.decompressionFailures, hfirst.decompressionFailures, List.countP_append,
      Nat.add_assoc]
  · rw [hrest.chunks, hfirst.chunks, List.filterMap_append, List.append_assoc]

theorem Processed.cons {f : Fate} {fates : List Fate} {s'' : RecoveryState}
    (hfirst : Processed r [f] s s') (hrest : Processed r fates s' s'') :
    Processed r (f :: fates) s s'' :=
  hfirst.append hrest

/-- A candidate that is dropped is processed when it is registered. -/
theorem processed_register {f : Fate} (hdropped : f.isDropped = true) (s : RecoveryState) :
    Processed r [f] s (register f s) := by
  cases f with
  | unreadable | novel => exact nomatch hdropped
  | unassembled | uninflated | duplicate =>
    exact ⟨rfl, rfl, rfl, rfl, rfl, (List.append_nil _).symm⟩

theorem eq_placeOf_of_save {content : ByteArray} {files files' : FileTree} {savedTo : String}
    (h : r.save block content files = .ok (savedTo, files')) : savedTo = r.placeOf block := by
  unfold save at h
  unfold placeOf
  cases hdirectory : r.saveDirectory? with
  | none =>
    rw [hdirectory] at h
    exact (Prod.mk.inj (Except.ok.inj h)).1.symm
  | some directory =>
    rw [hdirectory] at h
    simp only at h
    split at h
    · exact nomatch h
    · exact (Prod.mk.inj (Except.ok.inj h)).1.symm

/-- A novel candidate whose coordinates can be told is processed when its chunk is entered. -/
theorem processed_enter {decoded : DecodedRecord} {content : ByteArray} {check : DocumentCheck}
    {savedTo : String} {files : FileTree} (hcheck : r.inspect content = .ok check)
    (hsave : r.save decoded.block content s.files = .ok (savedTo, files)) :
    Processed r [.novel decoded content] s
      (enter (chunkOf decoded content check savedTo)
        { look check (register (.novel decoded content) s) with files }) := by
  refine ⟨rfl, rfl, rfl, rfl, rfl, ?_⟩
  have hchunk : Fate.chunk? r (.novel decoded content) =
      some (chunkOf decoded content check savedTo) := by
    rw [Fate.chunk?, hcheck, eq_placeOf_of_save hsave]
    rfl
  rw [List.filterMap_cons_some hchunk]
  exact Array.toList_push

/-- The coordinates in every document among novel candidates can be told. -/
def Told (r : Recovery) (fates : List Fate) : Prop :=
  ∀ decoded content, .novel decoded content ∈ fates → ∃ check, r.inspect content = .ok check

theorem told_cons_iff {f : Fate} {fates : List Fate} :
    r.Told (f :: fates) ↔ r.Told [f] ∧ r.Told fates := by
  unfold Told
  simp only [List.mem_cons, List.not_mem_nil, or_false]
  constructor
  · exact fun h => ⟨fun d c hc => h d c (.inl hc), fun d c hc => h d c (.inr hc)⟩
  · exact fun h d c hc => hc.elim (h.1 d c) (h.2 d c)

theorem told_of_inspect {decoded : DecodedRecord} {content : ByteArray} {check : DocumentCheck}
    (hcheck : r.inspect content = .ok check) : r.Told [.novel decoded content] := by
  intro decoded' content' hmem
  rw [List.mem_singleton] at hmem
  cases hmem
  exact ⟨check, hcheck⟩

theorem told_of_dropped {f : Fate} (hdropped : f.isDropped = true) : r.Told [f] := by
  intro decoded content hmem
  rw [List.mem_singleton] at hmem
  cases hmem
  exact nomatch hdropped

/-- A pass comes to its end just when the coordinates can be told, and then its books are those of
the fates. -/
def Completes (r : Recovery) (fates : List Fate) (s : RecoveryState)
    (pass : Except RecoveryError Unit × RecoveryState) : Prop :=
  (pass.1 = .ok () ↔ r.Told fates) ∧ (r.Told fates → Processed r fates s pass.2)

/-- The candidate in front lets the pass go on. -/
theorem Completes.cons {f : Fate} {fates : List Fate}
    {pass : Except RecoveryError Unit × RecoveryState} (htold : r.Told [f])
    (hfirst : Processed r [f] s s') (hrest : r.Completes fates s' pass) :
    r.Completes (f :: fates) s pass := by
  refine ⟨?_, ?_⟩
  · rw [hrest.1, told_cons_iff, and_iff_right htold]
  · intro hall
    exact hfirst.cons (hrest.2 (told_cons_iff.1 hall).2)

/-- The candidate in front ends the pass. -/
theorem Completes.of_untold {decoded : DecodedRecord} {content : ByteArray} {e : Nbt.PositionError}
    {fates : List Fate} {error : RecoveryError} (hcheck : r.inspect content = .error e) :
    r.Completes (.novel decoded content :: fates) s (.error error, s') := by
  have huntold : ¬ r.Told (.novel decoded content :: fates) := by
    intro htold
    obtain ⟨check, hok⟩ := htold decoded content List.mem_cons_self
    exact nomatch hcheck.symm.trans hok
  exact ⟨⟨nofun, fun htold => absurd htold huntold⟩, fun htold => absurd htold huntold⟩

theorem completes_tryAll {sightings : List Sighting}
    (hread : ∀ e, .unreadable e ∉ fates r.source (headersOf sightings) s.seen)
    (hsaved : ∀ e, (r.tryAll sightings s).1 ≠ .error (.file e)) :
    r.Completes (fates r.source (headersOf sightings) s.seen) s (r.tryAll sightings s) := by
  induction sightings generalizing s with
  | nil => exact ⟨iff_of_true rfl fun _ _ h => absurd h List.not_mem_nil, fun _ => .nil r s⟩
  | cons sighting sightings ih =>
    unfold tryAll at ih hsaved ⊢
    unfold tryEach at hsaved ⊢
    cases hpart : sighting.part with
    | timestamps | offsets =>
      rw [headersOf_cons_other (by rw [hpart]; decide)] at hread ⊢
      rw [hpart] at hsaved
      exact ih hread hsaved
    | chunkHeader =>
      rw [headersOf_cons_header hpart, fates] at hread ⊢
      rw [hpart] at hsaved
      simp only at hread hsaved ⊢
      -- The state behind the candidate knows the digests that the other fates are about, so the
      -- induction hypothesis speaks of the rest of the pass.
      have hlater (e : ReadError) := fun hmem => hread e (List.mem_cons_of_mem _ hmem)
      have htried := r.tried sighting.block s
      generalize r.tryCandidate sighting.block s = result at htried hsaved ⊢
      obtain ⟨answer, s'⟩ := result
      cases htried with
      | unreadable hfate => exact absurd (List.mem_cons.2 (.inl hfate.symm)) (hread _)
      | unassembled hfate | uninflated hfate | duplicate hfate =>
        rw [hfate] at hlater ⊢
        exact .cons (told_of_dropped rfl) (processed_register rfl s) (ih hlater hsaved)
      | untold hfate hcheck =>
        rw [hfate]
        exact .of_untold hcheck
      | unsaved hfate hcheck hsave => exact absurd rfl (hsaved _)
      | recovered hfate hcheck hsave =>
        rw [hfate] at hlater ⊢
        exact .cons (told_of_inspect hcheck) (processed_enter hcheck hsave) (ih hlater hsaved)

/-! ## The end of a recovery -/

/-- Where there is a directory, nothing but a file can fail when the log is written. -/
theorem writeLog_fst {directory : String} (h : r.outputDirectory = some directory)
    (s : RecoveryState) :
    (∃ path, (r.writeLog s).1 = .ok path) ∨ ∃ e, (r.writeLog s).1 = .error (.file e) := by
  unfold writeLog
  rw [h]
  simp only
  split
  · exact .inr ⟨_, rfl⟩
  · split
    · exact .inr ⟨_, rfl⟩
    · exact .inl ⟨_, rfl⟩

theorem conclude_fst (r : Recovery) (s : RecoveryState) :
    (r.conclude s).1 = .ok () ∨ ∃ e, (r.conclude s).1 = .error (.file e) := by
  unfold conclude
  cases hdirectory : r.saveDirectory? with
  | none => exact .inl rfl
  | some directory =>
    have hlog := writeLog_fst (Option.filter_eq_some_iff.1 hdirectory).1 s
    simp only [Option.isNone_some, Bool.false_eq_true, if_false]
    match hwrite : r.writeLog s with
    | (.ok path, s') => exact .inl rfl
    | (.error e, s') =>
      rw [hwrite] at hlog
      rcases hlog with ⟨path, hpath⟩ | ⟨e', he⟩
      · exact nomatch hpath
      · cases he
        exact .inr ⟨e', rfl⟩

/-- If no file fails, a recovery ends as its pass does. -/
theorem recover_fst {sightings : List Sighting}
    (hsaved : ∀ e, (r.recover sightings s).1 ≠ .error (.file e)) :
    (r.recover sightings s).1 = (r.tryAll sightings s).1 := by
  unfold recover finish at hsaved ⊢
  match hpass : r.tryAll sightings s with
  | (.error e, s') => rfl
  | (.ok (), s') =>
    rw [hpass] at hsaved
    rcases r.conclude_fst s' with hok | ⟨e, hfile⟩
    · exact hok
    · exact absurd hfile (hsaved e)

/-- A look at content fails only at a document in which a place does not answer. -/
theorem inspect_ok_iff {content : ByteArray} :
    (∃ check, r.inspect content = .ok check) ↔
      (r.readsDocuments = true → ∀ document, r.documents.read? content = some document →
        Nbt.Document.AllAnswer document.places) := by
  simp only [← Nbt.Document.position_ok_iff]
  unfold inspect
  cases hreads : r.readsDocuments with
  | false => simp
  | true =>
    cases hparse : r.documents.read? content with
    | none => simp
    | some document =>
      cases hposition : document.position with
      | error e => simp [hposition]
      | ok position => simp [hposition]

theorem Processed.with_files {fates : List Fate} (h : Processed r fates s s') {s'' : RecoveryState}
    (hs : s'' = { s' with files := s''.files }) : Processed r fates s s'' := by
  rw [hs]
  exact ⟨h.candidates, h.recovered, h.duplicates, h.assemblyFailures, h.decompressionFailures,
    h.chunks⟩

theorem completes_recover (r : Recovery) (sightings : List Sighting) (s : RecoveryState)
    (hread : ∀ block ∈ headersOf sightings, ∃ bytes, r.source.readBlock block = .ok bytes)
    (hsaved : ∀ e, (r.recover sightings s).1 ≠ .error (.file e)) :
    r.Completes (fates r.source (headersOf sightings) s.seen) s (r.recover sightings s) := by
  have hend := recover_fst hsaved
  have hpass : r.Completes (fates r.source (headersOf sightings) s.seen) s
      (r.tryAll sightings s) :=
    completes_tryAll (unreadable_not_mem_fates hread s.seen) fun e => by
      rw [← hend]
      exact hsaved e
  refine ⟨?_, fun htold => (hpass.2 htold).with_files (r.recover_snd sightings s)⟩
  rw [hend]
  exact hpass.1

/-- Over readable blocks, and if no file fails, a recovery comes to its end just when, in the
documents of all novel candidates, every place that is asked for coordinates answers: it has members
and no coordinates that are not integers.  Then every candidate is
recovered, a duplicate, an assembly failure or a decompression failure, as the source and the
content in front of it say; and all candidates but its duplicates fare as if any other one had not
been there. -/
theorem recover_completes_iff (r : Recovery) (sightings : List Sighting) (s : RecoveryState)
    (hread : ∀ block ∈ headersOf sightings, ∃ bytes, r.source.readBlock block = .ok bytes)
    (hsaved : ∀ e, (r.recover sightings s).1 ≠ .error (.file e)) :
    let fates := fates r.source (headersOf sightings) s.seen
    ((r.recover sightings s).1 = .ok () ↔
      ∀ decoded content, .novel decoded content ∈ fates → r.readsDocuments = true →
        ∀ document, r.documents.read? content = some document →
          Nbt.Document.AllAnswer document.places) ∧
    ((r.recover sightings s).1 = .ok () →
      (∀ e, .unreadable e ∉ fates) ∧ Processed r fates s (r.recover sightings s).2 ∧
      ∀ before block after, headersOf sightings = before ++ block :: after →
        (∀ md5, digest? r.source block = some md5 →
          ∀ other ∈ after, digest? r.source other ≠ some md5) →
        ∃ earlier f later, fates = earlier ++ f :: later ∧
          Recovery.fates r.source (before ++ after) s.seen = earlier ++ later) := by
  intro fates
  have hcompletes : r.Completes fates s (r.recover sightings s) :=
    completes_recover r sightings s hread hsaved
  have htold : r.Told fates ↔ ∀ decoded content, .novel decoded content ∈ fates →
      r.readsDocuments = true → ∀ document, r.documents.read? content = some document →
        Nbt.Document.AllAnswer document.places := by
    simp only [Told, inspect_ok_iff]
  refine ⟨hcompletes.1.trans htold, ?_⟩
  intro hok
  refine ⟨unreadable_not_mem_fates hread s.seen, hcompletes.2 (hcompletes.1.1 hok), ?_⟩
  intro before block after hsplit hother
  -- Without one candidate, the others fare as before: none of them has its digest.
  obtain ⟨earlier, f, later, hwith, hwithout⟩ := fates_without s.seen hother
  rw [← hsplit] at hwith
  exact ⟨earlier, f, later, hwith, hwithout⟩

/-! ## A document that ends a recovery -/

theorem trials_ne_file (h : r.saveDirectory? = none) (sightings : List Sighting)
    (s : RecoveryState) : ∀ answer ∈ r.trials sightings s, ∀ e, answer ≠ .error (.file e) := by
  have htrials : ∀ answer ∈ [] ++ r.trials sightings s, ∀ e, answer ≠ .error (.file e) := by
    apply tryAll_keeps (P := fun answers _ => ∀ answer ∈ answers, ∀ e, answer ≠ .error (.file e))
    · intro answers block s hearlier answer hanswer
      rcases List.mem_append.1 hanswer with hold | hnew
      · exact hearlier answer hold
      · rw [List.mem_singleton.1 hnew]
        have htried := r.tried block s
        generalize r.tryCandidate block s = result at htried ⊢
        obtain ⟨answer, s'⟩ := result
        cases htried with
        | unsaved hfate hcheck hsave =>
          rw [save, h] at hsave
          exact nomatch hsave
        | unreadable | unassembled | uninflated | duplicate | untold | recovered => exact nofun
    · exact nofun
  exact htrials

/-- Without a directory to save to, no file fails. -/
theorem recover_ne_file (h : r.saveDirectory? = none) (sightings : List Sighting)
    (s : RecoveryState) (e : PathError) : (r.recover sightings s).1 ≠ .error (.file e) := by
  unfold recover finish
  match hpass : r.tryAll sightings s with
  | (.error e', s') =>
    rintro ⟨⟩
    have hfile := (r.tryAll_eq_error_iff sightings s (.file e)).1 (by rw [hpass])
    exact trials_ne_file h sightings s _ hfile e rfl
  | (.ok (), s') =>
    simp only [conclude, h]
    exact nofun

/-- A document whose `Level` is a number, as a zlib stream with one stored block. -/
def levelStream : ByteArray :=
  ⟨#[0x78, 0x9C, 0x01, 0x10, 0x00, 0xEF, 0xFF, 0x0A, 0x00, 0x00, 0x03, 0x00, 0x05, 0x4C, 0x65, 0x76,
    0x65, 0x6C, 0x00, 0x00, 0x00, 0x05, 0x00, 0x10, 0x98, 0x02, 0x10]⟩

def levelContent : ByteArray :=
  ⟨#[0x0A, 0x00, 0x00, 0x03, 0x00, 0x05, 0x4C, 0x65, 0x76, 0x65, 0x6C, 0x00, 0x00, 0x00, 0x05,
    0x00]⟩

theorem inflate_levelStream : Zlib.inflate levelStream Zlib.defaultWindow = .ok levelContent :=
  eq_ok_of_toOption (by decide +kernel)

/-- The error of a computation that fails. -/
def error? {ε α : Type} : Except ε α → Option ε
  | .error e => some e
  | .ok _ => none

theorem eq_error_of_error? {ε α : Type} {x : Except ε α} {e : ε} (h : error? x = some e) :
    x = .error e := by
  cases x with
  | error e' => exact congrArg Except.error (Option.some.inj h)
  | ok a => cases h

/-- There is a document in `levelStream`, but its coordinates cannot be told. -/
theorem read?_levelContent : ∃ document, Nbt.Reader.read? levelContent = some document ∧
    document.position = .error .noMembers := by
  have herror : ((Nbt.Document.parse levelContent).toOption.bind fun document =>
      error? document.position) = some .noMembers := by
    decide +kernel
  obtain ⟨document, hparse, hposition⟩ := Option.bind_eq_some_iff.1 herror
  exact ⟨document, hparse, eq_error_of_error? hposition⟩

def levelRecord : ByteArray := recordBytes levelStream (zeros 4064)

theorem size_levelRecord : levelRecord.size = 4096 := by
  rw [levelRecord, recordBytes, ByteArray.size_append, ByteArray.size_append, size_zeros]
  rfl

theorem liesAt_levelRecord : LiesAt levelRecord levelRecord 0 0 where
  nonneg := Int.le_refl 0
  inside := by rw [size_levelRecord]; decide
  octet_eq _ _ := rfl

/-- Wherever that record lies in an image, it decodes. -/
theorem decodeRecord_of_liesAt {image : ByteArray} {block : Int}
    (hlies : LiesAt image levelRecord 0 block) :
    decodeRecord (.inMemory image [] 0 {}) block none =
      .ok { block, dataLength := 27, blocks := [block], outcome := .ok levelContent } := by
  have hmark : octet levelStream 0 = 0x78 ∧ octet levelStream 1 = 0x9C := by decide +kernel
  have hsize : levelStream.size = 27 := rfl
  have hlength : levelStream.size ≤ maxRecordLength := by
    rw [hsize]
    decide
  have hcount : 1 = (5 + levelStream.size + 4095) / 4096 := by rw [hsize]
  have hextra (blocks : List Int) (h : none = some blocks) : 1 - 1 ≤ blocks.length := nomatch h
  -- The record is one sector, which lies in the block itself.
  have hplaces (j : Nat) (e : Int) (h : (recordPlaces block 1 none)[j]? = some e) :
      LiesAt image levelRecord j e := by
    rw [recordPlaces_one] at h
    match j, h with
    | 0, rfl => exact hlies
  obtain ⟨chain, hchain, hbytes, hblocks⟩ := SectorChain.ofRun_of_liesAt [] 0 hlies
    (Nat.le_of_eq size_levelRecord.symm)
  obtain ⟨grown, hassemble, hgrown⟩ := SectorChain.assemble_of_liesAt [] 0 hmark hlength hbytes
    hblocks hcount size_levelRecord hextra hplaces
  have hword : be32 chain.bytes 0 = 27 := by
    rw [hbytes, levelRecord, be32_recordBytes hlength (by decide), hsize]
  rw [decodeRecord, hchain]
  simp only [hassemble, inflate_levelStream, hword, hgrown, recordPlaces_one]

/-- An image with that record and nothing else. -/
def levelSource : BlockSource := .inMemory levelRecord [] 0 {}

theorem readBlock_levelSource : ∃ bytes, levelSource.readBlock 0 = .ok bytes := by
  have hinside : (4096 * (0 + 1) : Int) ≤ levelRecord.size := by
    rw [size_levelRecord]
    decide
  unfold levelSource
  rw [BlockSource.readBlock,
    BlockSource.read_inMemory [] 0 (Int.le_refl 1) (Int.le_refl 0) hinside]
  exact ⟨_, rfl⟩

theorem decodeRecord_levelSource :
    decodeRecord levelSource 0 none =
      .ok { block := 0, dataLength := 27, blocks := [0], outcome := .ok levelContent } :=
  decodeRecord_of_liesAt liesAt_levelRecord

theorem fate_levelSource :
    fate levelSource [] 0 = .novel ⟨0, 27, [0], .ok levelContent⟩ levelContent :=
  fate_of_new decodeRecord_levelSource rfl List.not_mem_nil

theorem mem_fates_levelSource : .novel ⟨0, 27, [0], .ok levelContent⟩ levelContent ∈
    fates levelSource (headersOf [⟨0, .chunkHeader⟩]) [] := by
  rw [headersOf_cons_header rfl, fates, fate_levelSource]
  exact List.mem_cons_self

theorem read_headers_levelSource : ∀ block ∈ headersOf [⟨0, .chunkHeader⟩],
    ∃ bytes, levelSource.readBlock block = .ok bytes := by
  intro block hblock
  rw [List.mem_singleton.1 hblock]
  exact readBlock_levelSource

/-- Over `levelSource` a recovery ends early if it reads documents, and else it does not. -/
theorem recover_levelSource :
    (recover { source := levelSource } [⟨0, .chunkHeader⟩] {}).1 ≠ .ok () ∧
    (recover { source := levelSource, readsDocuments := false } [⟨0, .chunkHeader⟩] {}).1 =
      .ok () := by
  refine ⟨?_, ?_⟩
  · obtain ⟨hiff, _⟩ := recover_completes_iff { source := levelSource } [⟨0, .chunkHeader⟩] {}
      read_headers_levelSource (recover_ne_file rfl _ _)
    obtain ⟨document, hparse, hposition⟩ := read?_levelContent
    intro hok
    have hanswer := hiff.1 hok _ _ mem_fates_levelSource rfl document hparse
    obtain ⟨position, htold⟩ := document.position_ok_iff.2 hanswer
    exact nomatch hposition.symm.trans htold
  · obtain ⟨hiff, _⟩ := recover_completes_iff { source := levelSource, readsDocuments := false }
      [⟨0, .chunkHeader⟩] {} read_headers_levelSource (recover_ne_file rfl _ _)
    exact hiff.2 fun _ _ _ hreads => nomatch hreads

theorem blockCount_levelSource : levelSource.blockCount = 1 := by
  change ((levelRecord.size / blockSize : Nat) : Int) = 1
  rw [size_levelRecord]
  rfl

/-- There is content that ends a recovery before its time, though every block can be read. -/
theorem recover_stops_early :
    ¬ ∀ (r : Recovery) (sightings : List Sighting), r.saveDirectory? = none →
      (∀ block, 0 ≤ block → block < r.source.blockCount →
        ∃ bytes, r.source.readBlock block = .ok bytes) →
      (∀ e ∈ sightings, 0 ≤ e.block ∧ e.block < r.source.blockCount) →
        (r.recover sightings {}).1 = .ok () := by
  intro hall
  have hread (block : Int) (hnonneg : 0 ≤ block) (hlt : block < levelSource.blockCount) :
      ∃ bytes, levelSource.readBlock block = .ok bytes := by
    rw [blockCount_levelSource] at hlt
    rw [show block = 0 by omega]
    exact readBlock_levelSource
  have hvalid : ∀ e ∈ [(⟨0, .chunkHeader⟩ : Sighting)],
      0 ≤ e.block ∧ e.block < levelSource.blockCount := by
    rw [blockCount_levelSource]
    decide
  have hok := hall { source := levelSource } [⟨0, .chunkHeader⟩] rfl hread hvalid
  have hcompletes := completes_recover { source := levelSource } [⟨0, .chunkHeader⟩] {}
    read_headers_levelSource (recover_ne_file rfl _ _)
  -- If the recovery had come to its end, the document would tell its coordinates.
  obtain ⟨check, hcheck⟩ := hcompletes.1.1 hok _ _ mem_fates_levelSource
  obtain ⟨document, hparse, hposition⟩ := read?_levelContent
  have hanswer := inspect_ok_iff.1 ⟨check, hcheck⟩ rfl document hparse
  obtain ⟨position, htold⟩ := document.position_ok_iff.2 hanswer
  exact nomatch hposition.symm.trans htold

end Recovery

end RegionSalvage
