import RegionSalvage.Proofs.Recovery.SavedFiles

/-! # The output directory of a recovery

Any number of passes that come to their ends, one after the other, leave a directory that was empty
with the log and the recovered chunks: every content that one of their candidates inflates to, once,
under the block where it was seen first (`Recovery.directory_mirrors_chunks`).

* `Saved.adds` — a candidate leaves what is there alone, and its own file is new.
* `Saved.recover` — a pass that comes to its end keeps the directory, and its log is up to date.
* `Saved.recover_ok` — where the names are not too long, no file keeps a pass from its end.
* `completed_of_passes` — the candidates of all passes are a single series.
-/

namespace RegionSalvage

theorem headersOf_append (sightings more : List Sighting) :
    headersOf (sightings ++ more) = headersOf sightings ++ headersOf more := by
  rw [headersOf, List.filter_append, List.map_append]
  rfl

namespace Recovery

open FileTree (IsName IsPath Fits)

variable {r : Recovery} {directory : String} {place : Location} {log : Option ByteArray}
  {s s' : RecoveryState} {sightings : List Sighting}

/-! ## One candidate -/

/-- Whatever there is before a candidate, there is behind it; what it is saved as is new. -/
theorem Saved.adds (h : Saved r directory place log s) (hsound : Sound r.source s)
    (hdirectory : r.saveDirectory? = some directory) (block : Int) :
    (∀ other node, s.files.node? other = some node →
      (r.tryCandidate block s).2.files.node? other = some node) ∧
    ∀ c, (r.tryCandidate block s).1 = .ok (some c) → s.files.pathExists c.savedTo = false := by
  have htried := r.tried block s
  generalize r.tryCandidate block s = result at htried ⊢
  obtain ⟨answer, s'⟩ := result
  -- Only a chunk that was recovered has changed any file.
  cases htried with
  | unreadable | unassembled | uninflated | duplicate | untold | unsaved =>
    exact ⟨fun _ _ hnode => hnode, nofun⟩
  | @recovered decoded content check savedTo files hfate hcheck hsave =>
    rw [block_of_novel hfate] at hsave
    obtain ⟨rfl, hwrite⟩ := save_eq_ok hdirectory hsave
    obtain ⟨wantsDirectory, hlocated⟩ := h.located
    obtain ⟨hpath, -, hafter⟩ := FileTree.write_joinPath (isName_chunkName block) hlocated hwrite
    have hfree := h.free_of_novel hsound hfate
    refine ⟨fun other node hnode => ?_, fun c hc => ?_⟩
    · have hother : other ≠ place ++ [chunkName block] := by
        rintro rfl
        exact nomatch hfree.symm.trans hnode
      exact (hafter other).trans ((if_neg hother).trans hnode)
    · cases hc
      exact hpath.not_pathExists hfree

/-! ## One pass -/

theorem recover_of_ok (hok : (r.recover sightings s).1 = .ok ()) :
    (r.tryAll sightings s).1 = .ok () ∧
      r.recover sightings s = r.conclude (r.tryAll sightings s).2 := by
  unfold recover finish at hok ⊢
  match hpass : r.tryAll sightings s with
  | (.error e, s') =>
    rw [hpass] at hok
    exact nomatch hok
  | (.ok (), s') => exact ⟨rfl, rfl⟩

theorem Saved.tryAll (h : Saved r directory place log s)
    (hdirectory : r.saveDirectory? = some directory) (sightings : List Sighting) :
    Saved r directory place log (r.tryAll sightings s).2 :=
  @tryAll_keeps r s (fun _ s => Saved r directory place log s)
    (fun _ block _ h => h.tryCandidate hdirectory block) [] h sightings

/-- Behind a pass that comes to its end, the log is up to date. -/
theorem Saved.recover (h : Saved r directory place log s)
    (hdirectory : r.saveDirectory? = some directory) (hok : (r.recover sightings s).1 = .ok ()) :
    Saved r directory place (some (logOf (r.recover sightings s).2)) (r.recover sightings s).2 := by
  obtain ⟨-, hconclude⟩ := recover_of_ok hok
  rw [hconclude] at hok ⊢
  exact (h.tryAll hdirectory sightings).conclude hdirectory hok

theorem Saved.tryAll_ne_file (h : Saved r directory place log s)
    (hdirectory : r.saveDirectory? = some directory)
    (hshort : (place.getLastD "").utf8ByteSize ≤ FileTree.maxNameLength)
    (hfits : ∀ block ∈ headersOf sightings, Fits directory (chunkName block))
    (e : PathError) : (r.tryAll sightings s).1 ≠ .error (.file e) := by
  induction sightings generalizing s with
  | nil => exact nofun
  | cons sighting sightings ih =>
    unfold Recovery.tryAll at ih ⊢
    unfold tryEach
    cases hpart : sighting.part with
    | timestamps | offsets =>
      rw [headersOf_cons_other (by rw [hpart]; decide)] at hfits
      exact ih h hfits
    | chunkHeader =>
      rw [headersOf_cons_header hpart, List.forall_mem_cons] at hfits
      have hfirst := h.tryCandidate_ne_file hdirectory hshort hfits.1 e
      have hnext := h.tryCandidate hdirectory sighting.block
      simp only
      -- The candidate saves its file if it has one, and behind it the invariant holds for the rest.
      match htry : r.tryCandidate sighting.block s with
      | (.error e', s') =>
        rw [htry] at hfirst
        exact fun heq => hfirst (congrArg Except.error (Except.error.inj heq))
      | (.ok found, s') =>
        rw [htry] at hnext
        exact ih hnext hfits.2

/-- Into a directory with room for the names a pass comes to its end, if its candidates can be read
and the coordinates in novel content can be told. -/
theorem Saved.recover_ok (h : Saved r directory place log s)
    (hdirectory : r.saveDirectory? = some directory)
    (hshort : (place.getLastD "").utf8ByteSize ≤ FileTree.maxNameLength)
    (hdraft : Fits directory draftName) (hlog : Fits directory logName)
    (hfits : ∀ block ∈ headersOf sightings, Fits directory (chunkName block))
    (hread : ∀ e, .unreadable e ∉ fates r.source (headersOf sightings) s.seen)
    (htold : r.Told (fates r.source (headersOf sightings) s.seen)) :
    (r.recover sightings s).1 = .ok () := by
  have hpass : (r.tryAll sightings s).1 = .ok () :=
    (completes_tryAll hread (h.tryAll_ne_file hdirectory hshort hfits)).1.2 htold
  have hend := (h.tryAll hdirectory sightings).conclude_ok hdirectory hshort hdraft hlog
  unfold Recovery.recover finish
  match htry : r.tryAll sightings s with
  | (.error e, s') =>
    rw [htry] at hpass
    exact nomatch hpass
  | (.ok (), s') =>
    rw [htry] at hend
    exact hend

theorem completed_recover (hok : (r.recover sightings s).1 = .ok ()) :
    r.Completed (headersOf sightings) s (r.recover sightings s).2 :=
  (completed_of_ok (recover_of_ok hok).1).with_files (r.recover_snd sightings s)

/-! ## Many passes -/

/-- Makes passes, one after the other, as long as they come to their ends. -/
def passes (r : Recovery) :
    List (List Sighting) → RecoveryState → Except RecoveryError RecoveryState
  | [], s => .ok s
  | sightings :: later, s =>
    match r.recover sightings s with
    | (.error e, _) => .error e
    | (.ok _, s') => r.passes later s'

variable {all : List (List Sighting)}

theorem passes_cons_eq_ok {later : List (List Sighting)}
    (h : r.passes (sightings :: later) s = .ok s') :
    (r.recover sightings s).1 = .ok () ∧ r.passes later (r.recover sightings s).2 = .ok s' := by
  rw [passes] at h
  match hpass : r.recover sightings s with
  | (.error e, _) =>
    rw [hpass] at h
    exact nomatch h
  | (.ok (), t) =>
    rw [hpass] at h
    exact ⟨rfl, h⟩

theorem passes_of_ok {later : List (List Sighting)} (hok : (r.recover sightings s).1 = .ok ())
    (hlater : r.passes later (r.recover sightings s).2 = .ok s') :
    r.passes (sightings :: later) s = .ok s' := by
  rw [passes]
  match hpass : r.recover sightings s with
  | (.error e, _) =>
    rw [hpass] at hok
    exact nomatch hok
  | (.ok (), t) =>
    rw [hpass] at hlater
    exact hlater

/-- Passes are calls. -/
theorem performAll_of_passes (h : r.passes all s = .ok s') :
    (r.performAll (all.map .recover) s).2 = s' := by
  induction all generalizing s with
  | nil => exact Except.ok.inj h
  | cons sightings later ih => exact ih (passes_cons_eq_ok h).2

/-- The candidates of all passes are a single series. -/
theorem completed_of_passes (h : r.passes all s = .ok s') :
    r.Completed (headersOf all.flatten) s s' := by
  induction all generalizing s with
  | nil =>
    obtain rfl := Except.ok.inj h
    have hend : (r.tryAll [] s).1 = .ok () := rfl
    exact completed_of_ok hend
  | cons sightings later ih =>
    obtain ⟨hok, hlater⟩ := passes_cons_eq_ok h
    rw [List.flatten_cons, headersOf_append]
    exact (completed_recover hok).append (ih hlater)

theorem Saved.passes (h : Saved r directory place log s)
    (hdirectory : r.saveDirectory? = some directory) (hrun : r.passes all s = .ok s') :
    ∃ log', Saved r directory place log' s' ∧ (all ≠ [] → log' = some (logOf s')) := by
  induction all generalizing log s with
  | nil =>
    obtain rfl := Except.ok.inj hrun
    exact ⟨log, h, fun hnil => absurd rfl hnil⟩
  | cons sightings later ih =>
    obtain ⟨hok, hlater⟩ := passes_cons_eq_ok hrun
    obtain ⟨log', hsaved, hlog⟩ := ih (h.recover hdirectory hok) hlater
    cases later with
    | nil =>
      obtain rfl := Except.ok.inj hlater
      exact ⟨_, h.recover hdirectory hok, fun _ => rfl⟩
    | cons next later => exact ⟨log', hsaved, fun _ => hlog (List.cons_ne_nil next later)⟩

theorem balanced_of_passes {files : FileTree} (h : r.passes all { files } = .ok s) :
    ∃ answers, r.Balanced answers s := by
  have hbalanced := (r.balanced_new files).performAll (all.map .recover)
  rw [performAll_of_passes h] at hbalanced
  exact ⟨_, hbalanced⟩

theorem chunks_tryCandidate (r : Recovery) (block : Int) (s : RecoveryState) :
    (r.tryCandidate block s).2.chunks.toList =
      s.chunks.toList ++ [(r.tryCandidate block s).1].filterMap (·.toOption.join) := by
  have htried := r.tried block s
  generalize r.tryCandidate block s = result at htried ⊢
  obtain ⟨answer, s'⟩ := result
  cases htried with
  | unreadable | unassembled | uninflated | duplicate | untold | unsaved =>
    exact (List.append_nil _).symm
  | recovered => exact Array.toList_push

/-- The chunks stand in the order in which the candidates were recovered. -/
theorem chunks_performAll (r : Recovery) (calls : List RecoveryCall) (files : FileTree) :
    (r.performAll calls { files }).2.chunks.toList =
      (r.performAll calls { files }).1.filterMap (·.toOption.join) := by
  refine @performAll_keeps r { files }
    (fun answers s => s.chunks.toList = answers.filterMap (·.toOption.join))
    (fun answers block s h => ?_) (fun answers s s' h hs => ?_) [] rfl calls
  · rw [chunks_tryCandidate, h, List.filterMap_append]
  · rw [hs]
    exact h

/-! ## Passes over the same content twice -/

/-- A recovery over `twinSource` that saves its chunks. -/
def outRecovery : Recovery :=
  { source := twinSource, outputDirectory := some "out", readsDocuments := false }

theorem isPath_out : IsPath "out" := ⟨by cbv, by cbv, by decide⟩

theorem locate_out (t : FileTree) : t.locate "out" = .ok ⟨["out"], false⟩ := by
  have horigin : FileTree.originOf "out" = [] := by
    rw [FileTree.originOf, show "out".startsWith "/" = false by cbv]
    rfl
  have hnames : FileTree.namesOf "out" = [] ++ ["out"] := by decide
  have hleads : t.Leads "out" _ := .name hnames rfl (by decide)
  rw [FileTree.locate_of_isPath isPath_out, FileTree.follow_of_leads hleads, horigin,
    show "out".endsWith "/" = false by cbv]
  rfl

theorem prepare_out : (outRecovery.prepare {}).1 = ⟨[(["out"], .directory)]⟩ := by
  have hmade : ({} : FileTree).makeDirectory "out" = .ok ⟨[(["out"], .directory)]⟩ := by
    simp only [FileTree.makeDirectory, locate_out]
    rfl
  have hsplit : FileTree.splitPath "out" = ("", "out") := by decide
  change (FileTree.ensureDirectory {} "out").1 = _
  rw [FileTree.ensureDirectory, FileTree.makeDirectories_of_splitPath hsplit (by decide),
    FileTree.makeDirectories.leaf, hmade]

theorem isEmptyDirectory_out : (outRecovery.prepare {}).1.IsEmptyDirectory "out" ["out"] := by
  rw [prepare_out]
  refine ⟨⟨false, locate_out _⟩, rfl, fun name rest hname => ?_⟩
  rw [FileTree.node?_eq_lookup (hname.not_always ["out"] rest)]
  rfl

theorem fits_out {block : Int} (hblock : block = 0 ∨ block = 1) : Fits "out" (chunkName block) := by
  rcases hblock with rfl | rfl
  · exact isPath_out.fits (isName_chunkName 0) (by decide) (by decide) (by decide)
  · exact isPath_out.fits (isName_chunkName 1) (by decide) (by decide) (by decide)

theorem recover_out {block : Int} (hblock : block = 0 ∨ block = 1)
    (h : Saved outRecovery "out" ["out"] log s) :
    (outRecovery.recover [⟨block, .chunkHeader⟩] s).1 = .ok () := by
  have hheaders : headersOf [⟨block, .chunkHeader⟩] = [block] := headersOf_cons_header rfl []
  have hdraft : Fits "out" draftName :=
    isPath_out.fits isName_draftName (by decide) (by decide) (by decide)
  have hlog : Fits "out" logName :=
    isPath_out.fits isName_logName (by decide) (by decide) (by decide)
  refine h.recover_ok rfl (by decide) hdraft hlog ?_ ?_ fun decoded content _ => ⟨.skipped, rfl⟩
  · rw [hheaders]
    exact List.forall_mem_singleton.2 (fits_out hblock)
  · intro e hmem
    obtain ⟨decoded, hfate⟩ := fate_of_inflated (inflated?_twinSource hblock) s.seen
    rw [hheaders] at hmem
    have hunreadable := List.mem_singleton.1 hmem
    rw [show outRecovery.source = twinSource from rfl, hfate] at hunreadable
    split at hunreadable <;> exact nomatch hunreadable

/-! ## The directory at the end -/

/-- Where passes have saved their chunks in a directory that was empty, there are the log and the
content of every chunk under the name of its block, and nothing else.  Behind any passes, a further
candidate leaves what is there alone, and the file that it is saved in is new; the chunks stand in
the log in the order of their recovery, each with the path of its file.  Every content that one of
the candidates inflates to is there once, under the first block with that content. -/
theorem directory_mirrors_chunks (r : Recovery) (before : FileTree) (all : List (List Sighting))
    (hdirectory : r.saveDirectory? = some directory)
    (hempty : (r.prepare before).1.IsEmptyDirectory directory place) (hall : all ≠ [])
    (hpasses : r.passes all { files := (r.prepare before).1 } = .ok s) :
    let start : RecoveryState := { files := (r.prepare before).1 }
    let chunks := s.chunks.toList
    let headers := headersOf all.flatten
    (∀ name rest node, IsName name →
      (s.files.node? (place ++ name :: rest) = some node ↔
        rest = [] ∧ (name = logName ∧ node = .file (recoveryLog s.stats chunks).toUTF8 ∨
          ∃ c ∈ chunks, ∃ content, inflated? r.source c.block = some content ∧
            name = chunkName c.block ∧ node = .file content))) ∧
    (∀ earlier part block t, r.passes earlier start = .ok t →
      let u := (r.tryAll part t).2
      (∀ other node, u.files.node? other = some node →
        (r.tryCandidate block u).2.files.node? other = some node) ∧
      ∀ c, (r.tryCandidate block u).1 = .ok (some c) → u.files.pathExists c.savedTo = false) ∧
    chunks = (r.performAll (all.map .recover) start).1.filterMap (·.toOption.join) ∧
    (∀ c ∈ chunks, c.savedTo = FileTree.joinPath directory (chunkName c.block) ∧
      ∃ content, inflated? r.source c.block = some content ∧
        s.files.read c.savedTo = .ok content ∧
        ∃ earlier later, headers = earlier ++ c.block :: later ∧
          ∀ other ∈ earlier, inflated? r.source other ≠ some content) ∧
    (chunks.map fun c => inflated? r.source c.block).Nodup ∧
    (CollisionFree r.source headers → ∀ content,
      (∃ c ∈ chunks, inflated? r.source c.block = some content) ↔
        ∃ block ∈ headers, inflated? r.source block = some content) := by
  intro start chunks headers
  have hstart : Saved r directory place none start := saved_new hempty
  obtain ⟨log, hsaved, hlog⟩ := hstart.passes hdirectory hpasses
  -- There was a pass, so the log is that of the last state.
  obtain rfl := hlog hall
  have hcompleted : r.Completed headers start s := completed_of_passes hpasses
  obtain ⟨answers, hbalanced⟩ := balanced_of_passes hpasses
  refine ⟨?_, ?_, ?_, ?_, ?_, ?_⟩
  · intro name rest node hname
    rw [hsaved.holds name rest node hname, exists_chunkFile_iff, Option.map_some,
      Option.some.injEq, eq_comm (b := node)]
    rfl
  · intro earlier part block t hearlier u
    obtain ⟨log, hsaved, -⟩ := hstart.passes hdirectory hearlier
    obtain ⟨answers, hbalanced⟩ := balanced_of_passes hearlier
    -- A further candidate comes behind some passes and a part of the next one.
    have hpart := tryAll_keeps (fun _ block _ h => h.tryCandidate block) hbalanced part
    exact (hsaved.tryAll hdirectory part).adds hpart.sound hdirectory block
  · have horder := r.chunks_performAll (all.map .recover) (r.prepare before).1
    rw [performAll_of_passes hpasses] at horder
    exact horder
  · intro c hc
    obtain ⟨content, hinflated, hfirst⟩ := hcompleted.firstOf_chunk hc
    obtain ⟨earlier, later, hsplit, hearlier⟩ := hfirst.first
    refine ⟨hsaved.named c hc, content, hinflated, hsaved.read_chunk hc hinflated, earlier, later,
      hsplit, fun other hother hsame => hearlier other hother ?_⟩
    rw [digest?_eq, hsame]
    rfl
  · exact hbalanced.sound.contents
  · exact fun hfree content => hcompleted.contents_iff hfree

/-- What was seen in the first pass is not saved by the second one. -/
theorem directory_mirrors_chunks_twoPasses :
    let start : RecoveryState := { files := (outRecovery.prepare {}).1 }
    let all : List (List Sighting) := [[⟨0, .chunkHeader⟩], [⟨1, .chunkHeader⟩]]
    outRecovery.saveDirectory? = some "out" ∧
      (outRecovery.prepare {}).1.IsEmptyDirectory "out" ["out"] ∧ all ≠ [] ∧
      CollisionFree outRecovery.source (headersOf all.flatten) ∧
      ∃ s, outRecovery.passes all start = .ok s ∧ s.chunks.toList.map (·.block) = [0] ∧
        s.files.read "out/chunk_0.nbt" = .ok levelContent ∧
        s.files.node? ["out", "chunk_1.nbt"] = none := by
  intro start all
  have hstart : Saved outRecovery "out" ["out"] none start := saved_new isEmptyDirectory_out
  have hfirst := recover_out (.inl rfl) hstart
  have hsecond := recover_out (.inr rfl) (hstart.recover rfl hfirst)
  have hfree : CollisionFree outRecovery.source (headersOf all.flatten) := by
    refine collisionFree_twinSource fun block hblock => ?_
    change block ∈ [0, 1] at hblock
    simpa using hblock
  obtain ⟨s, hpasses⟩ : ∃ s, outRecovery.passes all start = .ok s :=
    ⟨_, passes_of_ok hfirst (passes_of_ok hsecond rfl)⟩
  obtain ⟨hholds, -, -, hfiles, -⟩ := directory_mirrors_chunks outRecovery {} all rfl
    isEmptyDirectory_out (List.cons_ne_nil _ _) hpasses
  have hheaders : headersOf all.flatten = [0, 1] := rfl
  have hchunks := (completed_of_passes hpasses).processed.chunks
  rw [hheaders, show outRecovery.source = twinSource from rfl, show start.seen = [] from rfl,
    fates_twinSource (.inl rfl) (.inr rfl), show start.chunks.toList = [] from rfl] at hchunks
  have hblocks : s.chunks.toList.map (·.block) = [0] := by
    have hinspect : outRecovery.inspect levelContent = .ok .skipped := rfl
    rw [hchunks, List.filterMap_cons_some (by rw [Fate.chunk?, hinspect]; rfl)]
    rfl
  refine ⟨rfl, isEmptyDirectory_out, List.cons_ne_nil _ _, hfree, s, hpasses, hblocks, ?_, ?_⟩
  · obtain ⟨c, hc, hblock⟩ : ∃ c ∈ s.chunks.toList, c.block = 0 :=
      List.mem_map.1 (hblocks ▸ List.mem_singleton_self (0 : Int))
    -- The only chunk is that of block 0, which the first pass has saved.
    obtain ⟨hsavedTo, content, hinflated, hread, -⟩ := hfiles c hc
    rw [hblock, show outRecovery.source = twinSource from rfl, inflated?_twinSource (.inl rfl)]
      at hinflated
    rw [hsavedTo, hblock, ← Option.some.inj hinflated,
      show FileTree.joinPath "out" (chunkName 0) = "out/chunk_0.nbt" by cbv] at hread
    exact hread
  · refine Option.eq_none_iff_forall_ne_some.2 fun node hnode => ?_
    obtain ⟨-, ⟨hname, -⟩ | ⟨c, hc, content, -, hname, -⟩⟩ :=
      (hholds (chunkName 1) [] node (isName_chunkName 1)).1 hnode
    · exact chunkName_ne_logName 1 hname
    · have hblock : c.block ∈ s.chunks.toList.map (·.block) := List.mem_map_of_mem hc
      rw [hblocks, ← chunkName_inj hname] at hblock
      exact absurd hblock (by decide)

end Recovery

end RegionSalvage
