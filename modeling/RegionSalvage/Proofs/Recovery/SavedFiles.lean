import RegionSalvage.Proofs.Disk.Directory
import RegionSalvage.Proofs.Recovery.Content

/-! # What a recovery leaves in its directory

The names of files come from blocks, but whether a candidate is saved depends on its content alone.
`Recovery.Saved` ties the two together: below the directory there stand the log and the content of
each chunk under the name of its block, and nothing else.  A novel candidate keeps it, since a file
with its name would have its content, which then would be known (`Saved.free_of_novel`).

* `Saved.tryCandidate` — every candidate keeps it.
* `Saved.conclude` — the log at the end of a pass keeps it, and is up to date.
* `Saved.tryCandidate_ne_file`, `Saved.conclude_ok` — where the names are not too long, no file fails.
-/

namespace RegionSalvage

namespace Recovery

open FileTree (IsName)

/-! ## Names -/

theorem toList_chunkName (block : Int) :
    (chunkName block).toList = "chunk_".toList ++ block.repr.toList ++ ".nbt".toList := by
  rw [← String.toList_append, ← String.toList_append]
  rfl

theorem slash_not_mem_repr (block : Int) : '/' ∉ block.repr.toList := by
  have hdigits (n : Nat) : '/' ∉ n.repr.toList := by
    intro hmem
    rw [Nat.toList_repr] at hmem
    exact absurd (Nat.isDigit_of_mem_toDigits (by decide) (by decide) hmem) (by decide)
  rw [Int.repr_eq_if]
  split
  · exact hdigits _
  · rw [String.toList_append, List.mem_append]
    exact fun hmem => hmem.elim (by decide) (hdigits _)

theorem isName_chunkName (block : Int) : IsName (chunkName block) := by
  have hchars := toList_chunkName block
  have hfirst : (chunkName block).toList.head? = some 'c' := by
    rw [hchars]
    rfl
  refine ⟨?_, ?_, ?_, ?_⟩
  · intro heq
    rw [heq] at hfirst
    exact absurd hfirst (by decide)
  · rw [hchars, List.mem_append, List.mem_append, not_or, not_or]
    exact ⟨⟨by decide, slash_not_mem_repr block⟩, by decide⟩
  · intro heq
    rw [heq] at hfirst
    exact absurd hfirst (by decide)
  · intro heq
    rw [heq] at hfirst
    exact absurd hfirst (by decide)

/-- The name of a chunk tells its block. -/
theorem chunkName_inj {block block' : Int} (h : chunkName block = chunkName block') :
    block = block' := by
  have hchars := congrArg String.toList h
  rw [toList_chunkName, toList_chunkName] at hchars
  have hrepr := List.append_cancel_left (List.append_cancel_right hchars)
  exact Int.repr_injective (String.toList_injective hrepr)

/-- The name that the log is written under at first. -/
def draftName : String := logName ++ ".tmp"

theorem isName_logName : IsName logName := ⟨by decide, by decide, by decide, by decide⟩

theorem isName_draftName : IsName draftName := ⟨by decide, by decide, by decide, by decide⟩

theorem chunkName_ne_of_head {block : Int} {name : String} (h : name.toList.head? ≠ some 'c') :
    chunkName block ≠ name := by
  intro heq
  rw [← heq, toList_chunkName] at h
  exact h rfl

theorem chunkName_ne_logName (block : Int) : chunkName block ≠ logName :=
  chunkName_ne_of_head (by decide)

theorem chunkName_ne_draftName (block : Int) : chunkName block ≠ draftName :=
  chunkName_ne_of_head (by decide)

/-! ## The invariant -/

variable {r : Recovery} {directory : String} {place : Location} {log : Option ByteArray}
  {s : RecoveryState}

/-- A file of this name has the content of a chunk that was recovered. -/
structure ChunkFile (r : Recovery) (s : RecoveryState) (name : String) (node : FileNode)
    (c : SalvagedChunk) (content : ByteArray) : Prop where
  entered : c ∈ s.chunks.toList
  inflated : inflated? r.source c.block = some content
  name_eq : name = chunkName c.block
  node_eq : node = .file content

/-- Below the directory, which is at `place`, there stand the log and the files of the chunks, and
nothing else; each chunk tells the path of its file. -/
structure Saved (r : Recovery) (directory : String) (place : Location) (log : Option ByteArray)
    (s : RecoveryState) : Prop where
  located : ∃ wantsDirectory, s.files.locate directory = .ok ⟨place, wantsDirectory⟩
  isDirectory : s.files.node? place = some .directory
  named : ∀ c ∈ s.chunks.toList, c.savedTo = FileTree.joinPath directory (chunkName c.block)
  paths : ∀ c ∈ s.chunks.toList, s.files.NamesFile c.savedTo (place ++ [chunkName c.block])
  holds : ∀ name rest node, IsName name →
    (s.files.node? (place ++ name :: rest) = some node ↔
      rest = [] ∧ (name = logName ∧ log.map .file = some node ∨
        ∃ c content, ChunkFile r s name node c content))

theorem saved_new {files : FileTree} (h : files.IsEmptyDirectory directory place) :
    Saved r directory place none { files } where
  located := h.located
  isDirectory := h.directory
  named := nofun
  paths := nofun
  holds name rest node hname := by
    rw [h.empty name rest hname]
    refine iff_of_false nofun ?_
    rintro ⟨-, ⟨-, hlog⟩ | ⟨c, content, hfile⟩⟩
    · exact nomatch hlog
    · exact nomatch hfile.entered

theorem chunkFile_congr {s' : RecoveryState} (hchunks : s'.chunks = s.chunks) {name : String}
    {node : FileNode} {c : SalvagedChunk} {content : ByteArray} :
    ChunkFile r s' name node c content ↔ ChunkFile r s name node c content :=
  ⟨fun h => ⟨hchunks ▸ h.entered, h.inflated, h.name_eq, h.node_eq⟩,
    fun h => ⟨hchunks ▸ h.entered, h.inflated, h.name_eq, h.node_eq⟩⟩

theorem exists_chunkFile_iff {name : String} {node : FileNode} :
    (∃ c content, ChunkFile r s name node c content) ↔
      ∃ c ∈ s.chunks.toList, ∃ content, inflated? r.source c.block = some content ∧
        name = chunkName c.block ∧ node = .file content := by
  constructor
  · rintro ⟨c, content, hfile⟩
    exact ⟨c, hfile.entered, content, hfile.inflated, hfile.name_eq, hfile.node_eq⟩
  · rintro ⟨c, hc, content, hinflated, hname, hnode⟩
    exact ⟨c, content, hc, hinflated, hname, hnode⟩

theorem exists_chunkFile_append {s' : RecoveryState} {c : SalvagedChunk} {content : ByteArray}
    (hchunks : s'.chunks.toList = s.chunks.toList ++ [c])
    (hinflated : inflated? r.source c.block = some content) {name : String} {node : FileNode} :
    (∃ c' content', ChunkFile r s' name node c' content') ↔
      (∃ c' content', ChunkFile r s name node c' content') ∨
        name = chunkName c.block ∧ node = .file content := by
  rw [exists_chunkFile_iff, exists_chunkFile_iff, hchunks]
  simp only [List.mem_append, List.mem_singleton, or_and_right, exists_or, exists_eq_left,
    hinflated, Option.some.injEq, exists_eq_left']

/-- The path of a chunk is that of its content. -/
theorem Saved.read_chunk (h : Saved r directory place log s) {c : SalvagedChunk}
    (hc : c ∈ s.chunks.toList) {content : ByteArray}
    (hinflated : inflated? r.source c.block = some content) :
    s.files.read c.savedTo = .ok content := by
  have hfile : ChunkFile r s (chunkName c.block) (.file content) c content :=
    ⟨hc, hinflated, rfl, rfl⟩
  exact (h.paths c hc).read
    ((h.holds _ [] _ (isName_chunkName c.block)).2 ⟨rfl, .inr ⟨c, content, hfile⟩⟩)

/-- The invariant is about files and chunks alone. -/
theorem Saved.of_eq (h : Saved r directory place log s) {s' : RecoveryState}
    (hfiles : s'.files = s.files) (hchunks : s'.chunks = s.chunks) :
    Saved r directory place log s' := by
  refine ⟨?_, ?_, ?_, ?_, ?_⟩
  · rw [hfiles]
    exact h.located
  · rw [hfiles]
    exact h.isDirectory
  · rw [hchunks]
    exact h.named
  · rw [hfiles, hchunks]
    exact h.paths
  · intro name rest node hname
    rw [hfiles, h.holds name rest node hname]
    simp only [chunkFile_congr hchunks]

/-- There is no file yet with the name that a novel candidate is saved under. -/
theorem Saved.free_of_novel (h : Saved r directory place log s) (hsound : Sound r.source s)
    {block : Int} {decoded : DecodedRecord} {content : ByteArray}
    (hfate : fate r.source s.seen block = .novel decoded content) :
    s.files.node? (place ++ [chunkName block]) = none := by
  refine Option.eq_none_iff_forall_ne_some.2 fun node hnode => ?_
  obtain ⟨-, ⟨hname, -⟩ | ⟨c, content', hfile⟩⟩ :=
    (h.holds (chunkName block) [] node (isName_chunkName block)).1 hnode
  · exact chunkName_ne_logName block hname
  · -- The file would be of the same block, so of the same content, which is known.
    obtain ⟨-, -, hnew⟩ := decodeRecord_of_novel hfate
    obtain ⟨content'', hinflated, hmd5⟩ := hsound.exists_content hfile.entered
    rw [← chunkName_inj hfile.name_eq, inflated?_of_novel hfate] at hinflated
    obtain rfl := Option.some.inj hinflated
    exact hnew (hmd5 ▸ hsound.known c hfile.entered)

/-! ## Candidates -/

theorem save_eq_ok (hdirectory : r.saveDirectory? = some directory) {block : Int}
    {content : ByteArray} {files files' : FileTree} {savedTo : String}
    (h : r.save block content files = .ok (savedTo, files')) :
    savedTo = FileTree.joinPath directory (chunkName block) ∧
      files.write (FileTree.joinPath directory (chunkName block)) content = .ok files' := by
  simp only [save, hdirectory] at h
  cases hwrite : files.write (FileTree.joinPath directory (chunkName block)) content with
  | error e =>
    rw [hwrite] at h
    cases h
  | ok written =>
    rw [hwrite] at h
    obtain ⟨hpath, hfiles⟩ := Prod.mk.inj (Except.ok.inj h)
    exact ⟨hpath.symm, congrArg Except.ok hfiles⟩

/-- The file of a novel candidate is one more. -/
theorem Saved.enter (h : Saved r directory place log s) {c : SalvagedChunk} {content : ByteArray}
    {files : FileTree} {s' : RecoveryState} (hinflated : inflated? r.source c.block = some content)
    (hsavedTo : c.savedTo = FileTree.joinPath directory (chunkName c.block))
    (hwrite : s.files.write (FileTree.joinPath directory (chunkName c.block)) content = .ok files)
    (hchunks : s'.chunks.toList = s.chunks.toList ++ [c]) (hfiles : s'.files = files) :
    Saved r directory place log s' := by
  obtain ⟨wantsDirectory, hlocated⟩ := h.located
  obtain ⟨hpath, hkeeps, hnode⟩ :=
    FileTree.write_joinPath (isName_chunkName c.block) hlocated hwrite
  refine ⟨?_, ?_, ?_, ?_, ?_⟩
  · rw [hfiles]
    exact ⟨wantsDirectory, FileTree.locate_of_keeps hkeeps hlocated⟩
  · rw [hfiles]
    exact hkeeps _ h.isDirectory
  · rw [hchunks, List.forall_mem_append, List.forall_mem_singleton]
    exact ⟨h.named, hsavedTo⟩
  · rw [hchunks, hfiles, List.forall_mem_append, List.forall_mem_singleton]
    refine ⟨fun old hold => (h.paths old hold).of_keeps hkeeps, ?_⟩
    rw [hsavedTo]
    exact hpath.of_keeps hkeeps
  · intro name rest node hname
    rw [hfiles, hnode, exists_chunkFile_append hchunks hinflated]
    -- Either this is the place of the new file, or nothing has happened there.
    by_cases hplace : place ++ name :: rest = place ++ [chunkName c.block]
    · obtain ⟨rfl, rfl⟩ := List.cons.inj (List.append_cancel_left hplace)
      rw [if_pos hplace, Option.some.injEq]
      constructor
      · rintro rfl
        exact ⟨rfl, .inr (.inr ⟨rfl, rfl⟩)⟩
      · rintro ⟨-, ⟨hlogName, -⟩ | ⟨c', content', hfile⟩ | ⟨-, rfl⟩⟩
        · exact absurd hlogName (chunkName_ne_logName c.block)
        · -- A file of the same name is of the same block, so of the same content.
          have hcontent := hfile.inflated
          rw [← chunkName_inj hfile.name_eq, hinflated] at hcontent
          rw [hfile.node_eq, Option.some.inj hcontent]
        · rfl
    · rw [if_neg hplace, h.holds name rest node hname]
      refine and_congr_right fun hrest => or_congr_right (or_iff_left ?_).symm
      rintro ⟨hchunkName, -⟩
      exact hplace (by rw [hchunkName, hrest])

theorem Saved.tryCandidate (h : Saved r directory place log s)
    (hdirectory : r.saveDirectory? = some directory) (block : Int) :
    Saved r directory place log (r.tryCandidate block s).2 := by
  have htried := r.tried block s
  generalize r.tryCandidate block s = result at htried ⊢
  obtain ⟨answer, s'⟩ := result
  cases htried with
  | unreadable | unassembled | uninflated | duplicate | untold | unsaved => exact h.of_eq rfl rfl
  | @recovered decoded content check savedTo files hfate hcheck hsave =>
    obtain ⟨hsavedTo, hwrite⟩ := save_eq_ok hdirectory hsave
    have hinflated : inflated? r.source decoded.block = some content := by
      rw [block_of_novel hfate, inflated?_of_novel hfate]
    exact h.enter (c := chunkOf decoded content check savedTo) hinflated hsavedTo hwrite
      Array.toList_push rfl

/-! ## Logs -/

/-- The content of the log that belongs to a state. -/
def logOf (s : RecoveryState) : ByteArray := (recoveryLog s.stats s.chunks.toList).toUTF8

theorem outputDirectory_of_save (h : r.saveDirectory? = some directory) :
    r.outputDirectory = some directory :=
  (Option.filter_eq_some_iff.1 h).1

/-- A log is written as a draft and renamed. -/
theorem writeLog_eq (hdirectory : r.saveDirectory? = some directory) (s : RecoveryState) :
    r.writeLog s =
      match s.files.write (FileTree.joinPath directory draftName) (logOf s) with
      | .error e => (.error (.file e), s)
      | .ok drafted =>
        match drafted.rename (FileTree.joinPath directory draftName)
            (FileTree.joinPath directory logName) with
        | .error e => (.error (.file e), { s with files := drafted })
        | .ok files => (.ok (FileTree.joinPath directory logName), { s with files }) := by
  have hdraft : FileTree.joinPath directory logName ++ ".tmp" =
      FileTree.joinPath directory draftName :=
    FileTree.joinPath_append directory isName_logName isName_draftName
  simp only [writeLog, outputDirectory_of_save hdirectory, hdraft]
  rfl

theorem writeLog_eq_ok (hdirectory : r.saveDirectory? = some directory) {path : String}
    {s' : RecoveryState} (h : r.writeLog s = (.ok path, s')) :
    ∃ drafted : FileTree,
      s.files.write (FileTree.joinPath directory draftName) (logOf s) = .ok drafted ∧
      drafted.rename (FileTree.joinPath directory draftName)
        (FileTree.joinPath directory logName) = .ok s'.files := by
  rw [writeLog_eq hdirectory] at h
  split at h
  · exact nomatch (Prod.mk.inj h).1
  · next drafted hwrite =>
    split at h
    · exact nomatch (Prod.mk.inj h).1
    · next files hrename =>
      obtain ⟨-, rfl⟩ := Prod.mk.inj h
      exact ⟨drafted, hwrite, hrename⟩

/-- The log is put in the place of the old one, and the draft of it is gone. -/
theorem Saved.conclude (h : Saved r directory place log s)
    (hdirectory : r.saveDirectory? = some directory) (hok : (r.conclude s).1 = .ok ()) :
    Saved r directory place (some (logOf (r.conclude s).2)) (r.conclude s).2 := by
  have hsame := r.conclude_snd s
  obtain ⟨path, hlog⟩ : ∃ path, r.writeLog s = (.ok path, (r.conclude s).2) := by
    unfold Recovery.conclude at hok ⊢
    simp only [hdirectory, Option.isNone_some, Bool.false_eq_true, if_false] at hok ⊢
    match hwrite : r.writeLog s with
    | (.ok path, s') => exact ⟨path, rfl⟩
    | (.error e, s') =>
      rw [hwrite] at hok
      exact nomatch hok
  generalize (r.conclude s).2 = s' at hsame hlog ⊢
  -- The log is written under the name of the draft, and that file is then renamed.
  obtain ⟨drafted, hwrite, hrename⟩ := writeLog_eq_ok hdirectory hlog
  obtain ⟨wantsDirectory, hlocated⟩ := h.located
  obtain ⟨-, hkeeps, hdrafted⟩ := FileTree.write_joinPath isName_draftName hlocated hwrite
  have hlocated' := FileTree.locate_of_keeps hkeeps hlocated
  obtain ⟨hkeeps', hafter⟩ := FileTree.rename_joinPath isName_draftName isName_logName hlocated'
    ((hdrafted _).trans (if_pos rfl)) hrename
  have hchunks : s'.chunks = s.chunks := by rw [hsame]
  have hlogOf : logOf s' = logOf s := by
    rw [hsame]
    rfl
  refine ⟨?_, ?_, ?_, ?_, ?_⟩
  · exact ⟨wantsDirectory, FileTree.locate_of_keeps hkeeps' hlocated'⟩
  · exact hkeeps' _ (hkeeps _ h.isDirectory)
  · rw [hchunks]
    exact h.named
  · rw [hchunks]
    exact fun c hc => ((h.paths c hc).of_keeps hkeeps).of_keeps hkeeps'
  · intro name rest node hname
    have hplace (special : String) :
        place ++ name :: rest = place ++ [special] ↔ name = special ∧ rest = [] := by
      rw [List.append_cancel_left_eq, List.cons.injEq]
    rw [hafter, hdrafted, hlogOf]
    simp only [chunkFile_congr hchunks, hplace]
    -- A file below the directory is the log, or the draft, which is gone, or it was not touched.
    by_cases hlogName : name = logName ∧ rest = []
    · obtain ⟨rfl, rfl⟩ := hlogName
      rw [if_pos ⟨rfl, rfl⟩]
      constructor
      · exact fun hlogged => ⟨rfl, .inl ⟨rfl, hlogged⟩⟩
      · rintro ⟨-, ⟨-, hlogged⟩ | ⟨c, content, hfile⟩⟩
        · exact hlogged
        · exact absurd hfile.name_eq.symm (chunkName_ne_logName c.block)
    · rw [if_neg hlogName]
      by_cases hdraftName : name = draftName ∧ rest = []
      · rw [if_pos hdraftName]
        refine iff_of_false nofun ?_
        rintro ⟨hrest, ⟨hname, -⟩ | ⟨c, content, hfile⟩⟩
        · exact hlogName ⟨hname, hrest⟩
        · exact chunkName_ne_draftName c.block (hfile.name_eq.symm.trans hdraftName.1)
      · rw [if_neg hdraftName, if_neg hdraftName, h.holds name rest node hname]
        refine and_congr_right fun hrest => or_congr_left ?_
        exact iff_of_false (fun hlogged => hlogName ⟨hlogged.1, hrest⟩)
          fun hlogged => hlogName ⟨hlogged.1, hrest⟩

/-! ## When no file fails -/

section Fits

open FileTree (Fits)

variable (h : Saved r directory place log s) (hdirectory : r.saveDirectory? = some directory)
  (hshort : (place.getLastD "").utf8ByteSize ≤ FileTree.maxNameLength)

include h

theorem Saved.ne_directory {name : String} (hname : IsName name) :
    s.files.node? (place ++ [name]) ≠ some .directory := by
  intro hnode
  obtain ⟨-, ⟨-, hlog⟩ | ⟨c, content, hfile⟩⟩ := (h.holds name [] _ hname).1 hnode
  · obtain ⟨text, -, htext⟩ := Option.map_eq_some_iff.1 hlog
    exact nomatch htext
  · exact nomatch hfile.node_eq

include hshort

theorem Saved.namesFile {name : String} (hname : IsName name) (hfits : Fits directory name) :
    s.files.NamesFile (FileTree.joinPath directory name) (place ++ [name]) := by
  obtain ⟨wantsDirectory, hlocated⟩ := h.located
  exact FileTree.namesFile_joinPath hname hfits hlocated h.isDirectory hshort

include hdirectory

theorem Saved.save_ok {block : Int} (hfits : Fits directory (chunkName block))
    (content : ByteArray) : ∃ saved, r.save block content s.files = .ok saved := by
  have hname := isName_chunkName block
  have hwrite := FileTree.write_of_namesFile (h.namesFile hshort hname hfits)
    (h.ne_directory hname) content
  simp only [save, hdirectory, hwrite]
  exact ⟨_, rfl⟩

theorem Saved.tryCandidate_ne_file {block : Int} (hfits : Fits directory (chunkName block))
    (e : PathError) : (r.tryCandidate block s).1 ≠ .error (.file e) := by
  have htried := r.tried block s
  generalize r.tryCandidate block s = result at htried ⊢
  obtain ⟨answer, s'⟩ := result
  cases htried with
  | unreadable | unassembled | uninflated | duplicate | untold | recovered => exact nofun
  | @unsaved decoded content check e' hfate hcheck hsave =>
    rw [block_of_novel hfate] at hsave
    obtain ⟨saved, hok⟩ := h.save_ok hdirectory hshort hfits content
    exact nomatch hsave.symm.trans hok

theorem Saved.conclude_ok (hdraft : Fits directory draftName) (hlog : Fits directory logName) :
    (r.conclude s).1 = .ok () := by
  have hdraftFile := h.namesFile hshort isName_draftName hdraft
  have hwrite := FileTree.write_of_namesFile hdraftFile (h.ne_directory isName_draftName) (logOf s)
  obtain ⟨wantsDirectory, hlocated⟩ := h.located
  obtain ⟨-, hkeeps, hnode⟩ := FileTree.write_joinPath isName_draftName hlocated hwrite
  have hrename := FileTree.rename_of_namesFile (hdraftFile.of_keeps hkeeps)
    ((h.namesFile hshort isName_logName hlog).of_keeps hkeeps) ((hnode _).trans (if_pos rfl))
    (by
      rw [hnode, if_neg (by rw [List.append_cancel_left_eq]; decide)]
      exact h.ne_directory isName_logName)
  unfold Recovery.conclude
  rw [hdirectory, writeLog_eq hdirectory, hwrite]
  simp only [Option.isNone_some, Bool.false_eq_true, if_false, hrename]

end Fits

end Recovery

end RegionSalvage
