import RegionSalvage.CommandLine.Run
import RegionSalvage.Proofs.Scan.Ascent
import RegionSalvage.Proofs.Shard.Cover
import RegionSalvage.Proofs.Volume.Selection

/-! # Scanning in shards changes nothing

A scan by several workers finds what one scan over the whole image finds, in the same order, and
fails when that one fails, whatever the order in which the workers report.

* `mergeSort_arrived` — sorting by start undoes any order of arrival, since no two shards start at
  the same block.
* `mergeReports_eq_ok`, `mergeReports_fails` — a merge succeeds exactly if no worker failed.
* `workerReport_of_clear`, `workerReport_fails` — a worker fails exactly if its own shard holds an
  obstacle.  Together the shards hold the obstacles of the whole range (`flatMap_shards`).
-/

namespace RegionSalvage

/-! ## Merging reports -/

/-- Reports in order of their starts are found again, in whatever order they came in. -/
theorem mergeSort_arrived {arrived reports : List WorkerReport} (hperm : arrived.Perm reports)
    (hascend : reports.Pairwise fun a b => a.start < b.start) :
    (arrived.mergeSort fun a b => decide (a.start ≤ b.start)) = reports := by
  -- Reports with one start are one report, so that sorting by start has no choice.
  have hsame : ∀ a ∈ reports, ∀ b ∈ reports, a.start = b.start → a = b := by
    intro a ha b hb
    refine List.Pairwise.forall_of_forall_of_flip (R := fun a b => a.start = b.start → a = b)
      (fun _ _ _ => rfl) (hascend.imp ?_) (hascend.imp ?_) ha hb
    · intro a b hlt heq
      omega
    · intro a b hlt heq
      omega
  have hsorted : (arrived.mergeSort fun a b => decide (a.start ≤ b.start)).Pairwise
      fun a b => a.start ≤ b.start := by
    have hle := @List.pairwise_mergeSort _ (fun a b : WorkerReport => decide (a.start ≤ b.start))
      (fun a b c hab hbc => by simp only [decide_eq_true_eq] at *; omega)
      (fun a b => by simp only [Bool.or_eq_true, decide_eq_true_eq]; omega) arrived
    simpa only [decide_eq_true_eq] using hle
  have hall := (List.mergeSort_perm arrived fun a b => decide (a.start ≤ b.start)).trans hperm
  refine List.Perm.eq_of_pairwise ?_ hsorted (hascend.imp Int.le_of_lt) hall
  intro a b ha hb hab hba
  exact hsame a (hall.mem_iff.1 ha) b hb (Int.le_antisymm hab hba)

theorem mergeReports_eq_ok {arrived reports : List WorkerReport} (hperm : arrived.Perm reports)
    (hascend : reports.Pairwise fun a b => a.start < b.start)
    (hfine : ∀ report ∈ reports, report.failure = none) :
    mergeReports arrived = .ok (reports.flatMap WorkerReport.sightings) := by
  have hnone : arrived.filterMap WorkerReport.shardFailure? = [] := by
    refine List.filterMap_eq_nil_iff.2 ?_
    intro report hreport
    rw [WorkerReport.shardFailure?, hfine report (hperm.mem_iff.1 hreport), Option.map_none]
  rw [mergeReports, hnone, mergeSort_arrived hperm hascend]

theorem mergeReports_fails {arrived : List WorkerReport}
    (h : ∃ report ∈ arrived, report.failure ≠ none) :
    ∃ failures, mergeReports arrived = .error failures := by
  obtain ⟨report, hreport, hne⟩ := h
  obtain ⟨failure, hfailure⟩ := Option.ne_none_iff_exists'.1 hne
  have hmem : ⟨report.worker, report.start, report.stop, failure⟩ ∈
      arrived.filterMap WorkerReport.shardFailure? := by
    refine List.mem_filterMap.2 ⟨report, hreport, ?_⟩
    rw [WorkerReport.shardFailure?, hfailure, Option.map_some]
  rw [mergeReports]
  split
  · next hnil => rw [hnil] at hmem; exact nomatch hmem
  · exact ⟨_, rfl⟩

/-! ## The reports of the workers -/

namespace ImageReference

variable {image : ImageReference} {criteria : ScanCriteria} {volume : Volume}

theorem workerReport_start (worker start stop : Int) :
    (image.workerReport criteria worker start stop).start = start := by
  unfold workerReport
  split
  · rfl
  · simp only
    split <;> rfl

theorem workerReport_of_clear (hopen : image.openVolume = .ok volume) {start stop : Int}
    (h : ∀ block ∈ blockRange start stop,
      Scanner.obstacle? ⟨volume.source, criteria⟩ block = none) (worker : Int) :
    (image.workerReport criteria worker start stop).failure = none ∧
      (image.workerReport criteria worker start stop).sightings =
        (blockRange start stop).flatMap (Scanner.classified ⟨volume.source, criteria⟩) := by
  obtain ⟨hsightings, hending, _⟩ :=
    Scanner.drain_eq ⟨volume.source, criteria⟩ (.unstarted start stop) {}
  rw [Scanner.prospect, Scanner.outlook_of_clear h] at hsightings hending
  simp only [workerReport, hopen, hending, hsightings, and_self]

theorem workerReport_fails (hopen : image.openVolume = .ok volume) {start stop : Int}
    (h : ∃ block ∈ blockRange start stop,
      Scanner.obstacle? ⟨volume.source, criteria⟩ block ≠ none) (worker : Int) :
    (image.workerReport criteria worker start stop).failure ≠ none := by
  obtain ⟨_, hending, _⟩ :=
    Scanner.drain_eq ⟨volume.source, criteria⟩ (.unstarted start stop) {}
  obtain ⟨e, he⟩ := Scanner.outlook_fails h
  rw [Scanner.prospect, he] at hending
  simp [workerReport, hopen, hending]

variable (image criteria) in
/-- What the reports have in common with their ranges, one after the other. -/
theorem map_workerReports {α : Type} (ranges : List (Int × Int)) (ofReport : WorkerReport → α)
    (ofRange : Int × Int → α)
    (h : ∀ range ∈ ranges, ∀ worker,
      ofReport (image.workerReport criteria worker range.1 range.2) = ofRange range) :
    (image.workerReports criteria ranges).map ofReport = ranges.map ofRange := by
  apply List.ext_getElem
  · simp [workerReports]
  · intro i h₁ h₂
    simp only [workerReports, List.getElem_map, List.getElem_mapIdx]
    exact h _ (List.getElem_mem _) _

theorem pairwise_workerReports {ranges : List (Int × Int)}
    (h : ranges.Pairwise fun a b => a.1 < b.1) :
    (image.workerReports criteria ranges).Pairwise fun a b => a.start < b.start := by
  have hstarts := map_workerReports image criteria ranges
    WorkerReport.start Prod.fst fun _ _ _ => workerReport_start ..
  rw [← List.pairwise_map (f := WorkerReport.start) (R := (· < ·)), hstarts]
  exact List.pairwise_map.2 h

/-- The merged reports are those of one walk over all blocks of the ranges. -/
theorem mergeReports_workerReports_of_clear (hopen : image.openVolume = .ok volume)
    {ranges : List (Int × Int)} (hascend : ranges.Pairwise fun a b => a.1 < b.1)
    {arrived : List WorkerReport} (hperm : arrived.Perm (image.workerReports criteria ranges))
    (h : ∀ block ∈ ranges.flatMap fun range => blockRange range.1 range.2,
      Scanner.obstacle? ⟨volume.source, criteria⟩ block = none) :
    mergeReports arrived = .ok
      ((ranges.flatMap fun range => blockRange range.1 range.2).flatMap
        (Scanner.classified ⟨volume.source, criteria⟩)) := by
  have hclear : ∀ range ∈ ranges, ∀ block ∈ blockRange range.1 range.2,
      Scanner.obstacle? ⟨volume.source, criteria⟩ block = none :=
    fun range hrange block hblock => h block (List.mem_flatMap.2 ⟨range, hrange, hblock⟩)
  -- No shard holds an obstacle, so each worker reports what its shard shows.
  have hfailures := map_workerReports image criteria ranges
    WorkerReport.failure (fun _ => none)
    fun range hrange worker => (workerReport_of_clear hopen (hclear range hrange) worker).1
  have hsightings := map_workerReports image criteria ranges
    WorkerReport.sightings _
    fun range hrange worker => (workerReport_of_clear hopen (hclear range hrange) worker).2
  rw [mergeReports_eq_ok hperm (pairwise_workerReports hascend), List.flatMap_def, hsightings,
    ← List.flatMap_def, List.flatMap_assoc]
  intro report hreport
  have : report.failure ∈ ranges.map fun _ => none := by
    rw [← hfailures]
    exact List.mem_map_of_mem hreport
  obtain ⟨_, _, heq⟩ := List.mem_map.1 this
  exact heq.symm

theorem mergeReports_workerReports_fails (hopen : image.openVolume = .ok volume)
    {ranges : List (Int × Int)} {arrived : List WorkerReport}
    (hperm : arrived.Perm (image.workerReports criteria ranges))
    (h : ∃ block ∈ ranges.flatMap fun range => blockRange range.1 range.2,
      Scanner.obstacle? ⟨volume.source, criteria⟩ block ≠ none) :
    ∃ failures, mergeReports arrived = .error failures := by
  obtain ⟨block, hblock, hne⟩ := h
  -- The worker whose shard holds the obstacle fails, and its report arrives sooner or later.
  obtain ⟨range, hrange, hmem⟩ := List.mem_flatMap.1 hblock
  obtain ⟨i, hi, rfl⟩ := List.mem_iff_getElem.1 hrange
  refine mergeReports_fails ⟨image.workerReport criteria i ranges[i].1 ranges[i].2, ?_,
    workerReport_fails hopen ⟨block, hmem, hne⟩ i⟩
  rw [hperm.mem_iff, workerReports, List.mem_mapIdx]
  exact ⟨i, hi, rfl⟩

/-! ## The scan of an image -/

/-- The ranges of the workers are those of one scan over everything. -/
theorem flatMap_shardRanges {workers : Int} {processors : Option Int}
    {ranges : List (Int × Int)}
    (h : shardRanges? criteria volume.source workers processors = some ranges) :
    (ranges.flatMap fun range => blockRange range.1 range.2) =
        Scanner.itinerary ⟨volume.source, criteria⟩ ∧
      ranges.Pairwise fun a b => a.1 < b.1 := by
  simp only [shardRanges?] at h
  split at h
  · exact nomatch h
  · cases h
    exact ⟨flatMap_shards .., pairwise_shards ..⟩

theorem scanSharded_of_collect (hopen : image.openVolume = .ok volume)
    {sightings : List Sighting}
    (hcollect : Scanner.collect ⟨volume.source, criteria⟩ = .ok sightings) (workers : Int) :
    image.scanSharded criteria workers = .ok sightings := by
  obtain ⟨hclear, rfl⟩ := Scanner.collect_eq_ok_iff.1 hcollect
  simp only [scanSharded, hopen]
  cases hranges : shardRanges? criteria volume.source workers image.host.processors with
  | none => simp only [hcollect]
  | some ranges =>
    obtain ⟨hcover, hascend⟩ := flatMap_shardRanges hranges
    simp only
    rw [mergeReports_workerReports_of_clear hopen hascend (image.host.arrival.arrange_perm _)
      (by rw [hcover]; exact hclear), hcover]

theorem scanSharded_fails_iff (hopen : image.openVolume = .ok volume) {workers : Int}
    (hmany : shardRanges? criteria volume.source workers image.host.processors ≠ none) :
    (∃ failures, image.scanSharded criteria workers = .error (.shards failures)) ↔
      ∃ e, Scanner.collect ⟨volume.source, criteria⟩ = .error e := by
  obtain ⟨ranges, hranges⟩ := Option.ne_none_iff_exists'.1 hmany
  constructor
  · rintro ⟨failures, hfailed⟩
    cases hcollect : Scanner.collect ⟨volume.source, criteria⟩ with
    | error e => exact ⟨e, rfl⟩
    | ok sightings =>
      rw [scanSharded_of_collect hopen hcollect workers] at hfailed
      exact nomatch hfailed
  · intro hcollect
    -- The obstacle of the whole scan lies in one of the shards.
    have hobstacle := Scanner.collect_eq_error_iff.1 hcollect
    rw [← (flatMap_shardRanges hranges).1] at hobstacle
    obtain ⟨failures, hmerge⟩ :=
      mergeReports_workerReports_fails hopen (image.host.arrival.arrange_perm _) hobstacle
    exact ⟨failures, by simp only [scanSharded, hopen, hranges, hmerge]⟩

end ImageReference

/-! ## The command -/

theorem Outcome.ending_fail_ne_exit_zero (o : Outcome) (e : CommandError) :
    (o.fail e).ending ≠ .exit 0 := by
  unfold Outcome.fail
  split <;> simp

theorem Volume.scanAlone_eq {volume : Volume} {criteria : ScanCriteria} (showProgress : Bool)
    (h : (volume.scanAlone criteria showProgress).failure = none) :
    Scanner.collect ⟨volume.source, criteria⟩ =
      .ok (volume.scanAlone criteria showProgress).sightings := by
  let scanner : Scanner := ⟨volume.source, criteria⟩
  cases hending : (scanner.drain scanner.scan {}).ending with
  | failed e =>
    simp only [scanAlone, scanner, hending] at h
    exact nomatch h
  | satisfied => simp only [scanAlone, Scanner.collect, scanner, hending]
  | exhausted => simp only [scanAlone, Scanner.collect, scanner, hending]

namespace Machine

variable {m : Machine} {path backend : Setting String} {options : ScanOptions}
  {criteria : ScanCriteria}

theorem openVolume_eq_ok {option : String} {image : ImageReference} {volume : Volume}
    (h : m.openVolume option path backend = .ok (image, volume)) :
    image.openVolume = .ok volume := by
  simp only [openVolume, bind, Except.bind] at h
  split at h
  · exact nomatch h
  · split at h
    · exact nomatch h
    · next hopen =>
      cases h
      exact hopen

/-- An image that is scanned alone without failure is scanned by any number of workers with the
same result. -/
theorem scanImage_workers
    (h : (m.scanImage path { options with workers := .value 1 } criteria).failure = none)
    (workers : Int) :
    let found := m.scanImage path { options with workers := .value workers } criteria
    found.failure = none ∧ found.sightings =
      (m.scanImage path { options with workers := .value 1 } criteria).sightings := by
  have hbound : ∀ w, ScanOptions.blankBound? { options with workers := w } = options.blankBound? :=
    fun _ => rfl
  simp only [scanImage, hbound] at h ⊢
  cases hopen : m.openVolume "file" path options.backend with
  | error e => simp [hopen] at h
  | ok opened =>
    obtain ⟨image, volume⟩ := opened
    cases hblank : options.blankBound? with
    | some bound => simp [hopen, hblank] at h
    | none =>
      simp only [hopen, hblank, Int.lt_irrefl, if_false] at h ⊢
      -- One worker, or none, is the scan alone once more.
      by_cases hmany : 1 < workers
      · have hsharded := ImageReference.scanSharded_of_collect (openVolume_eq_ok hopen)
          (Volume.scanAlone_eq options.showProgress h) workers
        simp only [if_pos hmany, ImageReference.scanByWorkers, hsharded, and_self]
      · simp only [if_neg hmany, h, and_self]

theorem scan_workers (verbose : Bool)
    (h : (m.scan verbose path { options with workers := .value 1 }).ending = .exit 0)
    (workers : Int) :
    let sharded := m.scan verbose path { options with workers := .value workers }
    sharded.ending = .exit 0 ∧
      sharded.output = (m.scan verbose path { options with workers := .value 1 }).output := by
  have hcriteria : ∀ w, ScanOptions.criteria { options with workers := w } m.now =
      options.criteria m.now := fun _ => rfl
  simp only [scan, hcriteria] at h ⊢
  cases hc : options.criteria m.now with
  | error e =>
    rw [hc] at h
    exact absurd h (Outcome.ending_fail_ne_exit_zero _ e)
  | ok criteria =>
    simp only [hc] at h ⊢
    have hfailure : (m.scanImage path { options with workers := .value 1 } criteria).failure =
        none := by
      split at h
      · assumption
      · next e _ => exact absurd h (Outcome.ending_fail_ne_exit_zero _ e)
    obtain ⟨hfine, hsightings⟩ := scanImage_workers hfailure workers
    simp only [hfailure, hfine, hsightings, and_self]

end Machine

/-! ## Any number of workers, in any order -/

/-- Scanning in shards changes nothing.  Where the scan of the opened image completes, so does the
scan by any number of workers, with the same sightings in the same order; where more than one
worker is put to work, the shards fail exactly if that scan does.  The order of arrival is whatever
the host has.  So the command prints the same lines for any number of workers. -/
theorem scanSharded_eq_serial {image : ImageReference} {volume : Volume}
    (hopen : image.openVolume = .ok volume) (criteria : ScanCriteria) (workers : Int) :
    let scanner : Scanner := ⟨volume.source, criteria⟩
    let bounds := criteria.bounds volume.source
    (∀ sightings, scanner.collect = .ok sightings →
      image.scanSharded criteria workers = .ok sightings) ∧
    (1 < workersFor (bounds.2 - bounds.1) workers image.host.processors →
      ((∃ failures, image.scanSharded criteria workers = .error (.shards failures)) ↔
        ∃ e, scanner.collect = .error e)) ∧
    ∀ (m : Machine) (verbose : Bool) (path : Setting String) (options : ScanOptions),
      let alone := m.scan verbose path { options with workers := .value 1 }
      let sharded := m.scan verbose path { options with workers := .value workers }
      alone.ending = .exit 0 → sharded.ending = .exit 0 ∧ sharded.output = alone.output := by
  refine ⟨fun sightings h => ImageReference.scanSharded_of_collect hopen h workers, ?_,
    fun m verbose path options h => Machine.scan_workers verbose h workers⟩
  intro hmany
  apply ImageReference.scanSharded_fails_iff hopen
  -- More than one worker means that the range was split.
  simp only [shardRanges?]
  rw [if_neg (by omega)]
  exact Option.some_ne_none _

/-! ### Two workers at a damaged image -/

/-- The block between the headers is lost. -/
def lostBlock : Device where
  refusal index count :=
    if index ≤ 1 ∧ 1 < index + count then some "[Errno 5] Input/output error" else none

/-- Of two workers, the second reports first. -/
def pairOfWorkers : ImageReference where
  host := { processors := some 2, arrival := ⟨fun count => (List.range count).reverse,
    fun _ => List.reverse_perm _⟩ }
  files := Volume.treeOf twoHeadersApart
  path := "d"
  backend := "file"
  device := lostBlock

theorem openVolume_treeOf (host : Host) (device : Device) (image : ByteArray) :
    (ImageReference.mk host (Volume.treeOf image) "d" "file" device).openVolume =
      .ok ((Volume.flatFile image).onDevice device) := by
  have hopen : Volume.openNamed host (Volume.treeOf image) "d" "file" = .ok (.flatFile image) := by
    have hread := Volume.read_treeOf image
    generalize Volume.treeOf image = files at hread ⊢
    simp only [Volume.openNamed, Backend.ofName?, Volume.openWith, Volume.openWith.withImage, hread]
  change Volume.openNamed host (Volume.treeOf image) "d" "file" >>= _ = _
  rw [hopen]
  rfl

theorem blockCount_twoHeadersApart : (BlockSource.flat twoHeadersApart).blockCount = 3 :=
  blocks_twoHeadersApart

theorem readBlock_lostBlock :
    ((BlockSource.flat twoHeadersApart).onDevice lostBlock).readBlock 1 =
      .error (.device 1 "[Errno 5] Input/output error") := by
  have hcount := blockCount_twoHeadersApart
  rw [BlockSource.readBlock]
  exact BlockSource.read_onDevice_of_refusal (by decide) (by decide) (by omega) rfl

theorem readBlock_twoHeadersApart {block : Int} (h : block = 0 ∨ block = 2) :
    ((BlockSource.flat twoHeadersApart).onDevice lostBlock).readBlock block =
      .ok (BlockSource.imageBytes twoHeadersApart block 1) := by
  have hnone : lostBlock.refusal block 1 = none := if_neg (by omega)
  have hcount := blockCount_twoHeadersApart
  rw [BlockSource.readBlock, BlockSource.read_onDevice_of_none hnone]
  exact Volume.Offers.whole.readBlock_eq (by omega) (by omega)

section LostBlock

variable {criteria : ScanCriteria} (hstart : criteria.startBlock = none)
  (hstop : criteria.maxBlock = none)

include hstart hstop

theorem bounds_lostBlock :
    criteria.bounds ((BlockSource.flat twoHeadersApart).onDevice lostBlock) = (0, 3) := by
  have hcount := blockCount_twoHeadersApart
  generalize twoHeadersApart = image at hcount ⊢
  rw [ScanCriteria.bounds, hstart, hstop]
  exact congrArg (Prod.mk 0) hcount

theorem itinerary_lostBlock :
    Scanner.itinerary ⟨(BlockSource.flat twoHeadersApart).onDevice lostBlock, criteria⟩ =
      [0, 1, 2] := by
  rw [Scanner.itinerary, bounds_lostBlock hstart hstop]
  rfl

/-- A scan that passes over the lost block sees the headers on either side of it. -/
theorem collect_lostBlock_of_lenient (hmin : 0x02789CFF < criteria.minTime)
    (hdense : criteria.skipSparse = false) (hlenient : criteria.skipUnreadable = true) :
    Scanner.collect ⟨(BlockSource.flat twoHeadersApart).onDevice lostBlock, criteria⟩ =
      .ok [⟨0, .chunkHeader⟩, ⟨2, .chunkHeader⟩] := by
  have hblocks := itinerary_lostBlock hstart hstop
  have hlost := readBlock_lostBlock
  have hsees {block : Int} (h : block = 0 ∨ block = 2) : Scanner.classified
      ⟨(BlockSource.flat twoHeadersApart).onDevice lostBlock, criteria⟩ block =
        [⟨block, .chunkHeader⟩] :=
    Scanner.classified_of_startsChunk hmin hdense rfl (readBlock_twoHeadersApart h)
      (startsChunk_twoHeadersApart h)
  generalize (BlockSource.flat twoHeadersApart).onDevice lostBlock = source at hblocks hlost hsees ⊢
  -- The lost block cannot be read, so it shows nothing.
  have hgap : Scanner.classified ⟨source, criteria⟩ 1 = [] := by
    simp only [Scanner.classified, hlost, ite_self]
  refine Scanner.collect_eq_ok_iff.2 ⟨fun block _ => ?_, ?_⟩
  · rw [Scanner.obstacle?, hlenient, Bool.or_true, if_pos rfl]
  · rw [hblocks, List.flatMap_cons, List.flatMap_cons, List.flatMap_singleton, hsees (.inl rfl),
      hgap, hsees (.inr rfl)]
    rfl

theorem collect_lostBlock_of_strict (hstrict : criteria.skipUnreadable = false) :
    ∃ e, Scanner.collect ⟨(BlockSource.flat twoHeadersApart).onDevice lostBlock, criteria⟩ =
      .error e := by
  have hobstacle : Scanner.obstacle?
      ⟨(BlockSource.flat twoHeadersApart).onDevice lostBlock, criteria⟩ 1 = some _ :=
    Scanner.obstacle?_of_error rfl hstrict readBlock_lostBlock
  refine Scanner.collect_eq_error_iff.2 ⟨1, ?_, hobstacle ▸ Option.some_ne_none _⟩
  rw [itinerary_lostBlock hstart hstop]
  decide

end LostBlock

/-- Two workers deliver what is there, or fail, as one scan does. -/
theorem scanSharded_eq_serial_pairOfWorkers :
    let source := (BlockSource.flat twoHeadersApart).onDevice lostBlock
    let strict : ScanCriteria := { maxTime := 2000000000, skipSparse := false }
    let lenient : ScanCriteria :=
      { maxTime := 2000000000, skipSparse := false, skipUnreadable := true }
    pairOfWorkers.host.arrival.arrange [0, 1] = [1, 0] ∧
      shardRanges? strict source 2 pairOfWorkers.host.processors = some [(0, 1), (1, 3)] ∧
      Scanner.collect ⟨source, lenient⟩ = .ok [⟨0, .chunkHeader⟩, ⟨2, .chunkHeader⟩] ∧
      pairOfWorkers.scanSharded lenient 2 = .ok [⟨0, .chunkHeader⟩, ⟨2, .chunkHeader⟩] ∧
      (∃ e, Scanner.collect ⟨source, strict⟩ = .error e) ∧
      ∃ failures, pairOfWorkers.scanSharded strict 2 = .error (.shards failures) := by
  intro source strict lenient
  have hopen : pairOfWorkers.openVolume =
      .ok ((Volume.flatFile twoHeadersApart).onDevice lostBlock) := openVolume_treeOf ..
  have hbounds : strict.bounds source = (0, 3) := bounds_lostBlock rfl rfl
  have hlenient : Scanner.collect ⟨source, lenient⟩ = _ :=
    collect_lostBlock_of_lenient rfl rfl (show 0x02789CFF < earliestTime by decide) rfl rfl
  have hstrict : ∃ e, Scanner.collect ⟨source, strict⟩ = .error e :=
    collect_lostBlock_of_strict rfl rfl rfl
  -- The lenient scan completes, and the strict one fails in the shard of the second worker.
  obtain ⟨hsame, -, -⟩ := scanSharded_eq_serial hopen lenient 2
  obtain ⟨-, hfails, -⟩ := scanSharded_eq_serial hopen strict 2
  refine ⟨by decide, ?_, hlenient, hsame _ hlenient, hstrict, (hfails ?_).2 hstrict⟩
  · rw [shardRanges?, hbounds]
    decide
  · change 1 < workersFor ((strict.bounds source).2 - (strict.bounds source).1) 2 _
    rw [hbounds]
    decide

end RegionSalvage
