import RegionSalvage.Proofs.Scan.Visited

/-! # The counters account for every block and every sighting

All journeys of a scanner add to the same counters, and nothing takes away from them.  A `Counter`
is a quantity of the status that grows by one for certain visits and for certain sightings.  Each of
the seven counters is one, and so is the number of all visits.

* `Counter.value_aftermath` — what everything that a walk has ahead of it adds.  A pull leaves the
  aftermath as it is, so it adds the difference between what was ahead before and what is after it.
* `Counter.value_turns` — a counter is what the visited blocks and the delivered sightings of all
  journeys make of it, after any turns.
-/

namespace RegionSalvage

/-! ## Counters -/

/-- The sightings of a part that were counted. -/
def ScanStatus.hitsOf (p : ScanStatus) : RegionPart → Int
  | .timestamps => p.timestampHits
  | .offsets => p.offsetHits
  | .chunkHeader => p.headerHits

/-- The kinds of blocks that a status counts. -/
inductive BlockKind where
  | scanned
  | allocated
  | sparse
  | unreadable
deriving DecidableEq, Repr

/-- The blocks of a kind that were counted. -/
def ScanStatus.blocksOf (p : ScanStatus) : BlockKind → Int
  | .scanned => p.scannedBlocks
  | .allocated => p.allocatedBlocks
  | .sparse => p.sparseBlocks
  | .unreadable => p.unreadableBlocks

/-- Whether a visit finds a block of a kind; a sparse block is scanned as well. -/
def Visit.isA : Visit → BlockKind → Bool
  | .found _, .scanned => true
  | .allocated, .allocated => true
  | .found .sparse, .sparse => true
  | .unreadable, .unreadable => true
  | _, _ => false

namespace ScanStatus

theorem hitsOf_countHit (p : ScanStatus) (part other : RegionPart) :
    (p.countHit other).hitsOf part = p.hitsOf part + (other == part).toNat := by
  by_cases h : other = part
  · rw [h, beq_self_eq_true]
    cases part <;> rfl
  · rw [beq_false_of_ne h, Bool.toNat_false]
    cases part <;> cases other <;> simp [countHit, hitsOf] at h ⊢

theorem hitsOf_countVisit (p : ScanStatus) (part : RegionPart) (visit : Visit) :
    (p.countVisit visit).hitsOf part = p.hitsOf part := by
  rcases visit with _ | _ | _ | _ | _ <;> cases part <;> rfl

theorem blocksOf_countVisit (p : ScanStatus) (kind : BlockKind) (visit : Visit) :
    (p.countVisit visit).blocksOf kind = p.blocksOf kind + (visit.isA kind).toNat := by
  rcases visit with _ | _ | _ | _ | _ <;> cases kind <;> simp [countVisit, blocksOf, Visit.isA]

theorem blocksOf_countHit (p : ScanStatus) (kind : BlockKind) (part : RegionPart) :
    (p.countHit part).blocksOf kind = p.blocksOf kind := by
  cases kind <;> cases part <;> rfl

end ScanStatus

/-- The counters alone, without the position. -/
def ScanStatus.tally (p : ScanStatus) : ScanStatus :=
  { p with startBlock := 0, stopBlock := 0, currentBlock := 0, isScanning := false }

/-- A quantity of the status that certain visits and certain sightings raise by one. -/
structure Counter where
  value : ScanStatus → Int
  countsVisit : Visit → Bool
  countsPart : RegionPart → Bool
  value_tally : ∀ p, value p.tally = value p
  value_countVisit : ∀ p visit, value (p.countVisit visit) = value p + (countsVisit visit).toNat
  value_countHit : ∀ p part, value (p.countHit part) = value p + (countsPart part).toNat

namespace Counter

/-- Sightings of a part. -/
def hits (part : RegionPart) : Counter where
  value p := p.hitsOf part
  countsVisit _ := false
  countsPart := (· == part)
  value_tally p := by cases part <;> rfl
  value_countVisit p visit := by
    rw [ScanStatus.hitsOf_countVisit]
    exact (Int.add_zero _).symm
  value_countHit p := p.hitsOf_countHit part

/-- Visited blocks of one kind. -/
def blocks (kind : BlockKind) : Counter where
  value p := p.blocksOf kind
  countsVisit visit := visit.isA kind
  countsPart _ := false
  value_tally p := by cases kind <;> rfl
  value_countVisit p := p.blocksOf_countVisit kind
  value_countHit p part := by
    rw [ScanStatus.blocksOf_countHit]
    exact (Int.add_zero _).symm

/-- Blocks that a walk came through. -/
def passed : Counter where
  value p := p.scannedBlocks + p.allocatedBlocks + p.unreadableBlocks
  countsVisit visit := !visit matches .failed _
  countsPart _ := false
  value_tally p := rfl
  value_countVisit p visit := by
    rcases visit with _ | _ | _ | _ | _ <;> simp [ScanStatus.countVisit] <;> omega
  value_countHit p part := by cases part <;> exact (Int.add_zero _).symm

variable (k : Counter)

/-- What visits to these blocks add. -/
def ofBlocks (scanner : Scanner) (blocks : List Int) : Nat :=
  blocks.countP fun block => k.countsVisit (scanner.visit block)

/-- What the delivery of these sightings adds. -/
def ofSightings (sightings : List Sighting) : Nat :=
  sightings.countP fun e => k.countsPart e.part

@[simp] theorem ofBlocks_append (scanner : Scanner) (xs ys : List Int) :
    k.ofBlocks scanner (xs ++ ys) = k.ofBlocks scanner xs + k.ofBlocks scanner ys :=
  List.countP_append

@[simp] theorem ofSightings_append (xs ys : List Sighting) :
    k.ofSightings (xs ++ ys) = k.ofSightings xs + k.ofSightings ys :=
  List.countP_append

theorem ofBlocks_cons (scanner : Scanner) (block : Int) (rest : List Int) :
    k.ofBlocks scanner (block :: rest) =
      (k.countsVisit (scanner.visit block)).toNat + k.ofBlocks scanner rest := by
  rw [ofBlocks, List.countP_cons, Nat.add_comm]
  cases k.countsVisit (scanner.visit block) <;> rfl

theorem ofBlocks_eq_zero {scanner : Scanner} (blocks : List Int)
    (h : ∀ block, k.countsVisit (scanner.visit block) = false) : k.ofBlocks scanner blocks = 0 := by
  apply List.countP_eq_zero.2
  intro block _
  rw [h block]
  exact Bool.false_ne_true

theorem ofSightings_eq_zero (sightings : List Sighting) (h : ∀ part, k.countsPart part = false) :
    k.ofSightings sightings = 0 := by
  apply List.countP_eq_zero.2
  intro e _
  rw [h e.part]
  exact Bool.false_ne_true

theorem value_of_tally_eq {p q : ScanStatus} (h : p.tally = q.tally) : k.value p = k.value q := by
  rw [← k.value_tally p, h, k.value_tally]

end Counter

/-! ## A listener that only listens -/

namespace ScanState

/-- The listener leaves the progress as it is. -/
def IsQuiet (s : ScanState) : Prop := s.listener = ScanStatus.latest

variable {s : ScanState}

theorem IsQuiet.progress_giveNotice (h : s.IsQuiet) : s.giveNotice.progress = s.progress := by
  rw [IsQuiet] at h
  simp [giveNotice, h, ScanStatus.latest]

theorem IsQuiet.tally_arrive (h : s.IsQuiet) (block : Int) (due : Bool) :
    (s.arrive block due).progress.tally = s.progress.tally := by
  cases due with
  | false => rfl
  | true =>
    have hcome : IsQuiet { s with progress := { s.progress with currentBlock := block } } := h
    rw [arrive, if_pos rfl, hcome.progress_giveNotice]
    rfl

theorem IsQuiet.tally_finish (h : s.IsQuiet) (stop : Int) :
    (s.finish stop).progress.tally = s.progress.tally := by
  have hcome : IsQuiet { s with progress :=
    { s.progress with currentBlock := stop, isScanning := false } } := h
  rw [finish, hcome.progress_giveNotice]
  rfl

theorem IsQuiet.arrive (h : s.IsQuiet) (block : Int) (due : Bool) :
    (s.arrive block due).IsQuiet := by
  cases due <;> exact h

end ScanState

namespace Scanner

variable (scanner : Scanner) {s : ScanState}

theorem isQuiet_advance (hs : s.IsQuiet) (start stop : Int) (left : Nat) :
    (scanner.advance start stop left s).2.IsQuiet := by
  induction left generalizing s with
  | zero => exact hs
  | succ left ih =>
    have harrive := hs.arrive (stop - (left + 1 : Nat))
      (scanner.criteria.isNoticeDue start (stop - (left + 1 : Nat)))
    rcases scanner.advance_cases start stop left s with ⟨_, _, hstep⟩ | ⟨_, _, hstep⟩ |
      ⟨_, _, _, _, hstep⟩
    · rw [hstep]
      exact harrive
    · rw [hstep]
      exact ih harrive
    · rw [hstep]
      exact harrive

theorem isQuiet_pull (hs : s.IsQuiet) (walk : Walk) : (scanner.pull walk s).2.IsQuiet := by
  match walk with
  | .unstarted start stop =>
    have hset : (s.setOut start stop).IsQuiet := hs
    exact scanner.isQuiet_advance hset start stop _
  | .paused start stop _ [] left => exact scanner.isQuiet_advance hs start stop left
  | .paused _ _ _ (_ :: _) _ | .ended => exact hs

theorem isQuiet_pullJourney (hs : s.IsQuiet) (j : Journey) :
    (scanner.pullJourney j s).2.IsQuiet := by
  unfold pullJourney
  split
  · exact hs
  · have hpull := scanner.isQuiet_pull hs j.walk
    simp only
    match hanswer : scanner.pull j.walk s with
    | (.sighting _ _, _) | (.exhausted, _) | (.failed _, _) =>
      rw [hanswer] at hpull
      exact hpull

theorem isQuiet_closeJourney (hs : s.IsQuiet) (j : Journey) : (closeJourney j s).2.IsQuiet := by
  unfold closeJourney close
  cases j.walk <;> exact hs

end Scanner

/-! ## What a walk adds -/

namespace Counter

variable (k : Counter) (scanner : Scanner) {s : ScanState}

theorem value_countHits (s : ScanState) (block : Int) (parts : List RegionPart) :
    k.value (s.countHits parts).progress =
      k.value s.progress + k.ofSightings (sightingsOf block parts) := by
  induction parts generalizing s with
  | nil => exact (Int.add_zero _).symm
  | cons part parts ih =>
    have hfirst := k.value_countHit s.progress part
    have hrest := ih { s with progress := s.progress.countHit part }
    have hcount : k.ofSightings (sightingsOf block (part :: parts)) =
        (k.countsPart part).toNat + k.ofSightings (sightingsOf block parts) := by
      rw [ofSightings, sightingsOf, List.map_cons, List.countP_cons, Nat.add_comm]
      cases k.countsPart part <;> rfl
    simp only at hrest
    rw [hcount]
    exact hrest.trans (by omega)

theorem value_settle (hs : s.IsQuiet) (start stop : Int) (blocks : List Int) :
    k.value (scanner.settle start stop blocks s).progress =
      k.value s.progress + k.ofBlocks scanner (scanner.passable blocks) +
        k.ofSightings (scanner.outlook blocks).sightings := by
  induction blocks generalizing s with
  | nil =>
    rw [Scanner.settle, k.value_of_tally_eq (hs.tally_finish stop)]
    simp [Scanner.passable, Scanner.outlook, ofBlocks, ofSightings]
  | cons block rest ih =>
    let due := scanner.criteria.isNoticeDue start block
    have harrive := k.value_of_tally_eq (hs.tally_arrive block due)
    rw [Scanner.settle, Scanner.outlook]
    cases hobstacle : scanner.obstacle? block with
    | some e =>
      have hquiet : ((s.arrive block due).countVisit (.failed e)).IsQuiet := hs.arrive block due
      simp only [Scanner.visit_of_obstacle hobstacle, Scanner.passable_of_obstacle hobstacle]
      rw [k.value_of_tally_eq (hquiet.tally_finish stop)]
      change k.value (s.arrive block due).progress = _
      rw [harrive]
      simp [ofBlocks, ofSightings]
    | none =>
      -- The visit is counted first, then its sightings, and then the rest of the blocks.
      let visit := scanner.visit block
      have hvisit := k.value_countVisit (s.arrive block due).progress visit
      have hhits := k.value_countHits ((s.arrive block due).countVisit visit) block visit.parts
      have hquiet : (((s.arrive block due).countVisit visit).countHits visit.parts).IsQuiet :=
        hs.arrive block due
      have hrest := ih hquiet
      rw [Scanner.passable_of_clear hobstacle, k.ofBlocks_cons]
      split
      · next e hfailed => exact absurd hfailed (Scanner.visit_ne_failed hobstacle e)
      · simp only [Prospect.after, ofSightings_append]
        rw [hrest, hhits]
        change k.value ((s.arrive block due).progress.countVisit visit) + _ + _ + _ = _
        rw [hvisit, harrive]
        simp only [visit]
        omega

/-- Everything that a walk has ahead of it is counted when it is over. -/
theorem value_aftermath (hs : s.IsQuiet) (walk : Walk) :
    k.value (scanner.aftermath walk s).progress =
      k.value s.progress + k.ofBlocks scanner (scanner.blocksAhead walk) +
        k.ofSightings (scanner.prospect walk).sightings := by
  match walk with
  | .unstarted start stop =>
    have hquiet : (s.setOut start stop).IsQuiet := hs
    have hset : k.value (s.setOut start stop).progress = k.value s.progress :=
      k.value_of_tally_eq rfl
    rw [Scanner.aftermath, k.value_settle scanner hquiet, hset]
    rfl
  | .paused start stop block pending left =>
    have hquiet : (s.countHits pending).IsQuiet := hs
    have hhits := k.value_countHits s block pending
    rw [Scanner.aftermath, k.value_settle scanner hquiet, hhits, Scanner.blocksAhead,
      Scanner.prospect]
    simp only [Prospect.after, ofSightings_append]
    omega
  | .ended => simp [Scanner.aftermath, Scanner.blocksAhead, Scanner.prospect, ofBlocks, ofSightings]

/-! ## What a journey adds -/

/-- What a journey has added so far. -/
def ofJourney (j : Journey) : Nat :=
  k.ofBlocks scanner (scanner.visited j) + k.ofSightings j.delivered

/-- A pull adds what the journey gains by it. -/
theorem value_pullJourney {j : Journey} (hj : j.Tracked scanner) (hs : s.IsQuiet) :
    k.value (scanner.pullJourney j s).2.progress + k.ofJourney scanner j =
      k.value s.progress + k.ofJourney scanner (scanner.pullJourney j s).1 := by
  -- The aftermath is the same before and behind the pull; what is ahead of the walk gets less by
  -- what the journey gains.
  have hnext := hj.pull s
  have hahead := k.value_aftermath scanner hs j.walk
  rcases scanner.pullJourney_cases j s with ⟨_, hpull⟩ |
    ⟨hlive, e, rest, s', hanswer, hprospect, hrest, hpull⟩ | ⟨hlive, ending, hprospect, hpull⟩
  · rw [hpull]
  · rw [hpull] at hnext ⊢
    have hquiet : s'.IsQuiet := by
      have h := scanner.isQuiet_pull hs j.walk
      rwa [hanswer] at h
    have hlive' := (Scanner.pull_sighting hj.stands hanswer).2.1
    have hbefore := congrArg (k.ofBlocks scanner) (hj.visited_append hlive)
    have hafter := congrArg (k.ofBlocks scanner) (hnext.visited_append hlive')
    rw [← hrest, k.value_aftermath scanner hquiet] at hahead
    have hsightings : k.ofSightings (scanner.prospect j.walk).sightings =
        k.ofSightings [e] + k.ofSightings (scanner.prospect rest).sightings := by
      rw [hprospect, Prospect.after, ofSightings_append]
    simp only [ofBlocks_append] at hbefore hafter
    simp only [ofJourney, ofSightings_append]
    omega
  · rw [hpull] at hnext ⊢
    have hbefore := congrArg (k.ofBlocks scanner) (hj.visited_append hlive)
    have hafter := congrArg (k.ofBlocks scanner) (hnext.onCourse.visited_of_complete rfl)
    have hnone : k.ofSightings [] = 0 := rfl
    rw [hprospect] at hahead
    simp only [ofBlocks_append] at hbefore hafter
    simp only [ofJourney] at hahead ⊢
    omega

theorem value_closeJourney (hs : s.IsQuiet) (j : Journey) :
    k.value (Scanner.closeJourney j s).2.progress + k.ofJourney scanner j =
      k.value s.progress + k.ofJourney scanner (Scanner.closeJourney j s).1 := by
  have hclose : (Scanner.close j.walk s).progress.tally = s.progress.tally := by
    match j.walk with
    | .unstarted _ _ | .ended => rfl
    | .paused _ stop _ _ _ => exact hs.tally_finish stop
  exact congrArg (· + _) (k.value_of_tally_eq hclose)

/-! ## What a party adds -/

/-- The counter has grown from `base` by what the journeys of a party have added. -/
structure Balanced (base : Int) (party : Party) : Prop where
  tracked : ∀ j ∈ party.journeys, j.Tracked scanner
  quiet : party.state.IsQuiet
  balance : k.value party.state.progress =
    base + ((party.journeys.map (k.ofJourney scanner)).sum : Nat)

variable {k scanner}

theorem Balanced.turn {base : Int} {party : Party} (h : k.Balanced scanner base party) (t : Turn) :
    k.Balanced scanner base (scanner.turn party t) := by
  have htracked : ∀ j ∈ (scanner.turn party t).journeys, j.Tracked scanner :=
    Scanner.forall_journeys_turns (Journey.tracked_opened scanner) (fun _ s h => h.pull s)
      (fun _ h => h.close) h.tracked [t]
  rcases scanner.turn_cases party t with ⟨range, _, hturn⟩ | ⟨_, hturn⟩ |
    ⟨_, before, j, after, hsplit, act, hact, hturn⟩
  · rw [hturn] at htracked ⊢
    refine ⟨htracked, h.quiet, ?_⟩
    -- A journey that was just opened has not come to any block.
    have hnew : k.ofJourney scanner { start := range.1, stop := range.2 } = 0 := by
      rw [ofJourney, Scanner.visited, reachOf]
      exact congrArg (k.ofBlocks scanner · + 0) (blockRange_self range.1)
    rw [List.map_append, List.sum_append, List.map_singleton, List.sum_singleton, hnew]
    exact h.balance
  · rw [hturn]
    exact h
  · -- What one journey adds is added to the sum; the others have not moved.
    have hj : j.Tracked scanner := h.tracked j (by rw [hsplit]; simp)
    have hbalance := h.balance
    have hquiet : (act j party.state).2.IsQuiet := by
      rcases hact with rfl | rfl
      · exact scanner.isQuiet_pullJourney h.quiet j
      · exact Scanner.isQuiet_closeJourney h.quiet j
    have hvalue : k.value (act j party.state).2.progress + k.ofJourney scanner j =
        k.value party.state.progress + k.ofJourney scanner (act j party.state).1 := by
      rcases hact with rfl | rfl
      · exact k.value_pullJourney scanner hj h.quiet
      · exact k.value_closeJourney scanner h.quiet j
    rw [hturn] at htracked ⊢
    refine ⟨htracked, hquiet, ?_⟩
    rw [hsplit] at hbalance
    simp only [List.map_append, List.map_cons, List.sum_append, List.sum_cons] at hbalance ⊢
    omega

theorem Balanced.turns {base : Int} {party : Party} (h : k.Balanced scanner base party)
    (ts : List Turn) : k.Balanced scanner base (scanner.turns party ts) := by
  induction ts generalizing party with
  | nil => exact h
  | cons t ts ih => exact ih (h.turn t)

variable (k scanner)

theorem sum_ofJourney (journeys : List Journey) :
    (journeys.map (k.ofJourney scanner)).sum =
      k.ofBlocks scanner (journeys.flatMap scanner.visited) +
        k.ofSightings (journeys.flatMap Journey.delivered) := by
  induction journeys with
  | nil => rfl
  | cons j journeys ih =>
    simp only [List.map_cons, List.sum_cons, List.flatMap_cons, ofBlocks_append,
      ofSightings_append]
    rw [ih, ofJourney]
    omega

/-- A counter is what the visited blocks and the delivered sightings make of it. -/
theorem value_turns (hs : s.IsQuiet) (ts : List Turn) :
    k.value (scanner.turns { state := s } ts).state.progress = k.value s.progress +
      k.ofBlocks scanner ((scanner.turns { state := s } ts).journeys.flatMap scanner.visited) +
      k.ofSightings ((scanner.turns { state := s } ts).journeys.flatMap Journey.delivered) := by
  have hopened : k.Balanced scanner (k.value s.progress) { state := s } :=
    ⟨by simp, hs, (Int.add_zero _).symm⟩
  have hbalance := (hopened.turns ts).balance
  rw [sum_ofJourney, Int.natCast_add, ← Int.add_assoc] at hbalance
  exact hbalance

/-- The journeys of a party that are over, one way or the other, have added what their ranges make
of a counter. -/
theorem value_turns_of_complete (hs : s.IsQuiet) {ts : List Turn}
    (hcomplete : ∀ j ∈ (scanner.turns { state := s } ts).journeys, j.isComplete) :
    k.value (scanner.turns { state := s } ts).state.progress = k.value s.progress +
      k.ofBlocks scanner ((ts.filterMap scanner.opened?).flatMap fun range =>
        scanner.passable (blockRange range.1 range.2)) +
      k.ofSightings ((ts.filterMap scanner.opened?).flatMap fun range =>
        (scanner.outlook (blockRange range.1 range.2)).sightings) := by
  let journeys := (scanner.turns { state := s } ts).journeys
  have hranges : journeys.map Journey.range = ts.filterMap scanner.opened? :=
    scanner.map_range_turns { state := s } ts
  have hwhole : ∀ j ∈ journeys, ∃ ending, j.ending = some ending ∧ j.OnCourse scanner := by
    intro j hj
    obtain ⟨ending, hending⟩ := Option.isSome_iff_exists.1 (hcomplete j hj)
    exact ⟨ending, hending, scanner.onCourse_turns s ts j hj⟩
  -- A journey that has come to its end has visited and delivered what its range holds.
  have hvisited : journeys.flatMap scanner.visited =
      journeys.flatMap fun j => scanner.passable (blockRange j.start j.stop) := by
    rw [List.flatMap_def, List.flatMap_def, List.map_congr_left]
    intro j hj
    obtain ⟨ending, hending, hcourse⟩ := hwhole j hj
    exact hcourse.visited_of_complete hending
  have hdelivered : journeys.flatMap Journey.delivered =
      journeys.flatMap fun j => (scanner.outlook (blockRange j.start j.stop)).sightings := by
    rw [List.flatMap_def, List.flatMap_def, List.map_congr_left]
    intro j hj
    obtain ⟨ending, hending, hcourse⟩ := hwhole j hj
    exact (congrArg Prospect.sightings (hcourse.whole_of_complete hending)).symm
  rw [k.value_turns scanner hs, hvisited, hdelivered, ← hranges, List.flatMap_map,
    List.flatMap_map]
  rfl

end Counter

/-! ## The account -/

theorem ScanStatus.tally_ext {p q : ScanStatus} (hhits : ∀ part, p.hitsOf part = q.hitsOf part)
    (hblocks : ∀ kind, p.blocksOf kind = q.blocksOf kind) : p.tally = q.tally := by
  have hscanned : p.scannedBlocks = q.scannedBlocks := hblocks .scanned
  have hallocated : p.allocatedBlocks = q.allocatedBlocks := hblocks .allocated
  have hsparse : p.sparseBlocks = q.sparseBlocks := hblocks .sparse
  have hunreadable : p.unreadableBlocks = q.unreadableBlocks := hblocks .unreadable
  have htimestamps : p.timestampHits = q.timestampHits := hhits .timestamps
  have hoffsets : p.offsetHits = q.offsetHits := hhits .offsets
  have hheaders : p.headerHits = q.headerHits := hhits .chunkHeader
  simp only [tally, hscanned, hallocated, hsparse, hunreadable, htimestamps, hoffsets, hheaders]

/-- A sparse block is scanned as well. -/
theorem Visit.isA_scanned (visit : Visit) (h : visit.isA .sparse) : visit.isA .scanned := by
  match visit with
  | .found _ => rfl
  | .allocated | .unreadable | .failed _ => exact h

namespace Scanner

variable {scanner : Scanner}

/-- Blocks are dropped as sparse only if they are looked for. -/
theorem isA_sparse_eq_false (h : scanner.criteria.skipSparse = false) (block : Int) :
    (scanner.visit block).isA .sparse = false := by
  have hfindings (b : ByteArray) : scanner.criteria.findings b ≠ .sparse := by
    simp [ScanCriteria.findings, h]
  unfold visit
  split
  · rfl
  · split
    · split <;> rfl
    · next b _ =>
      cases hb : scanner.criteria.findings b with
      | sparse => exact absurd hb (hfindings b)
      | tested parts => rfl

/-- Blocks are passed over as unreadable only if that is asked for. -/
theorem isA_unreadable_eq_false (h : scanner.criteria.skipUnreadable = false) (block : Int) :
    (scanner.visit block).isA .unreadable = false := by
  unfold visit
  rw [h]
  split
  · rfl
  · split <;> rfl

variable (scanner)

/-- Of blocks without an obstacle each is passed. -/
theorem passed_of_clear {blocks : List Int}
    (h : ∀ block ∈ blocks, scanner.obstacle? block = none) :
    Counter.passed.ofBlocks scanner blocks = blocks.length := by
  apply List.countP_eq_length.2
  intro block hblock
  cases hvisit : scanner.visit block with
  | failed e => exact absurd hvisit (visit_ne_failed (h block hblock) e)
  | allocated | unreadable | found findings => rfl

theorem clear_of_mem_visited {s : ScanState} {ts : List Turn} {block : Int}
    (h : block ∈ (scanner.turns { state := s } ts).journeys.flatMap scanner.visited) :
    scanner.obstacle? block = none := by
  obtain ⟨j, hj, hvisited⟩ := List.mem_flatMap.1 h
  have hinitial := (scanner.tracked_turns s ts j hj).visited_initial
  exact obstacle?_of_mem_passable (hinitial.subset hvisited)

/-- A drained walk that does not fail counts all blocks of its range. -/
theorem passed_drain {start stop : Int}
    (h : (scanner.drain (.unstarted start stop) {}).ending = .exhausted) :
    Counter.passed.value (scanner.drain (.unstarted start stop) {}).state.progress =
      max 0 (stop - start) := by
  obtain ⟨_, hending, hstate⟩ := scanner.drain_eq (.unstarted start stop) {}
  have hquiet : ScanState.IsQuiet {} := rfl
  have hwhole : scanner.passable (blockRange start stop) = blockRange start stop :=
    passable_eq_self fun e => by
      rw [hending] at h
      exact fun hfailed => nomatch h.symm.trans hfailed
  have hclear : ∀ block ∈ blockRange start stop, scanner.obstacle? block = none := by
    intro block hblock
    rw [← hwhole] at hblock
    exact obstacle?_of_mem_passable hblock
  rw [hstate, Counter.passed.value_aftermath scanner hquiet,
    Counter.passed.ofSightings_eq_zero _ fun _ => rfl, blocksAhead, hwhole,
    scanner.passed_of_clear hclear, blockRange, length_consecutive]
  change 0 + ((stop - start).toNat : Int) + 0 = _
  omega

theorem hitsOf_turns (ts : List Turn) (part : RegionPart) :
    (scanner.turns {} ts).state.progress.hitsOf part =
      ((scanner.turns {} ts).journeys.flatMap Journey.delivered).countP (·.part == part) := by
  have h := (Counter.hits part).value_turns scanner (s := {}) rfl ts
  rw [(Counter.hits part).ofBlocks_eq_zero _ fun _ => rfl] at h
  cases part <;> exact h.trans (Int.zero_add _)

theorem blocksOf_turns (ts : List Turn) (kind : BlockKind) :
    (scanner.turns {} ts).state.progress.blocksOf kind =
      ((scanner.turns {} ts).journeys.flatMap scanner.visited).countP
        fun block => (scanner.visit block).isA kind := by
  have h := (Counter.blocks kind).value_turns scanner (s := {}) rfl ts
  rw [(Counter.blocks kind).ofSightings_eq_zero _ fun _ => rfl] at h
  cases kind <;> exact (h.trans (Int.add_zero _)).trans (Int.zero_add _)

theorem passed_turns (ts : List Turn) :
    Counter.passed.value (scanner.turns {} ts).state.progress =
      ((scanner.turns {} ts).journeys.flatMap scanner.visited).length := by
  have h := Counter.passed.value_turns scanner (s := {}) rfl ts
  rw [Counter.passed.ofSightings_eq_zero _ fun _ => rfl,
    scanner.passed_of_clear fun _ hblock => scanner.clear_of_mem_visited hblock] at h
  exact (h.trans (Int.add_zero _)).trans (Int.zero_add _)

/-- Turns that open the same journeys and bring all of them to their ends count the same. -/
theorem tally_turns_eq {ts others : List Turn}
    (hcomplete : ∀ j ∈ (scanner.turns {} ts).journeys, j.isComplete)
    (hothers : ∀ j ∈ (scanner.turns {} others).journeys, j.isComplete)
    (hperm : (ts.filterMap scanner.opened?).Perm (others.filterMap scanner.opened?)) :
    (scanner.turns {} ts).state.progress.tally =
      (scanner.turns {} others).state.progress.tally := by
  have hsame (k : Counter) : k.value (scanner.turns {} ts).state.progress =
      k.value (scanner.turns {} others).state.progress := by
    have hquiet : ScanState.IsQuiet {} := rfl
    rw [k.value_turns_of_complete scanner hquiet hcomplete,
      k.value_turns_of_complete scanner hquiet hothers]
    have hvisited := (hperm.flatMap_right fun range =>
      scanner.passable (blockRange range.1 range.2)).countP_eq fun block =>
        k.countsVisit (scanner.visit block)
    have hdelivered := (hperm.flatMap_right fun range =>
      (scanner.outlook (blockRange range.1 range.2)).sightings).countP_eq fun e =>
        k.countsPart e.part
    simp only [Counter.ofBlocks, Counter.ofSightings, hvisited, hdelivered]
  exact ScanStatus.tally_ext (fun part => hsame (.hits part)) fun kind => hsame (.blocks kind)

/-- Every visited block and every delivered sighting is counted, once and in its kind, whatever the
turns are.  The count of all blocks is the number of the visited ones, so a drained walk that does
not fail counts its range; and once all journeys are over, the counters are the same for any other
turns that open the same journeys. -/
theorem counters_account (ts : List Turn) :
    let party := scanner.turns {} ts
    let status := party.state.progress
    let visited := party.journeys.flatMap scanner.visited
    let delivered := party.journeys.flatMap Journey.delivered
    (∀ part, status.hitsOf part = delivered.countP (·.part == part)) ∧
    (∀ kind, status.blocksOf kind = visited.countP fun block => (scanner.visit block).isA kind) ∧
    status.scannedBlocks + status.allocatedBlocks + status.unreadableBlocks = visited.length ∧
    status.sparseBlocks ≤ status.scannedBlocks ∧
    (scanner.criteria.skipSparse = false → status.sparseBlocks = 0) ∧
    (scanner.criteria.skipUnreadable = false → status.unreadableBlocks = 0) ∧
    (∀ start stop, let harvest := scanner.drain (.unstarted start stop) {}
      let final := harvest.state.progress
      harvest.ending = .exhausted →
        final.scannedBlocks + final.allocatedBlocks + final.unreadableBlocks =
          max 0 (stop - start)) ∧
    (∀ others, let rivals := scanner.turns {} others
      (∀ j ∈ party.journeys, j.isComplete) → (∀ j ∈ rivals.journeys, j.isComplete) →
      (ts.filterMap scanner.opened?).Perm (others.filterMap scanner.opened?) →
        status.tally = rivals.state.progress.tally) := by
  intro party status visited delivered
  have hnone {kind : BlockKind} (h : ∀ block, (scanner.visit block).isA kind = false) :
      status.blocksOf kind = 0 :=
    (scanner.blocksOf_turns ts kind).trans
      (congrArg Nat.cast ((Counter.blocks kind).ofBlocks_eq_zero visited h))
  refine ⟨scanner.hitsOf_turns ts, scanner.blocksOf_turns ts, scanner.passed_turns ts, ?_,
    fun h => hnone (isA_sparse_eq_false h), fun h => hnone (isA_unreadable_eq_false h),
    fun _ _ => scanner.passed_drain, fun _ => scanner.tally_turns_eq⟩
  -- A sparse block is a block that was scanned.
  have hsparse := scanner.blocksOf_turns ts .sparse
  have hscanned := scanner.blocksOf_turns ts .scanned
  have hle := List.countP_mono_left (l := visited)
    fun block _ => (scanner.visit block).isA_scanned
  change status.sparseBlocks = _ at hsparse
  change status.scannedBlocks = _ at hscanned
  rw [hsparse, hscanned]
  exact Int.ofNat_le.2 hle

end Scanner

end RegionSalvage
