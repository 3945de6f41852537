import RegionSalvage.Proofs.Scan.Prospect

/-! # A scan is exact

A scan goes through the blocks that its criteria select (`ScanCriteria.Selects`), in ascending
order, and delivers what the classifier says about each of them (`Scanner.classified`): nothing for
a block in use, for one that cannot be read, and for a sparse one on the fast path.  It ends early
only at an obstacle, which is a free block that cannot be read and may not be passed over.

The scan tests blocks by a path of its own (`ScanCriteria.findings`); `findings_parts` says that it
agrees with the classifier.
-/

namespace RegionSalvage

/-! ## What is to be delivered -/

/-- The order in which the parts of one block are reported. -/
def RegionPart.rank : RegionPart → Nat
  | .timestamps => 0
  | .offsets => 1
  | .chunkHeader => 2

/-- Whether one sighting is reported before another: by block, and within a block by part. -/
def Sighting.Precedes (a b : Sighting) : Prop :=
  a.block < b.block ∨ a.block = b.block ∧ a.part.rank < b.part.rank

namespace ScanCriteria

/-- Whether a scan is to go through a block. -/
def Selects (criteria : ScanCriteria) (source : BlockSource) (block : Int) : Prop :=
  max source.firstIndex (criteria.startBlock.getD source.firstIndex) ≤ block ∧
    block < min source.blockCount (criteria.maxBlock.getD source.blockCount)

/-- The classifier's word on a byte string, at the thresholds of the criteria. -/
def kindsOf (criteria : ScanCriteria) (b : ByteArray) : SectorKinds :=
  .ofBytes b criteria.minTime criteria.maxTime criteria.sparseThreshold criteria.sparseUnit
    criteria.rejectDuplicates

/-- The parts that a scan is to report of a block with the given bytes. -/
def reportable (criteria : ScanCriteria) (b : ByteArray) : List RegionPart :=
  let kinds := criteria.kindsOf b
  if criteria.skipSparse && kinds.sparse then [] else kinds.parts

end ScanCriteria

namespace Scanner

/-- The sightings that are to be delivered of a block. -/
def classified (scanner : Scanner) (block : Int) : List Sighting :=
  if scanner.source.isAllocated block then []
  else match scanner.source.readBlock block with
    | .error _ => []
    | .ok bytes => sightingsOf block (scanner.criteria.reportable bytes)

/-- The error at which a scan has to stop when it comes to a block, if there is one. -/
def obstacle? (scanner : Scanner) (block : Int) : Option ReadError :=
  if scanner.source.isAllocated block || scanner.criteria.skipUnreadable then none
  else match scanner.source.readBlock block with
    | .error e => some e
    | .ok _ => none

end Scanner

/-- Where a scanner stood at every notice it has given. -/
def ScanState.positions (s : ScanState) : List Int := s.notices.toList.map ScanStatus.currentBlock

/-! ## The two ways to test a block -/

theorem ScanCriteria.findings_parts (criteria : ScanCriteria) (b : ByteArray) :
    (criteria.findings b).parts = criteria.reportable b := by
  let kinds := criteria.kindsOf b
  change Findings.parts (if criteria.skipSparse && kinds.sparse then .sparse
    else .tested kinds.parts) = if criteria.skipSparse && kinds.sparse then [] else kinds.parts
  cases criteria.skipSparse && kinds.sparse <;> rfl

theorem SectorKinds.pairwise_parts (k : SectorKinds) :
    k.parts.Pairwise fun a b => a.rank < b.rank := by
  obtain ⟨_, timestamps, offsets, chunkHeader⟩ := k
  cases timestamps <;> cases offsets <;> cases chunkHeader <;>
    simp [SectorKinds.parts, RegionPart.rank]

theorem ScanCriteria.pairwise_reportable (criteria : ScanCriteria) (b : ByteArray) :
    (criteria.reportable b).Pairwise fun a b => a.rank < b.rank := by
  simp only [reportable]
  split
  · exact .nil
  · exact SectorKinds.pairwise_parts _

namespace Scanner

/-! ## One block -/

theorem obstacle?_of_readBlock {scanner : Scanner} {block : Int} {bytes : ByteArray}
    (h : scanner.source.readBlock block = .ok bytes) : scanner.obstacle? block = none := by
  rw [obstacle?, h]
  exact ite_self none

theorem obstacle?_of_error {scanner : Scanner} {block : Int} {e : ReadError}
    (hfree : scanner.source.isAllocated block = false)
    (hstops : scanner.criteria.skipUnreadable = false)
    (h : scanner.source.readBlock block = .error e) : scanner.obstacle? block = some e := by
  simp only [obstacle?, hfree, hstops, h, Bool.or_self, Bool.false_eq_true, if_false]

theorem visit_of_obstacle {scanner : Scanner} {block : Int} {e : ReadError}
    (h : scanner.obstacle? block = some e) : scanner.visit block = .failed e := by
  unfold obstacle? at h
  split at h
  · exact nomatch h
  · next hpass =>
    simp only [Bool.or_eq_true, not_or, Bool.not_eq_true] at hpass
    split at h
    · next e' hread =>
      cases h
      simp [visit, hpass.1, hpass.2, hread]
    · exact nomatch h

theorem visit_ne_failed {scanner : Scanner} {block : Int} (h : scanner.obstacle? block = none)
    (e : ReadError) : scanner.visit block ≠ .failed e := by
  intro hvisit
  unfold visit at hvisit
  split at hvisit
  · exact nomatch hvisit
  · next hfree =>
    split at hvisit
    · next e' hread =>
      split at hvisit
      · exact nomatch hvisit
      · next hpass => simp [obstacle?, hfree, hpass, hread] at h
    · exact nomatch hvisit

theorem visit_eq_failed_iff {scanner : Scanner} {block : Int} {e : ReadError} :
    scanner.visit block = .failed e ↔ scanner.obstacle? block = some e := by
  refine ⟨fun hvisit => ?_, visit_of_obstacle⟩
  cases hobstacle : scanner.obstacle? block with
  | none => exact absurd hvisit (visit_ne_failed hobstacle e)
  | some other =>
    cases hvisit.symm.trans (visit_of_obstacle hobstacle)
    rfl

theorem sightingsOf_visit (scanner : Scanner) (block : Int) :
    sightingsOf block (scanner.visit block).parts = scanner.classified block := by
  unfold visit classified
  split
  · rfl
  · cases scanner.source.readBlock block with
    | error e =>
      simp only
      split <;> rfl
    | ok bytes => simp only [Visit.parts, ScanCriteria.findings_parts]

theorem mem_classified {scanner : Scanner} {block : Int} {e : Sighting}
    (h : e ∈ scanner.classified block) :
    e.block = block ∧ scanner.source.isAllocated block = false ∧
      ∃ bytes, scanner.source.readBlock block = .ok bytes := by
  unfold classified at h
  split at h
  · exact nomatch h
  · next hfree =>
    split at h
    · exact nomatch h
    · next bytes hread =>
      obtain ⟨part, _, rfl⟩ := List.mem_map.1 h
      exact ⟨rfl, by simpa using hfree, bytes, hread⟩

theorem pairwise_classified (scanner : Scanner) (block : Int) :
    (scanner.classified block).Pairwise Sighting.Precedes := by
  unfold classified
  split
  · exact .nil
  · split
    · exact .nil
    · refine List.pairwise_map.2 ((ScanCriteria.pairwise_reportable _ _).imp ?_)
      intro a b hrank
      exact .inr ⟨rfl, hrank⟩

theorem pairwise_flatMap_classified (scanner : Scanner) {blocks : List Int}
    (h : blocks.Pairwise (· < ·)) :
    (blocks.flatMap scanner.classified).Pairwise Sighting.Precedes := by
  refine List.pairwise_flatMap.2 ⟨fun block _ => scanner.pairwise_classified block, h.imp ?_⟩
  intro a b hlt x hx y hy
  refine .inl ?_
  rw [(mem_classified hx).1, (mem_classified hy).1]
  exact hlt

/-! ## Many blocks -/

theorem outlook_of_clear {scanner : Scanner} {blocks : List Int}
    (h : ∀ block ∈ blocks, scanner.obstacle? block = none) :
    scanner.outlook blocks = ⟨blocks.flatMap scanner.classified, .exhausted⟩ := by
  induction blocks with
  | nil => rfl
  | cons block rest ih =>
    rw [outlook]
    split
    · next e hvisit => exact absurd hvisit (visit_ne_failed (h block (by simp)) e)
    · rw [ih fun b hb => h b (by simp [hb]), sightingsOf_visit]
      rfl

theorem outlook_of_obstacle {scanner : Scanner} {before after : List Int} {block : Int}
    {e : ReadError} (hclear : ∀ b ∈ before, scanner.obstacle? b = none)
    (h : scanner.obstacle? block = some e) :
    scanner.outlook (before ++ block :: after) =
      ⟨before.flatMap scanner.classified, .failed e⟩ := by
  rw [outlook_append, outlook_of_clear hclear, outlook, visit_of_obstacle h]
  simp [Prospect.after]

/-- An obstacle in the blocks of a walk ends it. -/
theorem outlook_fails {scanner : Scanner} {blocks : List Int}
    (h : ∃ block ∈ blocks, scanner.obstacle? block ≠ none) :
    ∃ e, (scanner.outlook blocks).ending = .failed e := by
  induction blocks with
  | nil => simp at h
  | cons block rest ih =>
    rw [outlook]
    split
    · next e _ => exact ⟨e, rfl⟩
    · next hpassed =>
      -- The walk came through, so the obstacle lies behind this block.
      have hclear : scanner.obstacle? block = none := by
        cases hobstacle : scanner.obstacle? block with
        | none => rfl
        | some e => exact absurd (visit_of_obstacle hobstacle) (hpassed e)
      apply ih
      obtain ⟨b, hb, hne⟩ := h
      rcases List.mem_cons.1 hb with rfl | hb
      · exact absurd hclear hne
      · exact ⟨b, hb, hne⟩

theorem positions_finish (s : ScanState) (stop : Int) :
    (s.finish stop).positions = s.positions ++ [stop] := by
  simp [ScanState.finish, ScanState.giveNotice, ScanState.positions]

theorem positions_arrive (s : ScanState) (block : Int) (due : Bool) :
    (s.arrive block due).positions = s.positions ++ (if due then [block] else []) := by
  cases due <;> simp [ScanState.arrive, ScanState.giveNotice, ScanState.positions]

/-- A walk comes through blocks without obstacle, and gives notice at those where one is due. -/
theorem settle_clear_append {scanner : Scanner} (start stop : Int) {before : List Int}
    (h : ∀ block ∈ before, scanner.obstacle? block = none) (rest : List Int) (s : ScanState) :
    ∃ s' : ScanState,
      scanner.settle start stop (before ++ rest) s = scanner.settle start stop rest s' ∧
      s'.positions = s.positions ++ before.filter (scanner.criteria.isNoticeDue start) := by
  induction before generalizing s with
  | nil => exact ⟨s, rfl, by simp⟩
  | cons block before ih =>
    have hvisit := visit_ne_failed (h block (by simp))
    -- The state in which the walk leaves this block; counting changes no notices.
    let passed := ((s.arrive block (scanner.criteria.isNoticeDue start block)).countVisit
      (scanner.visit block)).countHits (scanner.visit block).parts
    obtain ⟨s', hsettle, hpositions⟩ := ih (fun b hb => h b (by simp [hb])) passed
    refine ⟨s', ?_, ?_⟩
    · rw [← hsettle, List.cons_append, settle]
      split
      · next e hfailed => exact absurd hfailed (hvisit e)
      · rfl
    · rw [hpositions]
      change (s.arrive block _).positions ++ _ = _
      rw [positions_arrive, List.filter_cons]
      split <;> simp

theorem positions_settle_of_clear {scanner : Scanner} (start stop : Int) {blocks : List Int}
    (h : ∀ block ∈ blocks, scanner.obstacle? block = none) (s : ScanState) :
    (scanner.settle start stop blocks s).positions =
      s.positions ++ blocks.filter (scanner.criteria.isNoticeDue start) ++ [stop] := by
  obtain ⟨s', hsettle, hpositions⟩ := settle_clear_append start stop h [] s
  rw [List.append_nil] at hsettle
  rw [hsettle, settle, positions_finish, hpositions]

theorem positions_settle_of_obstacle {scanner : Scanner} (start stop : Int)
    {before after : List Int} {block : Int} {e : ReadError}
    (hclear : ∀ b ∈ before, scanner.obstacle? b = none)
    (h : scanner.obstacle? block = some e) (s : ScanState) :
    (scanner.settle start stop (before ++ block :: after) s).positions =
      s.positions ++ (before ++ [block]).filter (scanner.criteria.isNoticeDue start) ++ [stop] := by
  obtain ⟨s', hsettle, hpositions⟩ := settle_clear_append start stop hclear (block :: after) s
  rw [hsettle, settle]
  simp only [visit_of_obstacle h]
  rw [positions_finish]
  change (s'.arrive block _).positions ++ _ = _
  rw [positions_arrive, hpositions, List.filter_append, List.filter_cons]
  split <;> simp

/-! ## The selected blocks -/

theorem mem_blockRange_bounds (criteria : ScanCriteria) (source : BlockSource) (block : Int) :
    block ∈ blockRange (criteria.bounds source).1 (criteria.bounds source).2 ↔
      criteria.Selects source block := by
  rw [mem_blockRange, ScanCriteria.Selects, ScanCriteria.bounds]
  cases criteria.startBlock <;> cases criteria.maxBlock <;>
    simp only [Option.getD_none, Option.getD_some] <;> omega

/-- The blocks in front of an element of an ascending list are the smaller ones. -/
theorem filter_lt_of_pairwise {before after : List Int} {block : Int}
    (h : (before ++ block :: after).Pairwise (· < ·)) :
    (before ++ block :: after).filter (· < block) = before ∧
      (before ++ block :: after).filter (· ≤ block) = before ++ [block] := by
  obtain ⟨-, hafter, hbefore⟩ := List.pairwise_append.1 h
  have hlarger : ∀ b ∈ after, block < b := (List.pairwise_cons.1 hafter).1
  have hsmaller : ∀ b ∈ before, b < block := fun b hb => hbefore b hb block (by simp)
  rw [List.filter_append, List.filter_append, List.filter_cons, List.filter_cons]
  constructor
  · rw [List.filter_eq_self.2 fun b hb => by simpa using hsmaller b hb,
      List.filter_eq_nil_iff.2 fun b hb => by have := hlarger b hb; simp; omega]
    simp
  · rw [List.filter_eq_self.2 fun b hb => by have := hsmaller b hb; simp; omega,
      List.filter_eq_nil_iff.2 fun b hb => by have := hlarger b hb; simp; omega]
    simp

/-- A walk over ascending blocks either finds no obstacle in them, or ends at the first one. -/
theorem outlook_ascending (scanner : Scanner) (start stop : Int) {blocks : List Int}
    (h : blocks.Pairwise (· < ·)) (s : ScanState) :
    let isDue := scanner.criteria.isNoticeDue start
    let after := scanner.settle start stop blocks s
    (∀ block ∈ blocks, scanner.obstacle? block = none) ∧
        scanner.outlook blocks = ⟨blocks.flatMap scanner.classified, .exhausted⟩ ∧
        after.positions = s.positions ++ blocks.filter isDue ++ [stop] ∨
      ∃ block ∈ blocks, ∃ e,
        scanner.obstacle? block = some e ∧
        (∀ b ∈ blocks, b < block → scanner.obstacle? b = none) ∧
        scanner.outlook blocks =
          ⟨(blocks.filter (· < block)).flatMap scanner.classified, .failed e⟩ ∧
        after.positions = s.positions ++ (blocks.filter (· ≤ block)).filter isDue ++ [stop] := by
  -- The first obstacle in the list is the lowest one, and what is in front of it lies below it.
  cases hfind : blocks.find? fun b => (scanner.obstacle? b).isSome with
  | none =>
    have hclear : ∀ b ∈ blocks, scanner.obstacle? b = none := by
      simpa using List.find?_eq_none.1 hfind
    exact .inl ⟨hclear, outlook_of_clear hclear, positions_settle_of_clear start stop hclear s⟩
  | some block =>
    obtain ⟨hsome, before, after, rfl, hbefore⟩ := List.find?_eq_some_iff_append.1 hfind
    obtain ⟨e, he⟩ := Option.isSome_iff_exists.1 hsome
    have hclear : ∀ b ∈ before, scanner.obstacle? b = none := by simpa using hbefore
    obtain ⟨hlt, hle⟩ := filter_lt_of_pairwise h
    refine .inr ⟨block, by simp, e, he, ?_, ?_, ?_⟩
    · intro b hb hbelow
      apply hclear
      rw [← hlt]
      exact List.mem_filter.2 ⟨hb, by simpa using hbelow⟩
    · rw [hlt]
      exact outlook_of_obstacle hclear he
    · rw [hle]
      exact positions_settle_of_obstacle start stop hclear he s

theorem drain_scan_eq (scanner : Scanner) (s : ScanState) :
    let bounds := scanner.criteria.bounds scanner.source
    let blocks := blockRange bounds.1 bounds.2
    let harvest := scanner.drain scanner.scan s
    harvest.sightings.toList = (scanner.outlook blocks).sightings ∧
      harvest.ending = (scanner.outlook blocks).ending ∧
      harvest.state =
        scanner.settle bounds.1 bounds.2 blocks (s.setOut bounds.1 bounds.2) :=
  scanner.drain_eq scanner.scan s

/-! ## Scans that are complete, and scans that are not -/

/-- The blocks that a scan goes through unless it fails. -/
def itinerary (scanner : Scanner) : List Int :=
  blockRange (scanner.criteria.bounds scanner.source).1 (scanner.criteria.bounds scanner.source).2

/-- Everything that a scan brings. -/
def harvest (scanner : Scanner) (s : ScanState) : Harvest := scanner.drain scanner.scan s

theorem harvest_eq (scanner : Scanner) (s : ScanState) :
    (scanner.harvest s).sightings.toList = (scanner.outlook scanner.itinerary).sightings ∧
      (scanner.harvest s).ending = (scanner.outlook scanner.itinerary).ending := by
  obtain ⟨hsightings, hending, -⟩ := scanner.drain_scan_eq s
  exact ⟨hsightings, hending⟩

theorem harvest_of_clear {scanner : Scanner}
    (h : ∀ block ∈ scanner.itinerary, scanner.obstacle? block = none) (s : ScanState) :
    (scanner.harvest s).sightings.toList = scanner.itinerary.flatMap scanner.classified ∧
      (scanner.harvest s).ending = .exhausted := by
  obtain ⟨hsightings, hending⟩ := scanner.harvest_eq s
  rw [outlook_of_clear h] at hsightings hending
  exact ⟨hsightings, hending⟩

theorem collect_of_clear {scanner : Scanner}
    (h : ∀ block ∈ scanner.itinerary, scanner.obstacle? block = none) :
    scanner.collect = .ok (scanner.itinerary.flatMap scanner.classified) := by
  obtain ⟨hsightings, hending⟩ := harvest_of_clear h {}
  rw [harvest] at hsightings hending
  simp only [collect, hending, hsightings]

theorem collect_fails {scanner : Scanner}
    (h : ∃ block ∈ scanner.itinerary, scanner.obstacle? block ≠ none) :
    ∃ e, scanner.collect = .error e := by
  obtain ⟨_, hending, _⟩ := scanner.drain_scan_eq {}
  obtain ⟨e, he⟩ := outlook_fails h
  rw [← itinerary, he] at hending
  exact ⟨e, by simp only [collect, hending]⟩

theorem collect_eq_ok_iff {scanner : Scanner} {sightings : List Sighting} :
    scanner.collect = .ok sightings ↔
      (∀ block ∈ scanner.itinerary, scanner.obstacle? block = none) ∧
        sightings = scanner.itinerary.flatMap scanner.classified := by
  by_cases h : ∀ block ∈ scanner.itinerary, scanner.obstacle? block = none
  · rw [collect_of_clear h, Except.ok.injEq]
    exact ⟨fun heq => ⟨h, heq.symm⟩, fun heq => heq.2.symm⟩
  · obtain ⟨e, he⟩ := collect_fails (by simpa using h)
    rw [he]
    exact ⟨nofun, fun hboth => absurd hboth.1 h⟩

theorem collect_eq_error_iff {scanner : Scanner} :
    (∃ e, scanner.collect = .error e) ↔
      ∃ block ∈ scanner.itinerary, scanner.obstacle? block ≠ none := by
  refine ⟨fun ⟨e, he⟩ => ?_, collect_fails⟩
  by_cases h : ∀ block ∈ scanner.itinerary, scanner.obstacle? block = none
  · rw [collect_of_clear h] at he
    exact nomatch he
  · simpa using h

/-! ## The whole scan -/

/-- A scan is exact.  The blocks it selects form an ascending list; it delivers what the classifier
says about each of them, in that order, gives notice where one is due, and ends normally unless
there is an obstacle.  Then it ends at the first one, and has delivered what lies in front. -/
theorem drain_scan_exact (scanner : Scanner) (s : ScanState) :
    let bounds := scanner.criteria.bounds scanner.source
    let isDue := scanner.criteria.isNoticeDue bounds.1
    let harvest := scanner.drain scanner.scan s
    let sightings := harvest.sightings.toList
    ∃ selected : List Int,
      selected.Pairwise (· < ·) ∧
      (∀ block, block ∈ selected ↔ scanner.criteria.Selects scanner.source block) ∧
      ((∀ block ∈ selected, scanner.obstacle? block = none) ∧
          harvest.ending = .exhausted ∧
          sightings = selected.flatMap scanner.classified ∧
          harvest.state.positions = s.positions ++ selected.filter isDue ++ [bounds.2] ∨
        ∃ block ∈ selected, ∃ e,
          scanner.obstacle? block = some e ∧
          (∀ b ∈ selected, b < block → scanner.obstacle? b = none) ∧
          harvest.ending = .failed e ∧
          sightings = (selected.filter (· < block)).flatMap scanner.classified ∧
          harvest.state.positions =
            s.positions ++ (selected.filter (· ≤ block)).filter isDue ++ [bounds.2]) ∧
      sightings.Pairwise Sighting.Precedes ∧
      ∀ e ∈ sightings, e.block ∈ selected ∧ scanner.source.isAllocated e.block = false ∧
        ∃ bytes, scanner.source.readBlock e.block = .ok bytes := by
  intro bounds isDue harvest sightings
  obtain ⟨hsightings, hending, hstate⟩ := scanner.drain_scan_eq s
  have hascends := pairwise_blockRange bounds.1 bounds.2
  have hcourse := scanner.outlook_ascending bounds.1 bounds.2 hascends
    (s.setOut bounds.1 bounds.2)
  refine ⟨blockRange bounds.1 bounds.2, hascends,
    mem_blockRange_bounds scanner.criteria scanner.source, ?_, ?_⟩
  · rcases hcourse with ⟨hclear, houtlook, hpositions⟩ |
      ⟨block, hmem, e, he, hclear, houtlook, hpositions⟩
    · rw [houtlook] at hsightings hending
      exact .inl ⟨hclear, hending, hsightings, by rw [hstate]; exact hpositions⟩
    · rw [houtlook] at hsightings hending
      exact .inr ⟨block, hmem, e, he, hclear, hending, hsightings,
        by rw [hstate]; exact hpositions⟩
  · -- Either way the sightings are those of some of the selected blocks, in their order.
    have hpassed : ∃ passed : List Int, passed.Sublist (blockRange bounds.1 bounds.2) ∧
        sightings = passed.flatMap scanner.classified := by
      rcases hcourse with ⟨_, houtlook, _⟩ | ⟨block, _, _, _, _, houtlook, _⟩
      · exact ⟨_, .refl _, hsightings.trans (congrArg Prospect.sightings houtlook)⟩
      · exact ⟨_, List.filter_sublist, hsightings.trans (congrArg Prospect.sightings houtlook)⟩
    obtain ⟨passed, hsub, hpassed⟩ := hpassed
    rw [hpassed]
    refine ⟨scanner.pairwise_flatMap_classified (hascends.sublist hsub), ?_⟩
    intro e he
    obtain ⟨block, hblock, heblock⟩ := List.mem_flatMap.1 he
    obtain ⟨rfl, hfree, hread⟩ := mem_classified heblock
    exact ⟨hsub.subset hblock, hfree, hread⟩

end Scanner

end RegionSalvage
