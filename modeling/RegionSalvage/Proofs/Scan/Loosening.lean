import RegionSalvage.Proofs.Region.Signature
import RegionSalvage.Proofs.Scan.Ascent

/-! # Looser criteria lose no sighting

Each test of a sector grants more when its own parameter grants more: a wider window, tolerance of
duplicates, a sparseness that fewer sectors have.  So looser criteria report of every block what
stricter ones report, and perhaps more (`reportable_sublist_of_loosens`).  Which blocks can be read
has nothing to do with any of this: both scans come through to the end, or they fail at one block.
-/

namespace RegionSalvage

namespace ScanCriteria

/-- The criteria `loose` select the same blocks as `strict` and ask less of each of them. -/
structure Loosens (loose strict : ScanCriteria) : Prop where
  startBlock_eq : loose.startBlock = strict.startBlock
  maxBlock_eq : loose.maxBlock = strict.maxBlock
  skipUnreadable_eq : loose.skipUnreadable = strict.skipUnreadable
  window : ∀ time : Int, strict.minTime ≤ time → time ≤ strict.maxTime →
    loose.minTime ≤ time ∧ time ≤ loose.maxTime
  duplicates : loose.rejectDuplicates = true → strict.rejectDuplicates = true
  /-- Where the loose criteria drop sparse sectors, so do the strict ones, and more of them. -/
  sparse : loose.skipSparse = true →
    strict.skipSparse = true ∧ loose.sparseThreshold ≤ strict.sparseThreshold ∧
      (loose.sparseUnit = strict.sparseUnit ∨
        strict.sparseUnit = .word ∧ loose.sparseUnit = .byte)

theorem loosens_bytes (criteria : ScanCriteria) :
    Loosens { criteria with skipSparse := true, sparseUnit := .byte }
      { criteria with skipSparse := true, sparseUnit := .word } where
  startBlock_eq := rfl
  maxBlock_eq := rfl
  skipUnreadable_eq := rfl
  window _ hmin hmax := ⟨hmin, hmax⟩
  duplicates := id
  sparse _ := ⟨rfl, Int.le_refl _, .inr ⟨rfl, rfl⟩⟩

theorem loosens_all (criteria : ScanCriteria) (unit : CountUnit) :
    Loosens { criteria with skipSparse := false }
      { criteria with skipSparse := true, sparseUnit := unit } where
  startBlock_eq := rfl
  maxBlock_eq := rfl
  skipUnreadable_eq := rfl
  window _ hmin hmax := ⟨hmin, hmax⟩
  duplicates := id
  sparse := nofun

variable {loose strict : ScanCriteria} {b : ByteArray}

/-! ## One sector -/

theorem isTimestampTable_of_loosens (h : loose.Loosens strict)
    (htable : isTimestampTable b strict.minTime strict.maxTime = true) :
    isTimestampTable b loose.minTime loose.maxTime = true := by
  obtain ⟨hsome, hwindow⟩ := isTimestampTable_iff.1 htable
  refine isTimestampTable_iff.2 ⟨hsome, fun field hfield hne => ?_⟩
  obtain ⟨hmin, hmax⟩ := hwindow field hfield hne
  exact h.window field hmin hmax

theorem isOffsetTable_of_loosens (h : loose.Loosens strict)
    (htable : isOffsetTable b strict.rejectDuplicates = true) :
    isOffsetTable b loose.rejectDuplicates = true := by
  obtain ⟨hoffsets, hpopulated, hdistinct, hfit⟩ := isOffsetTable_iff.1 htable
  exact isOffsetTable_iff.2
    ⟨hoffsets, hpopulated, fun hreject => hdistinct (h.duplicates hreject), hfit⟩

theorem isSparse_of_loosens (h : loose.Loosens strict) (hskip : loose.skipSparse = true)
    (hsparse : isSparse b loose.sparseThreshold loose.sparseUnit = true) :
    isSparse b strict.sparseThreshold strict.sparseUnit = true := by
  obtain ⟨-, hthreshold, hunit⟩ := h.sparse hskip
  have hcount : nonzeroCount b strict.sparseUnit ≤ nonzeroCount b loose.sparseUnit := by
    rcases hunit with hsame | ⟨hword, hbyte⟩
    · rw [hsame]
    · rw [hword, hbyte]
      exact nonzeroCount_word_le b
  simp only [isSparse, decide_eq_true_eq] at hsparse ⊢
  omega

theorem parts_sublist_of_loosens (h : loose.Loosens strict) (b : ByteArray) :
    (strict.kindsOf b).parts.Sublist (loose.kindsOf b).parts := by
  have hif {p q : Bool} (part : RegionPart) (himp : p = true → q = true) :
      (if p then [part] else []).Sublist (if q then [part] else []) := by
    cases p with
    | false => exact List.nil_sublist _
    | true => rw [himp rfl]
  have htimes := hif .timestamps (isTimestampTable_of_loosens h (b := b))
  have hoffsets := hif .offsets (isOffsetTable_of_loosens h (b := b))
  exact (htimes.append hoffsets).append (.refl _)

theorem reportable_sublist_of_loosens (h : loose.Loosens strict) (b : ByteArray) :
    (strict.reportable b).Sublist (loose.reportable b) := by
  have hparts := parts_sublist_of_loosens h b
  simp only [reportable]
  split
  · exact List.nil_sublist _
  · next hkept =>
    -- What the loose criteria drop, the strict ones would have dropped too.
    rw [if_neg]
    · exact hparts
    · intro hdropped
      obtain ⟨hskip, hsparse⟩ := Bool.and_eq_true_iff.1 hdropped
      exact hkept (Bool.and_eq_true_iff.2 ⟨(h.sparse hskip).1, isSparse_of_loosens h hskip hsparse⟩)

end ScanCriteria

namespace Scanner

variable {loose strict : ScanCriteria} (source : BlockSource)

/-! ## A scan -/

theorem classified_sublist_of_loosens (h : loose.Loosens strict) (block : Int) :
    (classified ⟨source, strict⟩ block).Sublist (classified ⟨source, loose⟩ block) := by
  simp only [classified]
  split
  · exact .refl _
  · split
    · exact .refl _
    · exact (ScanCriteria.reportable_sublist_of_loosens h _).map _

theorem itinerary_eq_of_loosens (h : loose.Loosens strict) :
    itinerary ⟨source, loose⟩ = itinerary ⟨source, strict⟩ := by
  simp only [itinerary, ScanCriteria.bounds, h.startBlock_eq, h.maxBlock_eq]

theorem obstacle?_eq_of_loosens (h : loose.Loosens strict) (block : Int) :
    obstacle? ⟨source, loose⟩ block = obstacle? ⟨source, strict⟩ block := by
  simp only [obstacle?, h.skipUnreadable_eq]

theorem outlook_of_passed {scanner : Scanner} {block : Int}
    (h : scanner.obstacle? block = none) (rest : List Int) :
    scanner.outlook (block :: rest) = (scanner.outlook rest).after (scanner.classified block) := by
  rw [outlook]
  split
  · next e hfailed => exact absurd hfailed (visit_ne_failed h e)
  · rw [sightingsOf_visit]

theorem outlook_of_loosens (h : loose.Loosens strict) (blocks : List Int) :
    (outlook ⟨source, strict⟩ blocks).sightings.Sublist
        (outlook ⟨source, loose⟩ blocks).sightings ∧
      (outlook ⟨source, strict⟩ blocks).ending = (outlook ⟨source, loose⟩ blocks).ending := by
  -- The scans go through the blocks side by side, and an obstacle stops both of them.
  induction blocks with
  | nil => exact ⟨.slnil, rfl⟩
  | cons block rest ih =>
    have hsame := obstacle?_eq_of_loosens source h block
    cases hobstacle : obstacle? ⟨source, strict⟩ block with
    | some e =>
      rw [outlook, outlook, visit_of_obstacle hobstacle, visit_of_obstacle (hsame.trans hobstacle)]
      exact ⟨.slnil, rfl⟩
    | none =>
      rw [outlook_of_passed hobstacle, outlook_of_passed (hsame.trans hobstacle)]
      exact ⟨(classified_sublist_of_loosens source h block).append ih.1, ih.2⟩

/-- The scan fails at `block`: of the blocks that it selects this is the first whose visit fails. -/
def FailsAt (scanner : Scanner) (block : Int) (e : ReadError) : Prop :=
  block ∈ scanner.itinerary ∧ scanner.visit block = .failed e ∧
    ∀ b ∈ scanner.itinerary, b < block → ∀ e', scanner.visit b ≠ .failed e'

theorem failsAt_of_loosens (h : loose.Loosens strict) {block : Int} {e : ReadError}
    (hfails : FailsAt ⟨source, strict⟩ block e) : FailsAt ⟨source, loose⟩ block e := by
  simp only [FailsAt, ne_eq, visit_eq_failed_iff, itinerary_eq_of_loosens source h,
    obstacle?_eq_of_loosens source h] at hfails ⊢
  exact hfails

/-- A scan comes to its end, or it fails at some block. -/
theorem harvest_ending (scanner : Scanner) (s : ScanState) :
    (scanner.harvest s).ending = .exhausted ∨
      ∃ block e, scanner.FailsAt block e ∧ (scanner.harvest s).ending = .failed e := by
  have hascends : scanner.itinerary.Pairwise (· < ·) := pairwise_blockRange _ _
  rw [(scanner.harvest_eq s).2]
  rcases scanner.outlook_ascending 0 0 hascends {} with ⟨-, houtlook, -⟩ |
    ⟨block, hmem, e, hobstacle, hclear, houtlook, -⟩
  · exact .inl (congrArg Prospect.ending houtlook)
  · refine .inr ⟨block, e, ⟨hmem, visit_of_obstacle hobstacle, fun b hb hlt => ?_⟩,
      congrArg Prospect.ending houtlook⟩
    exact visit_ne_failed (hclear b hb hlt)

theorem harvest_of_obstacle {scanner : Scanner} {before rest : List Int} {block : Int}
    {e : ReadError} (hblocks : scanner.itinerary = before ++ block :: rest)
    (hclear : ∀ b ∈ before, scanner.obstacle? b = none)
    (hobstacle : scanner.obstacle? block = some e) (s : ScanState) :
    (scanner.harvest s).sightings.toList = before.flatMap scanner.classified ∧
      (scanner.harvest s).ending = .failed e := by
  obtain ⟨hsightings, hending⟩ := scanner.harvest_eq s
  rw [hblocks, outlook_of_obstacle hclear hobstacle] at hsightings hending
  exact ⟨hsightings, hending⟩

theorem harvest_of_loosens (h : loose.Loosens strict) (s₁ s₂ : ScanState) :
    (harvest ⟨source, strict⟩ s₁).sightings.toList.Sublist
        (harvest ⟨source, loose⟩ s₂).sightings.toList ∧
      (harvest ⟨source, strict⟩ s₁).ending = (harvest ⟨source, loose⟩ s₂).ending := by
  obtain ⟨htight, hstop₁⟩ := harvest_eq ⟨source, strict⟩ s₁
  obtain ⟨hwide, hstop₂⟩ := harvest_eq ⟨source, loose⟩ s₂
  rw [htight, hwide, hstop₁, hstop₂, itinerary_eq_of_loosens source h]
  exact outlook_of_loosens source h _

/-- Looser criteria lose no sighting: what a scan delivers with the stricter ones is delivered with
the looser ones too, in the same order.  Either both scans come to their ends, or both fail, with
one error at one block.  Counting sparseness in words is stricter than counting it in bytes, and not
looking for it is the loosest of all. -/
theorem harvest_sublist_of_loosens (s₁ s₂ s₃ : ScanState) :
    (∀ loose strict : ScanCriteria, loose.Loosens strict →
      (harvest ⟨source, strict⟩ s₁).sightings.toList.Sublist
        (harvest ⟨source, loose⟩ s₂).sightings.toList ∧
      ((harvest ⟨source, strict⟩ s₁).ending = .exhausted ∧
          (harvest ⟨source, loose⟩ s₂).ending = .exhausted ∨
        ∃ block e, FailsAt ⟨source, strict⟩ block e ∧ FailsAt ⟨source, loose⟩ block e ∧
          (harvest ⟨source, strict⟩ s₁).ending = .failed e ∧
          (harvest ⟨source, loose⟩ s₂).ending = .failed e)) ∧
    ∀ criteria : ScanCriteria,
      let words := { criteria with skipSparse := true, sparseUnit := .word }
      let bytes := { criteria with skipSparse := true, sparseUnit := .byte }
      let all := { criteria with skipSparse := false }
      (harvest ⟨source, words⟩ s₁).sightings.toList.Sublist
          (harvest ⟨source, bytes⟩ s₂).sightings.toList ∧
        (harvest ⟨source, bytes⟩ s₂).sightings.toList.Sublist
          (harvest ⟨source, all⟩ s₃).sightings.toList := by
  refine ⟨fun loose strict h => ?_, fun criteria => ⟨?_, ?_⟩⟩
  · obtain ⟨hsublist, hending⟩ := harvest_of_loosens source h s₁ s₂
    refine ⟨hsublist, ?_⟩
    rcases harvest_ending ⟨source, strict⟩ s₁ with hend | ⟨block, e, hfails, hend⟩
    · exact .inl ⟨hend, hending.symm.trans hend⟩
    · exact .inr ⟨block, e, hfails, failsAt_of_loosens source h hfails, hend,
        hending.symm.trans hend⟩
  · exact (harvest_of_loosens source (ScanCriteria.loosens_bytes criteria) s₁ s₂).1
  · exact (harvest_of_loosens source (ScanCriteria.loosens_all criteria .byte) s₂ s₃).1

theorem harvest_sublist_of_loosens_oneBadBlock :
    let source := BlockSource.inMemory twoHeaders [] 0 { unreadable := [1] }
    let loose : ScanCriteria := { maxTime := 2000000000, skipSparse := false }
    let strict : ScanCriteria := { maxTime := 2000000000, sparseUnit := .word }
    loose.Loosens strict ∧
      (harvest ⟨source, strict⟩ {}).sightings.toList.Sublist
        (harvest ⟨source, loose⟩ {}).sightings.toList ∧
      (harvest ⟨source, loose⟩ {}).sightings.toList = [⟨0, .chunkHeader⟩] ∧
      ∃ block e, FailsAt ⟨source, strict⟩ block e ∧ FailsAt ⟨source, loose⟩ block e ∧
        (harvest ⟨source, strict⟩ {}).ending = .failed e ∧
        (harvest ⟨source, loose⟩ {}).ending = .failed e := by
  have hsize : twoHeaders.size = 8192 := size_sparse ..
  have hchunk := startsChunk_twoHeaders (.inl rfl)
  generalize twoHeaders = image at hsize hchunk ⊢
  intro source loose strict
  have hloosens : loose.Loosens strict :=
    ScanCriteria.loosens_all { maxTime := 2000000000 } .word
  obtain ⟨hsublist, hends⟩ := (harvest_sublist_of_loosens source {} {} {}).1 loose strict hloosens
  have hfirst : source.readBlock 0 = .ok (BlockSource.imageBytes image 0 1) :=
    BlockSource.readBlock_inMemory_of_not_mem _ _ (by decide) (by decide) (by omega)
  -- The header in block 0 is seen by the loose scan, and both scans fail at block 1.
  have hsees : classified ⟨source, loose⟩ 0 = [⟨0, .chunkHeader⟩] :=
    classified_of_startsChunk (show 0x02789CFF < earliestTime by decide) rfl rfl hfirst hchunk
  have hclear : ∀ block ∈ [(0 : Int)], obstacle? ⟨source, loose⟩ block = none := by
    intro block hblock
    rw [List.mem_singleton.1 hblock]
    exact obstacle?_of_readBlock hfirst
  have hbad : obstacle? ⟨source, loose⟩ 1 = some .badSector := rfl
  have hblocks : itinerary ⟨source, loose⟩ = [0] ++ 1 :: [] := by
    have hbounds : loose.bounds source = (0, 2) := by
      simp only [ScanCriteria.bounds, loose, source, BlockSource.inMemory, hsize]
      rfl
    rw [itinerary, hbounds]
    rfl
  obtain ⟨hwide, hending⟩ := harvest_of_obstacle hblocks hclear hbad {}
  rw [List.flatMap_singleton, hsees] at hwide
  refine ⟨hloosens, hsublist, hwide, ?_⟩
  rcases hends with ⟨-, hend⟩ | hfails
  · cases hend.symm.trans hending
  · exact hfails

end Scanner

end RegionSalvage
