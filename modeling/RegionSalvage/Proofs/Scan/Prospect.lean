import RegionSalvage.Proofs.Block.Consecutive
import RegionSalvage.Scan.Walk

/-! # What a walk has in prospect

Everything a walk will ever deliver is settled before the first pull: it depends on the source, the
criteria and the blocks ahead, and not on the state that all walks of a scanner share.
`Scanner.prospect` is that list of deliveries, together with how it ends; `Scanner.aftermath` is the
state once all of it has been delivered.

* `prospect_pull`, `aftermath_pull` — a pull takes the first sighting off the prospect and leaves
  the aftermath as it was.
* `takeInto_sightings`, `takeInto_past_end` — what a series of pulls brings.
* `drain_eq` — a drained walk has delivered its prospect.  The point is that the budget of a drain
  is larger than any prospect (`length_prospect_lt_budget`).
* `outlook_append` — walks over adjacent blocks compose.
-/

namespace RegionSalvage

/-! ## Prospects -/

/-- Deliveries that are still to come, and how they end. -/
structure Prospect where
  sightings : List Sighting
  ending : Scanner.Ending

/-- A prospect with further sightings in front. -/
def Prospect.after (earlier : List Sighting) (p : Prospect) : Prospect :=
  ⟨earlier ++ p.sightings, p.ending⟩

@[simp] theorem Prospect.after_nil (p : Prospect) : p.after [] = p := rfl

@[simp] theorem Prospect.after_after (xs ys : List Sighting) (p : Prospect) :
    (p.after ys).after xs = p.after (xs ++ ys) := by
  simp [Prospect.after]

/-- The sightings of `block` for the given parts. -/
def sightingsOf (block : Int) (parts : List RegionPart) : List Sighting := parts.map (⟨block, ·⟩)

/-- The parts that a visit sights. -/
def Visit.parts : Visit → List RegionPart
  | .found findings => findings.parts
  | .allocated | .unreadable | .failed _ => []

namespace Scanner

/-- What a walk over `blocks`, in this order, delivers. -/
def outlook (scanner : Scanner) : List Int → Prospect
  | [] => ⟨[], .exhausted⟩
  | block :: rest =>
    match scanner.visit block with
    | .failed e => ⟨[], .failed e⟩
    | visit => (scanner.outlook rest).after (sightingsOf block visit.parts)

/-- What a walk will deliver from where it stands. -/
def prospect (scanner : Scanner) : Walk → Prospect
  | .unstarted start stop => scanner.outlook (blockRange start stop)
  | .paused _ stop block pending left =>
    (scanner.outlook (blocksBefore stop left)).after (sightingsOf block pending)
  | .ended => ⟨[], .exhausted⟩

/-- What was in prospect before a pull brought this. -/
def prospectOfPull (scanner : Scanner) : Pull → Prospect
  | .sighting e rest => (scanner.prospect rest).after [e]
  | .exhausted => ⟨[], .exhausted⟩
  | .failed e => ⟨[], .failed e⟩

theorem prospect_deliver (scanner : Scanner) (start stop block : Int) (part : RegionPart)
    (pending : List RegionPart) (left : Nat) (s : ScanState) :
    scanner.prospectOfPull (deliver start stop block part pending left s).1 =
      (scanner.outlook (blocksBefore stop left)).after (sightingsOf block (part :: pending)) := by
  simp [deliver, prospectOfPull, prospect, sightingsOf]

/-- Advancing delivers the first sighting in the blocks ahead, wherever it is. -/
theorem prospect_advance (scanner : Scanner) (start stop : Int) (left : Nat) (s : ScanState) :
    scanner.prospectOfPull (scanner.advance start stop left s).1 =
      scanner.outlook (blocksBefore stop left) := by
  induction left generalizing s with
  | zero => rfl
  | succ left ih =>
    rw [blocksBefore_succ, advance, outlook]
    -- Parts to deliver and failures stop the advance; every other visit leads to the next block.
    generalize scanner.visit (stop - (left + 1 : Nat)) = visit
    match visit with
    | .allocated | .unreadable | .found .sparse | .found (.tested []) =>
      simp [ih, Visit.parts, Findings.parts, sightingsOf]
    | .failed e => rfl
    | .found (.tested (part :: pending)) => exact prospect_deliver ..

/-- A pull takes the first sighting off the prospect of a walk, whatever the shared state is. -/
theorem prospect_pull (scanner : Scanner) (walk : Walk) (s : ScanState) :
    scanner.prospectOfPull (scanner.pull walk s).1 = scanner.prospect walk := by
  match walk with
  | .unstarted start stop =>
    rw [pull, prospect_advance, prospect, blocksBefore_toNat]
  | .paused start stop block [] left =>
    rw [pull, prospect_advance, prospect]
    rfl
  | .paused start stop block (part :: pending) left => exact prospect_deliver ..
  | .ended => rfl

end Scanner

/-! ## What becomes of the state -/

namespace ScanState

/-- Counts a visit. -/
def countVisit (s : ScanState) (visit : Visit) : ScanState :=
  { s with progress := s.progress.countVisit visit }

/-- Counts the delivery of sightings of the given parts, one after the other. -/
def countHits (s : ScanState) (parts : List RegionPart) : ScanState :=
  { s with progress := parts.foldl ScanStatus.countHit s.progress }

@[simp] theorem countHits_nil (s : ScanState) : s.countHits [] = s := rfl

end ScanState

namespace Scanner

/-- The state after a walk from `start` to `stop` has come through the blocks that are left. -/
def settle (scanner : Scanner) (start stop : Int) : List Int → ScanState → ScanState
  | [], s => s.finish stop
  | block :: rest, s =>
    let visit := scanner.visit block
    let s := (s.arrive block (scanner.criteria.isNoticeDue start block)).countVisit visit
    match visit with
    | .failed _ => s.finish stop
    | visit => scanner.settle start stop rest (s.countHits visit.parts)

/-- The state after everything that a walk has in prospect is delivered. -/
def aftermath (scanner : Scanner) (walk : Walk) (s : ScanState) : ScanState :=
  match walk with
  | .unstarted start stop =>
    scanner.settle start stop (blockRange start stop) (s.setOut start stop)
  | .paused start stop _ pending left =>
    scanner.settle start stop (blocksBefore stop left) (s.countHits pending)
  | .ended => s

/-- The state after everything that is in prospect behind a pull is delivered. -/
def aftermathOfPull (scanner : Scanner) : Pull × ScanState → ScanState
  | (.sighting _ rest, s) => scanner.aftermath rest s
  | (.exhausted, s) | (.failed _, s) => s

theorem aftermath_deliver (scanner : Scanner) (start stop block : Int) (part : RegionPart)
    (pending : List RegionPart) (left : Nat) (s : ScanState) :
    scanner.aftermathOfPull (deliver start stop block part pending left s) =
      scanner.settle start stop (blocksBefore stop left) (s.countHits (part :: pending)) := rfl

theorem aftermath_advance (scanner : Scanner) (start stop : Int) (left : Nat) (s : ScanState) :
    scanner.aftermathOfPull (scanner.advance start stop left s) =
      scanner.settle start stop (blocksBefore stop left) s := by
  induction left generalizing s with
  | zero => rfl
  | succ left ih =>
    rw [blocksBefore_succ, advance, settle]
    generalize scanner.visit (stop - (left + 1 : Nat)) = visit
    match visit with
    | .allocated | .unreadable | .found .sparse | .found (.tested []) => exact ih _
    | .failed e => rfl
    | .found (.tested (part :: pending)) => exact aftermath_deliver ..

/-- A pull does its part of what a walk has yet to do to the state, and leaves the rest. -/
theorem aftermath_pull (scanner : Scanner) (walk : Walk) (s : ScanState) :
    scanner.aftermathOfPull (scanner.pull walk s) = scanner.aftermath walk s := by
  match walk with
  | .unstarted start stop =>
    rw [pull, aftermath_advance, aftermath, blocksBefore_toNat]
  | .paused start stop block [] left =>
    rw [pull, aftermath_advance, aftermath, ScanState.countHits_nil]
  | .paused start stop block (part :: pending) left => exact aftermath_deliver ..
  | .ended => rfl

/-! ## Series of pulls -/

/-- A series of pulls takes sightings off the front of the prospect. -/
theorem takeInto_sightings (scanner : Scanner) (n : Nat) (acc : Array Sighting) (walk : Walk)
    (s : ScanState) :
    (scanner.takeInto n acc walk s).sightings.toList =
      acc.toList ++ (scanner.prospect walk).sightings.take n := by
  induction n generalizing acc walk s with
  | zero => simp [takeInto]
  | succ n ih =>
    have hpull := scanner.prospect_pull walk s
    rw [takeInto]
    -- The pull is rewritten in `hpull` too: it says what the prospect looked like before.
    match h : scanner.pull walk s with
    | (.sighting e rest, s') =>
      rw [h] at hpull
      rw [← hpull]
      simp [ih, prospectOfPull, Prospect.after]
    | (.exhausted, s') | (.failed _, s') =>
      rw [h] at hpull
      rw [← hpull]
      simp [prospectOfPull]

/-- A series of more pulls than there are sightings comes to the end of the walk. -/
theorem takeInto_past_end (scanner : Scanner) {n : Nat} (acc : Array Sighting) {walk : Walk}
    (s : ScanState) (hn : (scanner.prospect walk).sightings.length < n) :
    let harvest := scanner.takeInto n acc walk s
    harvest.ending = (scanner.prospect walk).ending ∧
      harvest.state = scanner.aftermath walk s := by
  induction n generalizing acc walk s with
  | zero => omega
  | succ n ih =>
    have hpull := scanner.prospect_pull walk s
    have hstate := scanner.aftermath_pull walk s
    rw [takeInto]
    match h : scanner.pull walk s with
    | (.sighting e rest, s') =>
      rw [h] at hpull hstate
      rw [← hpull, ← hstate]
      -- The prospect is one sighting shorter, so one pull less is still one too many.
      apply ih
      rw [← hpull] at hn
      simpa [prospectOfPull, Prospect.after] using hn
    | (.exhausted, s') | (.failed _, s') =>
      rw [h] at hpull hstate
      rw [← hpull, ← hstate]
      exact ⟨rfl, rfl⟩

theorem length_findings_parts_le (criteria : ScanCriteria) (b : ByteArray) :
    (criteria.findings b).parts.length ≤ 3 := by
  unfold ScanCriteria.findings
  split
  · simp [Findings.parts]
  · simp only [Findings.parts, List.length_append]
    split <;> split <;> split <;> simp

theorem length_visit_parts_le (scanner : Scanner) (block : Int) :
    (scanner.visit block).parts.length ≤ 3 := by
  unfold visit
  split
  · simp [Visit.parts]
  · split
    · split <;> simp [Visit.parts]
    · exact length_findings_parts_le ..

/-- No block has more than three sightings. -/
theorem length_outlook_le (scanner : Scanner) (blocks : List Int) :
    (scanner.outlook blocks).sightings.length ≤ 3 * blocks.length := by
  induction blocks with
  | nil => simp [outlook]
  | cons block rest ih =>
    have hparts := scanner.length_visit_parts_le block
    rw [outlook]
    split
    · simp
    · simp only [Prospect.after, sightingsOf, List.length_append, List.length_map,
        List.length_cons]
      omega

theorem length_prospect_lt_budget (scanner : Scanner) (walk : Walk) :
    (scanner.prospect walk).sightings.length < budget walk := by
  match walk with
  | .unstarted start stop =>
    have := scanner.length_outlook_le (blockRange start stop)
    simp only [blockRange, length_consecutive] at this
    simp only [prospect, budget, blockRange]
    omega
  | .paused start stop block pending left =>
    have := scanner.length_outlook_le (blocksBefore stop left)
    rw [length_blocksBefore] at this
    simp only [prospect, budget, Prospect.after, sightingsOf, List.length_append, List.length_map]
    omega
  | .ended => simp [prospect, budget]

/-- A drained walk has delivered all it had in prospect, and nothing else. -/
theorem drain_eq (scanner : Scanner) (walk : Walk) (s : ScanState) :
    let harvest := scanner.drain walk s
    harvest.sightings.toList = (scanner.prospect walk).sightings ∧
      harvest.ending = (scanner.prospect walk).ending ∧
      harvest.state = scanner.aftermath walk s := by
  have hbudget := scanner.length_prospect_lt_budget walk
  refine ⟨?_, takeInto_past_end scanner #[] s hbudget⟩
  rw [drain, take, takeInto_sightings, List.take_of_length_le (by omega)]
  rfl

/-! ## Adjacent blocks -/

/-- A walk that comes through the first blocks goes on with the others; one that fails in the first
blocks never sees the others. -/
theorem outlook_append (scanner : Scanner) (xs ys : List Int) :
    scanner.outlook (xs ++ ys) =
      match scanner.outlook xs with
      | ⟨sightings, .failed e⟩ => ⟨sightings, .failed e⟩
      | ⟨sightings, _⟩ => (scanner.outlook ys).after sightings := by
  induction xs with
  | nil => rfl
  | cons block rest ih =>
    rw [List.cons_append, outlook, outlook]
    split
    · rfl
    · rw [ih]
      generalize scanner.outlook rest = p
      obtain ⟨sightings, ending⟩ := p
      cases ending <;> simp [Prospect.after]

end Scanner

end RegionSalvage
