import RegionSalvage.Proofs.Scan.Exactness
import RegionSalvage.Proofs.Scan.Independence

/-! # The blocks that journeys visit

A journey goes through its range in ascending order, so what the caller has seen of it tells which
blocks it has visited (`Scanner.visited`): all up to the block of its last sighting while it goes
on, and at its end all of them, or those in front of the obstacle.

The walk knows better than that where it stands.  `Journey.Tracked` is the invariant that ties the
two views together: the visited blocks and those that the walk still has ahead of it make up the
passable part of the range.
-/

namespace RegionSalvage

namespace Scanner

variable {scanner : Scanner}

/-! ## Passable blocks -/

/-- The blocks that a walk over `blocks` comes through: those in front of the first obstacle. -/
def passable (scanner : Scanner) (blocks : List Int) : List Int :=
  blocks.takeWhile fun block => (scanner.obstacle? block).isNone

theorem passable_of_clear {block : Int} (h : scanner.obstacle? block = none) (rest : List Int) :
    scanner.passable (block :: rest) = block :: scanner.passable rest := by
  rw [passable, List.takeWhile_cons, h]
  rfl

theorem passable_of_obstacle {block : Int} {e : ReadError} (h : scanner.obstacle? block = some e)
    (rest : List Int) : scanner.passable (block :: rest) = [] := by
  rw [passable, List.takeWhile_cons, h]
  rfl

theorem obstacle?_of_mem_passable {blocks : List Int} {block : Int}
    (h : block ∈ scanner.passable blocks) : scanner.obstacle? block = none :=
  Option.isNone_iff_eq_none.1 (List.all_eq_true.1 List.all_takeWhile block h)

theorem obstacle?_eq_none {block : Int} (h : ∀ e, scanner.visit block ≠ .failed e) :
    scanner.obstacle? block = none := by
  cases hobstacle : scanner.obstacle? block with
  | none => rfl
  | some e => exact absurd (visit_of_obstacle hobstacle) (h e)

/-- What a walk does at the next block: it fails there, it passes on, or it delivers a sighting. -/
theorem advance_cases (scanner : Scanner) (start stop : Int) (left : Nat) (s : ScanState) :
    let block := stop - (left + 1 : Nat)
    let visit := scanner.visit block
    let there := (s.arrive block (scanner.criteria.isNoticeDue start block)).countVisit visit
    (∃ e, scanner.obstacle? block = some e ∧
      scanner.advance start stop (left + 1) s = (.failed e, there.finish stop)) ∨
    (scanner.obstacle? block = none ∧ visit.parts = [] ∧
      scanner.advance start stop (left + 1) s = scanner.advance start stop left there) ∨
    (scanner.obstacle? block = none ∧ ∃ part pending, visit.parts = part :: pending ∧
      scanner.advance start stop (left + 1) s =
        deliver start stop block part pending left there) := by
  dsimp only
  rw [advance]
  generalize stop - ((left + 1 : Nat) : Int) = block
  have hfailed (e : ReadError) (h : scanner.visit block = .failed e) :
      scanner.obstacle? block = some e := visit_eq_failed_iff.1 h
  have hclear : (∀ e, scanner.visit block ≠ .failed e) → scanner.obstacle? block = none :=
    obstacle?_eq_none
  generalize scanner.visit block = visit at hfailed hclear ⊢
  -- Only a failed visit is an obstacle; what is passed over or has no parts brings nothing.
  cases visit with
  | failed e => exact .inl ⟨e, hfailed e rfl, rfl⟩
  | allocated | unreadable => exact .inr (.inl ⟨hclear (by simp), rfl, rfl⟩)
  | found findings =>
    have hread := hclear (by simp)
    cases findings with
    | sparse => exact .inr (.inl ⟨hread, rfl, rfl⟩)
    | tested parts =>
      cases parts with
      | nil => exact .inr (.inl ⟨hread, rfl, rfl⟩)
      | cons part pending => exact .inr (.inr ⟨hread, part, pending, rfl, rfl⟩)

/-- A walk that does not fail comes through all of its blocks. -/
theorem passable_eq_self {blocks : List Int}
    (h : ∀ e, (scanner.outlook blocks).ending ≠ .failed e) : scanner.passable blocks = blocks := by
  have hclear : ∀ block ∈ blocks, scanner.obstacle? block = none := by
    intro block hblock
    cases hobstacle : scanner.obstacle? block with
    | none => rfl
    | some _ =>
      have hne : scanner.obstacle? block ≠ none := by simp [hobstacle]
      obtain ⟨e, he⟩ := outlook_fails ⟨block, hblock, hne⟩
      exact absurd he (h e)
  clear h
  induction blocks with
  | nil => rfl
  | cons block rest ih =>
    rw [passable_of_clear (hclear block List.mem_cons_self),
      ih fun b hb => hclear b (List.mem_cons_of_mem block hb)]

/-- The blocks that a walk has yet to come through. -/
def blocksAhead (scanner : Scanner) : Walk → List Int
  | .unstarted start stop => scanner.passable (blockRange start stop)
  | .paused _ stop _ _ left => scanner.passable (blocksBefore stop left)
  | .ended => []

end Scanner

/-! ## Where a walk stands -/

/-- The walk stands where one over `[start, stop)` does that has delivered these sightings. -/
inductive Walk.Stands (start stop : Int) : List Sighting → Walk → Prop
  | outset : Stands start stop [] (.unstarted start stop)
  | resting {earlier : List Sighting} {e : Sighting} {pending : List RegionPart} {left : Nat}
      (hstart : start ≤ e.block) (hleft : e.block + 1 + left = stop) :
      Stands start stop (earlier ++ [e]) (.paused start stop e.block pending left)
  | finished {delivered : List Sighting} : Stands start stop delivered .ended

/-- The first block behind those that were visited for the delivered sightings. -/
def reachOf (start : Int) (delivered : List Sighting) : Int :=
  match delivered.getLast? with
  | none => start
  | some e => e.block + 1

@[simp] theorem reachOf_append (start : Int) (earlier : List Sighting) (e : Sighting) :
    reachOf start (earlier ++ [e]) = e.block + 1 := by
  rw [reachOf, List.getLast?_concat]

theorem blockRange_self (block : Int) : blockRange block block = [] := by
  rw [blockRange, Int.sub_self]
  rfl

theorem blockRange_single (block : Int) : blockRange block (block + 1) = [block] := by
  rw [blockRange, show (block + 1 - block).toNat = 1 by omega]
  exact consecutive_succ block 0

namespace Scanner

variable {scanner : Scanner}

/-- Where an advance rests, and what it has come through by then. -/
theorem advance_sighting {start stop : Int} {left : Nat} {s s' : ScanState} {e : Sighting}
    {rest : Walk} (h : scanner.advance start stop left s = (.sighting e rest, s')) :
    ∃ pending more, rest = .paused start stop e.block pending more ∧
      stop - left ≤ e.block ∧ e.block + 1 + more = stop ∧
      scanner.passable (blocksBefore stop left) =
        blockRange (stop - left) (e.block + 1) ++ scanner.passable (blocksBefore stop more) := by
  induction left generalizing s with
  | zero => cases h
  | succ left ih =>
    rw [blocksBefore_succ]
    have hstep := scanner.advance_cases start stop left s
    -- The block in hand is the first of those left.
    generalize hblock : stop - ((left + 1 : Nat) : Int) = block at hstep ⊢
    have hnext : stop - (left : Int) = block + 1 := by omega
    rcases hstep with ⟨_, _, hstep⟩ | ⟨hclear, _, hstep⟩ | ⟨hclear, part, pending, _, hstep⟩
    · rw [hstep] at h
      cases h
    · -- A block that brings no sighting joins those in front of the one that comes.
      rw [hstep] at h
      obtain ⟨pending, more, hrest, hreach, hmore, hpassable⟩ := ih h
      refine ⟨pending, more, hrest, by omega, hmore, ?_⟩
      rw [passable_of_clear hclear, hpassable, hnext,
        blockRange_append (show block ≤ block + 1 by omega) (show block + 1 ≤ e.block + 1 by omega),
        blockRange_single]
      rfl
    · rw [hstep] at h
      simp only [deliver, Prod.mk.injEq, Pull.sighting.injEq] at h
      obtain ⟨⟨rfl, rfl⟩, _⟩ := h
      refine ⟨pending, left, rfl, Int.le_refl _, ?_, ?_⟩
      · simp only
        omega
      · rw [passable_of_clear hclear, blockRange_single]
        rfl

/-- A pull that brings a sighting leaves the walk resting where it has to stand, and what is visited
for the sighting was ahead of the walk. -/
theorem pull_sighting {start stop : Int} {delivered : List Sighting} {walk rest : Walk}
    {s s' : ScanState} {e : Sighting} (hstands : walk.Stands start stop delivered)
    (h : scanner.pull walk s = (.sighting e rest, s')) :
    rest.Stands start stop (delivered ++ [e]) ∧ rest ≠ .ended ∧
      blockRange start (reachOf start (delivered ++ [e])) ++ scanner.blocksAhead rest =
        blockRange start (reachOf start delivered) ++ scanner.blocksAhead walk := by
  -- From the start, or from behind the last sighting, the blocks in between are passed at once.
  cases hstands with
  | outset =>
    obtain ⟨pending, more, rfl, hreach, hmore, hpassable⟩ := advance_sighting h
    rw [blocksBefore_toNat] at hpassable
    have hle : start < stop := by omega
    rw [show stop - ((stop - start).toNat : Int) = start by omega] at hreach hpassable
    refine ⟨.resting hreach hmore, Walk.noConfusion, ?_⟩
    rw [reachOf_append, reachOf, blocksAhead, blocksAhead, hpassable]
    simp [blockRange_self]
  | @resting earlier last pending left hstart hleft =>
    rw [reachOf_append, reachOf_append]
    cases pending with
    | nil =>
      obtain ⟨pending, more, rfl, hreach, hmore, hpassable⟩ := advance_sighting h
      refine ⟨.resting (by omega) hmore, Walk.noConfusion, ?_⟩
      rw [blocksAhead, blocksAhead, hpassable, ← List.append_assoc,
        show stop - (left : Int) = last.block + 1 by omega,
        ← blockRange_append (by omega) (by omega)]
    | cons part pending =>
      simp only [pull, deliver, Prod.mk.injEq, Pull.sighting.injEq] at h
      obtain ⟨⟨rfl, rfl⟩, _⟩ := h
      exact ⟨.resting hstart hleft, Walk.noConfusion, rfl⟩
  | finished => cases h

/-! ## Journeys -/

/-- The blocks that a journey has visited so far.  A block at which it failed does not count. -/
def visited (scanner : Scanner) (j : Journey) : List Int :=
  match j.ending with
  | none => blockRange j.start (reachOf j.start j.delivered)
  | some (.failed _) => scanner.passable (blockRange j.start j.stop)
  | some _ => blockRange j.start j.stop

end Scanner

/-- A journey is on course, and its walk stands where the visited blocks end. -/
structure Journey.Tracked (scanner : Scanner) (j : Journey) : Prop where
  onCourse : j.OnCourse scanner
  stands : j.walk.Stands j.start j.stop j.delivered
  visited_append : j.walk ≠ .ended →
    scanner.visited j ++ scanner.blocksAhead j.walk =
      scanner.passable (blockRange j.start j.stop)
  visited_initial : scanner.visited j <+: scanner.passable (blockRange j.start j.stop)

namespace Journey

variable {scanner : Scanner} {j : Journey}

theorem OnCourse.ending_of_live (h : j.OnCourse scanner) (hlive : j.walk ≠ .ended) :
    j.ending = none := by
  obtain ⟨hwhole, hpulls⟩ := h.ahead hlive
  rw [h.ending_eq, ← hwhole, if_neg]
  simp [Prospect.after, hpulls]

/-- A journey that came to its end has brought its whole. -/
theorem OnCourse.whole_of_complete (h : j.OnCourse scanner) {ending : Scanner.Ending}
    (hending : j.ending = some ending) : scanner.wholeOf j = ⟨j.delivered, ending⟩ := by
  have hend := h.ending_eq
  rw [hending] at hend
  split at hend
  · next hpast =>
    rw [h.delivered_eq, List.take_of_length_le (Nat.le_of_lt hpast), Option.some.inj hend]
  · exact nomatch hend

theorem OnCourse.visited_of_complete (h : j.OnCourse scanner) {ending : Scanner.Ending}
    (hending : j.ending = some ending) :
    scanner.visited j = scanner.passable (blockRange j.start j.stop) := by
  have hwhole : scanner.outlook (blockRange j.start j.stop) = ⟨j.delivered, ending⟩ :=
    h.whole_of_complete hending
  cases ending with
  | failed e => rw [Scanner.visited, hending]
  | satisfied | exhausted =>
    rw [Scanner.visited, hending]
    exact (Scanner.passable_eq_self fun e => by rw [hwhole]; exact nofun).symm

theorem tracked_opened (scanner : Scanner) (start stop : Int) :
    Tracked scanner { start, stop } := by
  have hvisited : scanner.visited { start, stop } = [] := blockRange_self start
  refine ⟨onCourse_opened scanner start stop, .outset, fun _ => ?_, ?_⟩
  · rw [hvisited]
    rfl
  · rw [hvisited]
    exact List.nil_prefix

theorem Tracked.close (h : j.Tracked scanner) : Tracked scanner { j with walk := .ended } :=
  ⟨h.onCourse.close, .finished, fun hlive => absurd rfl hlive, h.visited_initial⟩

theorem Tracked.pull (h : j.Tracked scanner) (s : ScanState) :
    Tracked scanner (scanner.pullJourney j s).1 := by
  have honCourse := h.onCourse.pull s
  rcases scanner.pullJourney_cases j s with ⟨_, hpull⟩ |
    ⟨hlive, e, rest, s', hanswer, _, _, hpull⟩ | ⟨hlive, ending, _, hpull⟩
  · rw [hpull]
    exact h
  · rw [hpull] at honCourse ⊢
    -- The blocks up to the sighting were visited, and the others are still ahead.
    obtain ⟨hstands, _, hblocks⟩ := Scanner.pull_sighting h.stands hanswer
    have hending := h.onCourse.ending_of_live hlive
    have hall := h.visited_append hlive
    rw [Scanner.visited, hending] at hall
    have hvisited : scanner.visited { j with
        walk := rest, pulls := j.pulls + 1, delivered := j.delivered ++ [e] } =
        blockRange j.start (reachOf j.start (j.delivered ++ [e])) := by
      rw [Scanner.visited, hending]
    have hahead := hblocks.trans hall
    rw [← hvisited] at hahead
    exact ⟨honCourse, hstands, fun _ => hahead, ⟨_, hahead⟩⟩
  · -- At its end the journey has brought its whole, and so it has visited all it can.
    rw [hpull] at honCourse ⊢
    refine ⟨honCourse, .finished, fun hlive => absurd rfl hlive, ?_⟩
    exact ⟨[], by rw [List.append_nil, honCourse.visited_of_complete rfl]⟩

end Journey

theorem Scanner.tracked_turns (scanner : Scanner) (s : ScanState) (ts : List Turn) :
    ∀ j ∈ (scanner.turns { state := s } ts).journeys, j.Tracked scanner :=
  forall_journeys_turns (Journey.tracked_opened scanner) (fun _ s h => h.pull s)
    (fun _ h => h.close) (by simp) ts

end RegionSalvage
