import RegionSalvage.Proofs.Scan.Prospect
import RegionSalvage.Scan.Party

/-! # Journeys do not disturb each other

The journeys of a scanner overwrite one state, and so may the listener; still each of them brings
what it would have brought alone.  The reason is that a walk never reads that state: what is ahead
of it is settled by its prospect (`prospect_pull`).

* `turn_cases` — what a turn can do to a party.
* `forall_journeys_turns` — what opening establishes and pulling and closing keep holds of every
  journey, whatever the turns are.
* `Journey.OnCourse` — the invariant: what a journey has delivered and what is ahead of it make up
  the prospect of its range.
-/

namespace RegionSalvage

namespace Scanner

/-! ## Turns -/

variable {scanner : Scanner} {party : Party}

/-- A turn opens a journey, changes one journey, or does nothing. -/
theorem turn_cases (scanner : Scanner) (party : Party) (t : Turn) :
    (∃ range, scanner.opened? t = some range ∧
      scanner.turn party t =
        { party with journeys := party.journeys ++ [{ start := range.1, stop := range.2 }] }) ∨
    (scanner.opened? t = none ∧ scanner.turn party t = party) ∨
    (scanner.opened? t = none ∧ ∃ before j after,
      party.journeys = before ++ j :: after ∧
      ∃ act, (act = scanner.pullJourney ∨ act = closeJourney) ∧
        scanner.turn party t =
          ⟨before ++ (act j party.state).1 :: after, (act j party.state).2⟩) := by
  -- Pulling and closing do the same to the party, but for what they do to the journey.
  have hact (act : Journey → ScanState → Journey × ScanState) (i : Nat) :
      withJourney act i party = party ∨ ∃ before j after, party.journeys = before ++ j :: after ∧
        withJourney act i party =
          ⟨before ++ (act j party.state).1 :: after, (act j party.state).2⟩ := by
    unfold withJourney
    cases hj : party.journeys[i]? with
    | none => exact .inl rfl
    | some j =>
      obtain ⟨hi, rfl⟩ := List.getElem?_eq_some_iff.1 hj
      refine .inr ⟨party.journeys.take i, party.journeys[i], party.journeys.drop (i + 1), ?_, ?_⟩
      · rw [List.getElem_cons_drop, List.take_append_drop]
      · simp only
        rw [List.set_eq_take_append_cons_drop, if_pos hi]
  cases t with
  | openScan => exact .inl ⟨scanner.criteria.bounds scanner.source, rfl, rfl⟩
  | openRange start stop => exact .inl ⟨(start, stop), rfl, rfl⟩
  | pull i =>
    rcases hact scanner.pullJourney i with h | ⟨before, j, after, hsplit, h⟩
    · exact .inr (.inl ⟨rfl, h⟩)
    · exact .inr (.inr ⟨rfl, before, j, after, hsplit, _, .inl rfl, h⟩)
  | close i =>
    rcases hact closeJourney i with h | ⟨before, j, after, hsplit, h⟩
    · exact .inr (.inl ⟨rfl, h⟩)
    · exact .inr (.inr ⟨rfl, before, j, after, hsplit, _, .inr rfl, h⟩)

/-- What a pull does to a journey: nothing if it is over; otherwise it brings the first sighting of
the prospect, or the end that the prospect has. -/
theorem pullJourney_cases (scanner : Scanner) (j : Journey) (s : ScanState) :
    (j.walk = .ended ∧ scanner.pullJourney j s = (j, s)) ∨
    (j.walk ≠ .ended ∧ ∃ e rest s', scanner.pull j.walk s = (.sighting e rest, s') ∧
      scanner.prospect j.walk = (scanner.prospect rest).after [e] ∧
      scanner.aftermath rest s' = scanner.aftermath j.walk s ∧
      scanner.pullJourney j s =
        ({ j with walk := rest, pulls := j.pulls + 1, delivered := j.delivered ++ [e] }, s')) ∨
    (j.walk ≠ .ended ∧ ∃ ending, scanner.prospect j.walk = ⟨[], ending⟩ ∧
      scanner.pullJourney j s =
        ({ j with walk := .ended, pulls := j.pulls + 1, ending := some ending },
          scanner.aftermath j.walk s)) := by
  by_cases hover : j.walk = .ended
  · exact .inl ⟨hover, by rw [pullJourney, if_pos hover]⟩
  · have hprospect := scanner.prospect_pull j.walk s
    have haftermath := scanner.aftermath_pull j.walk s
    rw [pullJourney, if_neg hover]
    simp only
    -- What a walk has ahead says what the pull answers.
    match hpull : scanner.pull j.walk s with
    | (.sighting e rest, s') =>
      rw [hpull] at hprospect haftermath
      exact .inr (.inl ⟨hover, e, rest, s', rfl, hprospect.symm, haftermath, rfl⟩)
    | (.exhausted, s') =>
      rw [hpull] at hprospect haftermath
      exact .inr (.inr ⟨hover, .exhausted, hprospect.symm, by rw [← haftermath]; rfl⟩)
    | (.failed e, s') =>
      rw [hpull] at hprospect haftermath
      exact .inr (.inr ⟨hover, .failed e, hprospect.symm, by rw [← haftermath]; rfl⟩)

theorem pullJourney_range (scanner : Scanner) (j : Journey) (s : ScanState) :
    (scanner.pullJourney j s).1.range = j.range := by
  rcases scanner.pullJourney_cases j s with ⟨_, hpull⟩ | ⟨_, e, rest, s', _, _, _, hpull⟩ |
    ⟨_, ending, _, hpull⟩ <;> rw [hpull] <;> rfl

/-- The ranges of the journeys are those that were asked for. -/
theorem map_range_turns (scanner : Scanner) (party : Party) (ts : List Turn) :
    (scanner.turns party ts).journeys.map Journey.range =
      party.journeys.map Journey.range ++ ts.filterMap scanner.opened? := by
  induction ts generalizing party with
  | nil => simp [turns]
  | cons t ts ih =>
    change (scanner.turns (scanner.turn party t) ts).journeys.map Journey.range = _
    rw [ih, List.filterMap_cons]
    rcases scanner.turn_cases party t with ⟨range, hopened, hturn⟩ | ⟨hopened, hturn⟩ |
      ⟨hopened, before, j, after, hsplit, act, hact, hturn⟩
    · rw [hopened, hturn]
      simp [Journey.range]
    · rw [hopened, hturn]
    · rw [hopened, hturn, hsplit]
      have hrange : (act j party.state).1.range = j.range := by
        rcases hact with rfl | rfl
        · exact scanner.pullJourney_range j party.state
        · rfl
      simp [hrange]

/-- What every new journey has, and keeps when it is pulled or closed, every journey has. -/
theorem forall_journeys_turns {P : Journey → Prop} (hopen : ∀ start stop, P { start, stop })
    (hpull : ∀ j s, P j → P (scanner.pullJourney j s).1)
    (hclose : ∀ j : Journey, P j → P { j with walk := .ended })
    (hparty : ∀ j ∈ party.journeys, P j) (ts : List Turn) :
    ∀ j ∈ (scanner.turns party ts).journeys, P j := by
  induction ts generalizing party with
  | nil => exact hparty
  | cons t ts ih =>
    change ∀ j ∈ (scanner.turns (scanner.turn party t) ts).journeys, P j
    apply ih
    rcases scanner.turn_cases party t with ⟨range, _, hturn⟩ | ⟨_, hturn⟩ |
      ⟨_, before, j, after, hsplit, act, hact, hturn⟩
    · rw [hturn]
      simp only [List.mem_append, List.mem_singleton]
      rintro j (hj | rfl)
      · exact hparty j hj
      · exact hopen range.1 range.2
    · rw [hturn]
      exact hparty
    · rw [hturn]
      simp only [hsplit, List.mem_append, List.mem_cons] at hparty ⊢
      rintro k (hk | rfl | hk)
      · exact hparty k (.inl hk)
      · have hj := hparty j (.inr (.inl rfl))
        rcases hact with rfl | rfl
        · exact hpull j party.state hj
        · exact hclose j hj
      · exact hparty k (.inr (.inr hk))

end Scanner

/-! ## One journey -/

/-- Everything a journey would bring if it went on to its end. -/
def Scanner.wholeOf (scanner : Scanner) (j : Journey) : Prospect :=
  scanner.prospect (.unstarted j.start j.stop)

/-- A journey has delivered as much of its whole as it was pulled for, and the rest is ahead. -/
structure Journey.OnCourse (scanner : Scanner) (j : Journey) : Prop where
  delivered_eq : j.delivered = (scanner.wholeOf j).sightings.take j.pulls
  ending_eq : j.ending =
    if (scanner.wholeOf j).sightings.length < j.pulls then some (scanner.wholeOf j).ending else none
  ahead : j.walk ≠ .ended →
    (scanner.prospect j.walk).after j.delivered = scanner.wholeOf j ∧ j.pulls = j.delivered.length

namespace Journey

variable {scanner : Scanner} {j : Journey}

theorem onCourse_opened (scanner : Scanner) (start stop : Int) :
    OnCourse scanner { start, stop } where
  delivered_eq := by rw [List.take_zero]
  ending_eq := by rw [if_neg (Nat.not_lt_zero _)]
  ahead _ := ⟨rfl, rfl⟩

theorem OnCourse.close (h : j.OnCourse scanner) :
    OnCourse scanner { j with walk := .ended } where
  delivered_eq := h.delivered_eq
  ending_eq := h.ending_eq
  ahead hlive := absurd rfl hlive

/-- A pull takes the next sighting of the whole, or finds its end. -/
theorem OnCourse.pull (h : j.OnCourse scanner) (s : ScanState) :
    OnCourse scanner (scanner.pullJourney j s).1 := by
  rcases scanner.pullJourney_cases j s with ⟨_, hpull⟩ |
    ⟨hlive, e, rest, s', _, hprospect, _, hpull⟩ | ⟨hlive, ending, hprospect, hpull⟩
  · rw [hpull]
    exact h
  · -- What was delivered and what is ahead make up the whole; a pull moves one sighting over.
    obtain ⟨hwhole, hpulls⟩ := h.ahead hlive
    have hending := h.ending_eq
    rw [hprospect, Prospect.after_after] at hwhole
    have hsightings : (scanner.wholeOf j).sightings =
        (j.delivered ++ [e]) ++ (scanner.prospect rest).sightings := by
      rw [← hwhole]
      rfl
    have hlength : j.delivered.length < (scanner.wholeOf j).sightings.length := by
      rw [hsightings]
      simp
    rw [if_neg (by omega)] at hending
    rw [hpull]
    refine ⟨?_, ?_, fun _ => ⟨hwhole, ?_⟩⟩
    · change _ = (scanner.wholeOf j).sightings.take (j.pulls + 1)
      rw [hsightings, List.take_left' (by simp [hpulls])]
    · change j.ending = if (scanner.wholeOf j).sightings.length < j.pulls + 1 then _ else none
      rw [hending, if_neg (by omega)]
    · simp [hpulls]
  · obtain ⟨hwhole, hpulls⟩ := h.ahead hlive
    have hall : scanner.wholeOf j = ⟨j.delivered, ending⟩ := by
      rw [← hwhole, hprospect, Prospect.after, List.append_nil]
    rw [hpull]
    refine ⟨?_, ?_, fun hlive => absurd rfl hlive⟩
    · change _ = (scanner.wholeOf j).sightings.take (j.pulls + 1)
      rw [hall, hpulls, List.take_of_length_le (Nat.le_succ _)]
    · change _ = if (scanner.wholeOf j).sightings.length < j.pulls + 1 then
        some (scanner.wholeOf j).ending else none
      rw [hall, hpulls, if_pos (Nat.lt_succ_self _)]

end Journey

namespace Scanner

theorem onCourse_turns (scanner : Scanner) (s : ScanState) (ts : List Turn) :
    ∀ j ∈ (scanner.turns { state := s } ts).journeys, j.OnCourse scanner :=
  forall_journeys_turns (Journey.onCourse_opened scanner) (fun _ s h => h.pull s)
    (fun _ h => h.close) (by simp) ts

/-! ## All journeys -/

/-- Every journey brings what its range brings alone.  There is one journey for every opening, in
order.  Whatever the turns are, and whatever state they start from and a listener makes of it, a
journey has delivered as many of the sightings of a drained walk over its range as it was pulled
for; it has come to an end when it was pulled for more than there are, and then to the end of that
walk, after the same sightings. -/
theorem journeys_as_alone (scanner : Scanner) (s : ScanState) (ts : List Turn) :
    let party := scanner.turns { state := s } ts
    party.journeys.map Journey.range = ts.filterMap scanner.opened? ∧
    ∀ j ∈ party.journeys,
      let alone := scanner.drain (.unstarted j.start j.stop) {}
      j.delivered = alone.sightings.toList.take j.pulls ∧
      j.delivered <+: alone.sightings.toList ∧
      j.ending = (if alone.sightings.size < j.pulls then some alone.ending else none) ∧
      ∀ ending, j.ending = some ending →
        j.delivered = alone.sightings.toList ∧ ending = alone.ending := by
  intro party
  refine ⟨scanner.map_range_turns { state := s } ts, ?_⟩
  intro j hj alone
  obtain ⟨hdelivered, hending, _⟩ := scanner.onCourse_turns s ts j hj
  obtain ⟨hsightings, hlast, _⟩ := scanner.drain_eq (.unstarted j.start j.stop) {}
  rw [wholeOf, ← hsightings] at hdelivered
  rw [wholeOf, ← hsightings, ← hlast, Array.length_toList] at hending
  refine ⟨hdelivered, ?_, hending, ?_⟩
  · rw [hdelivered]
    exact List.take_prefix _ _
  · intro ending hsome
    rw [hending] at hsome
    -- A journey that has come to its end was pulled once more than there are sightings.
    split at hsome
    · next hpast =>
      refine ⟨?_, (Option.some.inj hsome).symm⟩
      rw [hdelivered, List.take_of_length_le]
      rw [Array.length_toList]
      exact Nat.le_of_lt hpast
    · exact nomatch hsome

end Scanner

end RegionSalvage
