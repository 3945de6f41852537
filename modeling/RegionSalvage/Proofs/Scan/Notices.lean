import RegionSalvage.Proofs.Scan.NoticeBlocks

/-! # Notices are complete

A walk gives notice at every block where one is due, as far as it comes, and once more when it is
over, however that comes about.  Of the blocks themselves a notice says only how many sightings
there were in them.

* `Scanner.Heard` — what has been heard of a walk that has come to a block.
* `Scanner.Underway` — the invariant of a walk that is not over: it ties what has been heard to where
  the walk stands.  `Underway.pull` says what becomes of it in one pull, `concluded_drain` in all.
* `Journey.Reported` — the same for a journey that may be closed at any time, or be pulled when it is
  over.
-/

namespace RegionSalvage

/-! ## What notices say -/

/-- What a notice says. -/
structure Bulletin where
  block : Int
  isScanning : Bool
  hits : Int
deriving DecidableEq, Repr

/-- What a notice of a status says. -/
def ScanStatus.bulletin (p : ScanStatus) : Bulletin := ⟨p.currentBlock, p.isScanning, p.hits⟩

/-- What the notices of a scanner have said. -/
def ScanState.bulletins (s : ScanState) : List Bulletin :=
  s.notices.toList.map ScanStatus.bulletin

/-- A listener leaves alone what the notices say of the scan.  It may fail, and it may write to
everything else. -/
def IsDiscreet (listener : Array ScanStatus → ScanStatus) : Prop :=
  ∀ notices, (listener notices).hits = (ScanStatus.latest notices).hits ∧
    (listener notices).isScanning = (ScanStatus.latest notices).isScanning

example : IsDiscreet ScanStatus.latest := fun _ => ⟨rfl, rfl⟩

namespace ScanStatus

theorem hits_countHit (p : ScanStatus) (part : RegionPart) :
    (p.countHit part).hits = p.hits + 1 := by
  cases part <;> simp [countHit, hits] <;> omega

theorem hits_countVisit (p : ScanStatus) (visit : Visit) : (p.countVisit visit).hits = p.hits := by
  rcases visit with _ | _ | _ | _ | _ <;> rfl

theorem isScanning_countHit (p : ScanStatus) (part : RegionPart) :
    (p.countHit part).isScanning = p.isScanning := by
  cases part <;> rfl

theorem isScanning_countVisit (p : ScanStatus) (visit : Visit) :
    (p.countVisit visit).isScanning = p.isScanning := by
  rcases visit with _ | _ | _ | _ | _ <;> rfl

end ScanStatus

namespace ScanState

theorem bulletins_arrive (s : ScanState) (block : Int) (due : Bool) :
    (s.arrive block due).bulletins = s.bulletins ++
      if due then [⟨block, s.progress.isScanning, s.progress.hits⟩] else [] := by
  cases due <;> simp [arrive, giveNotice, bulletins, ScanStatus.bulletin, ScanStatus.hits]

theorem bulletins_finish (s : ScanState) (stop : Int) :
    (s.finish stop).bulletins = s.bulletins ++ [⟨stop, false, s.progress.hits⟩] := by
  simp [finish, giveNotice, bulletins, ScanStatus.bulletin, ScanStatus.hits]

@[simp] theorem listener_arrive (s : ScanState) (block : Int) (due : Bool) :
    (s.arrive block due).listener = s.listener := by
  cases due <;> rfl

theorem arrive_of_isDiscreet {s : ScanState} (h : IsDiscreet s.listener) (block : Int)
    (due : Bool) :
    (s.arrive block due).progress.hits = s.progress.hits ∧
      (s.arrive block due).progress.isScanning = s.progress.isScanning := by
  cases due with
  | false => exact ⟨rfl, rfl⟩
  | true =>
    have hheard := h (s.notices.push { s.progress with currentBlock := block })
    simp only [ScanStatus.latest, Array.back?_push, Option.getD_some] at hheard
    exact hheard

end ScanState

/-! ## A walk and its notices -/

namespace Scanner

/-- All sightings that there are in the blocks `[start, stop)`. -/
def sightingsIn (scanner : Scanner) (start stop : Int) : List Sighting :=
  (blockRange start stop).flatMap scanner.classified

/-- The notice of a walk from `start` on at a block that it comes to. -/
def bulletinAt (scanner : Scanner) (start block : Int) : Bulletin :=
  ⟨block, true, (scanner.sightingsIn start block).length⟩

variable (scanner : Scanner) (listener : Array ScanStatus → ScanStatus)

/-- A walk gave notice where one is due from `start` up to `reach`, and then came the `last`
notices.  A listener that is not discreet hears what it has written itself, but at these blocks. -/
structure Heard (start reach : Int) (last : List Bulletin) (s : ScanState) : Prop where
  positions_eq : s.positions =
    noticeBlocks scanner.criteria.progressInterval start reach ++ last.map Bulletin.block
  bulletins_eq : IsDiscreet listener → s.bulletins =
    (noticeBlocks scanner.criteria.progressInterval start reach).map (scanner.bulletinAt start) ++
      last

/-- No block from `start` up to `reach` ends a walk. -/
def Clear (start reach : Int) : Prop :=
  ∀ block, start ≤ block → block < reach → scanner.obstacle? block = none

/-- How a walk came to its end, and what has been heard of it. -/
inductive Concluded (start stop : Int) (delivered : List Sighting) (s : ScanState) :
    Ending → Prop where
  | exhausted (hclear : scanner.Clear start stop) (hall : delivered = scanner.sightingsIn start stop)
      (heard : scanner.Heard listener start stop [⟨stop, false, delivered.length⟩] s) :
      Concluded start stop delivered s .exhausted
  | failed {block : Int} {e : ReadError} (hstart : start ≤ block) (hstop : block < stop)
      (hclear : scanner.Clear start block) (hobstacle : scanner.obstacle? block = some e)
      (hall : delivered = scanner.sightingsIn start block)
      (heard : scanner.Heard listener start (block + 1) [⟨stop, false, delivered.length⟩] s) :
      Concluded start stop delivered s (.failed e)

/-- What has been heard of a walk that goes on from `reach`, and what the next notice will say. -/
structure Announced (start reach : Int) (delivered : List Sighting) (s : ScanState) : Prop where
  heard : scanner.Heard listener start reach [] s
  listener_eq : s.listener = listener
  hits_eq : IsDiscreet listener → s.progress.hits = delivered.length
  isScanning_eq : IsDiscreet listener → s.progress.isScanning = true

/-- A walk that is not over, and what has been heard of it. -/
inductive Underway (start stop : Int) : List Sighting → Walk → ScanState → Prop where
  | outset {s : ScanState} (hlistener : s.listener = listener) (hnotices : s.notices = #[])
      (hhits : s.progress.hits = 0) : Underway start stop [] (.unstarted start stop) s
  | resting {earlier : List Sighting} {e : Sighting} {pending : List RegionPart} {left : Nat}
      {s : ScanState} (hstart : start ≤ e.block) (hleft : e.block + 1 + left = stop)
      (hclear : scanner.Clear start (e.block + 1))
      (hall : earlier ++ [e] ++ sightingsOf e.block pending =
        scanner.sightingsIn start (e.block + 1))
      (announced : scanner.Announced listener start (e.block + 1) (earlier ++ [e]) s) :
      Underway start stop (earlier ++ [e]) (.paused start stop e.block pending left) s

/-- What has been heard of a walk behind a pull. -/
def Followed (start stop : Int) (delivered : List Sighting) : Pull × ScanState → Prop
  | (.sighting e rest, s) => scanner.Underway listener start stop (delivered ++ [e]) rest s
  | (.exhausted, s) => scanner.Concluded listener start stop delivered s .exhausted
  | (.failed e, s) => scanner.Concluded listener start stop delivered s (.failed e)

variable {scanner listener} {start stop reach block : Int} {delivered : List Sighting}
  {walk : Walk} {s : ScanState}

theorem Clear.succ (h : scanner.Clear start block) (hblock : scanner.obstacle? block = none) :
    scanner.Clear start (block + 1) := by
  intro other hstart hother
  by_cases heq : other = block
  · rw [heq, hblock]
  · exact h other hstart (by omega)

theorem sightingsIn_of_le (h : stop ≤ start) : scanner.sightingsIn start stop = [] := by
  simp [sightingsIn, blockRange, Int.toNat_of_nonpos (Int.sub_nonpos_of_le h)]

theorem sightingsIn_succ (scanner : Scanner) (h : start ≤ block) :
    scanner.sightingsIn start (block + 1) =
      scanner.sightingsIn start block ++ sightingsOf block (scanner.visit block).parts := by
  rw [sightingsIn, blockRange_append h (by omega), List.flatMap_append, blockRange_single,
    List.flatMap_singleton, sightingsOf_visit, sightingsIn]

/-! ### One step -/

/-- A walk that has delivered all sightings so far comes to the next block. -/
theorem Announced.arrive (h : scanner.Announced listener start block delivered s)
    (hstart : start ≤ block) (hall : delivered = scanner.sightingsIn start block) :
    scanner.Announced listener start (block + 1) delivered
      (s.arrive block (scanner.criteria.isNoticeDue start block)) := by
  have hsucc := noticeBlocks_succ scanner.criteria hstart
  have hkept (hd : IsDiscreet listener) := ScanState.arrive_of_isDiscreet (h.listener_eq ▸ hd) block
    (scanner.criteria.isNoticeDue start block)
  constructor
  · constructor
    · rw [positions_arrive, h.heard.positions_eq, hsucc]
      simp
    · intro hd
      -- The notice counts what has been delivered, which is what there is in the blocks before.
      rw [ScanState.bulletins_arrive, h.heard.bulletins_eq hd, h.hits_eq hd, h.isScanning_eq hd,
        hsucc, hall]
      split <;> simp [bulletinAt]
  · rw [ScanState.listener_arrive, h.listener_eq]
  · intro hd
    rw [(hkept hd).1, h.hits_eq hd]
  · intro hd
    rw [(hkept hd).2, h.isScanning_eq hd]

theorem Announced.countVisit (h : scanner.Announced listener start reach delivered s)
    (visit : Visit) : scanner.Announced listener start reach delivered (s.countVisit visit) where
  heard := ⟨h.heard.positions_eq, h.heard.bulletins_eq⟩
  listener_eq := h.listener_eq
  hits_eq hd := (s.progress.hits_countVisit visit).trans (h.hits_eq hd)
  isScanning_eq hd := (s.progress.isScanning_countVisit visit).trans (h.isScanning_eq hd)

theorem Announced.countHit (h : scanner.Announced listener start reach delivered s)
    (e : Sighting) :
    scanner.Announced listener start reach (delivered ++ [e])
      { s with progress := s.progress.countHit e.part } where
  heard := ⟨h.heard.positions_eq, h.heard.bulletins_eq⟩
  listener_eq := h.listener_eq
  hits_eq hd := by simp [ScanStatus.hits_countHit, h.hits_eq hd]
  isScanning_eq hd := (s.progress.isScanning_countHit e.part).trans (h.isScanning_eq hd)

theorem Announced.finish (h : scanner.Announced listener start reach delivered s) (stop : Int) :
    scanner.Heard listener start reach [⟨stop, false, delivered.length⟩] (s.finish stop) := by
  constructor
  · rw [positions_finish, h.heard.positions_eq]
    simp
  · intro hd
    rw [ScanState.bulletins_finish, h.heard.bulletins_eq hd, h.hits_eq hd, List.append_nil]

theorem announced_setOut (hlistener : s.listener = listener) (hnotices : s.notices = #[])
    (hhits : s.progress.hits = 0) (hreach : reach ≤ start) :
    scanner.Announced listener start reach [] (s.setOut start stop) := by
  have hnone := noticeBlocks_of_le scanner.criteria.progressInterval hreach
  constructor
  · constructor <;>
      simp [hnone, ScanState.positions, ScanState.bulletins, ScanState.setOut, hnotices]
  · exact hlistener
  · intro _
    exact hhits
  · intro _
    rfl

/-! ### From sighting to sighting -/

theorem Announced.advance {left : Nat}
    (h : scanner.Announced listener start (stop - left) delivered s)
    (hclear : scanner.Clear start (stop - left)) (hstart : 0 < left → start ≤ stop - left)
    (hall : delivered = scanner.sightingsIn start (stop - left)) :
    scanner.Followed listener start stop delivered (scanner.advance start stop left s) := by
  induction left generalizing s with
  | zero =>
    rw [Int.natCast_zero, Int.sub_zero] at h hclear hall
    exact .exhausted hclear hall (h.finish stop)
  | succ left ih =>
    have hstep := scanner.advance_cases start stop left s
    have hlower := hstart (Nat.succ_pos left)
    generalize hblock : stop - ((left + 1 : Nat) : Int) = block at h hclear hall hlower hstep
    have hnext : stop - (left : Int) = block + 1 := by omega
    have hthere := (h.arrive hlower hall).countVisit (scanner.visit block)
    have hsucc := scanner.sightingsIn_succ hlower
    rw [← hall] at hsucc
    -- The walk fails at the block, passes it by, or rests behind a sighting of it.
    rcases hstep with ⟨e, hobstacle, hstep⟩ | ⟨hpassed, hnone, hstep⟩ |
      ⟨hpassed, part, pending, hparts, hstep⟩
    · rw [hstep]
      exact .failed hlower (by omega) hclear hobstacle hall (hthere.finish stop)
    · rw [hstep]
      apply ih
      · rwa [hnext]
      · rw [hnext]
        exact hclear.succ hpassed
      · omega
      · rw [hnext, hsucc, hnone]
        simp [sightingsOf]
    · rw [hstep]
      have hmore : block + 1 + left = stop := by omega
      refine .resting hlower hmore (hclear.succ hpassed) ?_ (hthere.countHit ⟨block, part⟩)
      simp [hsucc, hparts, sightingsOf]

theorem Underway.pull (h : scanner.Underway listener start stop delivered walk s) :
    scanner.Followed listener start stop delivered (scanner.pull walk s) := by
  cases h with
  | outset hlistener hnotices hhits =>
    -- No block has been passed; where the range is empty there is none to pass.
    have hreach : stop - ((stop - start).toNat : Int) ≤ start := by omega
    apply (announced_setOut hlistener hnotices hhits hreach).advance
    · intro block hstart hblock
      omega
    · omega
    · rw [sightingsIn_of_le hreach]
  | @resting earlier e pending left s hstart hleft hclear hall announced =>
    cases pending with
    | nil =>
      rw [show e.block + 1 = stop - left by omega] at hclear hall announced
      exact announced.advance hclear (by omega) (by simpa [sightingsOf] using hall)
    | cons part pending =>
      refine .resting hstart hleft hclear ?_ (announced.countHit ⟨e.block, part⟩)
      simpa [sightingsOf] using hall

/-- What has been heard of a walk so far, and what will have been if it is closed here. -/
theorem Underway.heard (h : scanner.Underway listener start stop delivered walk s) :
    walk ≠ .ended ∧
      (delivered = [] ∧ s.notices = #[] ∧ Scanner.close walk s = s ∨
        ∃ e, delivered.getLast? = some e ∧ delivered <+: scanner.sightingsIn start (e.block + 1) ∧
          scanner.Heard listener start (e.block + 1) [] s ∧
          scanner.Heard listener start (e.block + 1) [⟨stop, false, delivered.length⟩]
            (Scanner.close walk s)) := by
  cases h with
  | outset _ hnotices => exact ⟨nofun, .inl ⟨rfl, hnotices, rfl⟩⟩
  | resting _ _ _ hall announced =>
    exact ⟨nofun, .inr ⟨_, List.getLast?_concat, ⟨_, hall⟩, announced.heard, announced.finish stop⟩⟩

/-! ### Series of pulls -/

theorem Underway.takeInto {n : Nat} {acc : Array Sighting}
    (h : scanner.Underway listener start stop acc.toList walk s)
    (hend : (scanner.takeInto n acc walk s).ending ≠ .satisfied) :
    let harvest := scanner.takeInto n acc walk s
    scanner.Concluded listener start stop harvest.sightings.toList harvest.state
      harvest.ending := by
  induction n generalizing acc walk s with
  | zero => exact absurd rfl hend
  | succ n ih =>
    have hpull := h.pull
    rw [Scanner.takeInto] at hend ⊢
    -- A pull that brings a sighting leaves the walk under way, any other concludes it.
    cases hanswer : scanner.pull walk s with
    | mk answer s' =>
      rw [hanswer] at hpull hend
      cases answer with
      | sighting e rest =>
        apply ih _ hend
        rw [Array.toList_push]
        exact hpull
      | exhausted | failed => exact hpull

theorem ending_outlook_ne_satisfied (scanner : Scanner) (blocks : List Int) :
    (scanner.outlook blocks).ending ≠ .satisfied := by
  induction blocks with
  | nil => simp [outlook]
  | cons block rest ih =>
    rw [outlook]
    split
    · simp
    · exact ih

theorem concluded_drain (scanner : Scanner) (listener : Array ScanStatus → ScanStatus)
    (start stop : Int) :
    let harvest := scanner.drain (.unstarted start stop) { listener }
    scanner.Concluded listener start stop harvest.sightings.toList harvest.state
      harvest.ending := by
  have houtset : scanner.Underway listener start stop (#[] : Array Sighting).toList
      (.unstarted start stop) { listener } := .outset rfl rfl rfl
  apply houtset.takeInto
  have hending := (scanner.drain_eq (.unstarted start stop) { listener }).2.1
  exact hending ▸ scanner.ending_outlook_ne_satisfied _

theorem Concluded.positions_eq
    (h : scanner.Concluded listener start stop delivered s .exhausted) :
    s.positions = noticeBlocks scanner.criteria.progressInterval start stop ++ [stop] := by
  cases h with
  | exhausted _ _ heard => exact heard.positions_eq

end Scanner

/-! ## A journey and its notices -/

/-- What has been heard of a journey that is the only one. -/
inductive Journey.Reported (scanner : Scanner) (listener : Array ScanStatus → ScanStatus)
    (s : ScanState) (j : Journey) : Prop where
  | underway (hpulls : j.pulls = j.delivered.length) (hending : j.ending = none)
      (hwalk : scanner.Underway listener j.start j.stop j.delivered j.walk s)
  | untouched (hwalk : j.walk = .ended) (hpulls : j.pulls = 0) (hending : j.ending = none)
      (hnotices : s.notices = #[])
  | closed {e : Sighting} (hwalk : j.walk = .ended) (hpulls : 0 < j.pulls)
      (hending : j.ending = none) (hlast : j.delivered.getLast? = some e)
      (hdelivered : j.delivered <+: scanner.sightingsIn j.start (e.block + 1))
      (heard : scanner.Heard listener j.start (e.block + 1) [⟨j.stop, false, j.delivered.length⟩] s)
  | complete {ending : Scanner.Ending} (hwalk : j.walk = .ended) (hpulls : 0 < j.pulls)
      (hending : j.ending = some ending)
      (heard : scanner.Concluded listener j.start j.stop j.delivered s ending)

namespace Journey

variable {scanner : Scanner} {listener : Array ScanStatus → ScanStatus} {s : ScanState}
  {j : Journey}

theorem Reported.pull (h : j.Reported scanner listener s) :
    (scanner.pullJourney j s).1.Reported scanner listener (scanner.pullJourney j s).2 := by
  by_cases hover : j.walk = .ended
  · rw [Scanner.pullJourney, if_pos hover]
    exact h
  · cases h with
    | untouched hwalk | closed hwalk | complete hwalk => exact absurd hwalk hover
    | underway hpulls hending hwalk =>
      have hpull := hwalk.pull
      rw [Scanner.pullJourney, if_neg hover]
      simp only
      cases hanswer : scanner.pull j.walk s with
      | mk answer s' =>
        rw [hanswer] at hpull
        cases answer with
        | sighting e rest => exact .underway (by simp [hpulls]) hending hpull
        | exhausted | failed => exact .complete rfl (Nat.succ_pos _) rfl hpull

/-- A journey that was pulled ends with one more notice when it is closed; one that is over, or was
never pulled, stays as it is. -/
theorem Reported.close (h : j.Reported scanner listener s) :
    (Scanner.closeJourney j s).1.Reported scanner listener (Scanner.closeJourney j s).2 := by
  rw [Scanner.closeJourney]
  cases h with
  | underway hpulls hending hwalk =>
    rcases hwalk.heard.2 with ⟨hnone, hnotices, hclose⟩ | ⟨e, hlast, hdelivered, _, heard⟩
    · exact .untouched rfl (by simp [hpulls, hnone]) hending (by rwa [hclose])
    · have hpos : 0 < j.delivered.length := List.length_pos_of_mem (List.mem_of_getLast? hlast)
      exact .closed rfl (hpulls ▸ hpos) hending hlast hdelivered heard
  | untouched hwalk hpulls hending hnotices =>
    rw [hwalk]
    exact .untouched rfl hpulls hending hnotices
  | closed hwalk hpulls hending hlast hdelivered heard =>
    rw [hwalk]
    exact .closed rfl hpulls hending hlast hdelivered heard
  | complete hwalk hpulls hending heard =>
    rw [hwalk]
    exact .complete rfl hpulls hending heard

end Journey

/-- A party of one journey, or of none so far. -/
structure Party.Solo (scanner : Scanner) (listener : Array ScanStatus → ScanStatus)
    (party : Party) : Prop where
  fresh : party.journeys = [] → party.state = { listener }
  reported : ∀ j, party.journeys = [j] → j.Reported scanner listener party.state

namespace Scanner

variable {scanner : Scanner} {listener : Array ScanStatus → ScanStatus} {party : Party}

theorem solo_turn (h : party.Solo scanner listener) (t : Turn) :
    (scanner.turn party t).Solo scanner listener := by
  rcases scanner.turn_cases party t with ⟨range, _, hturn⟩ | ⟨_, hturn⟩ |
    ⟨_, before, j, after, hsplit, act, hact, hturn⟩
  · rw [hturn]
    constructor
    · simp
    · intro j hj
      -- The journey that is opened is the only one if there was none before.
      simp only [List.append_eq_singleton_iff, List.cons.injEq, List.cons_ne_nil, and_true,
        and_false, or_false] at hj
      obtain ⟨hnone, rfl⟩ := hj
      rw [h.fresh hnone]
      exact .underway rfl rfl (.outset rfl rfl rfl)
  · rw [hturn]
    exact h
  · rw [hturn]
    constructor
    · simp
    · intro k hk
      simp only [List.append_eq_singleton_iff, List.cons.injEq, List.cons_ne_nil, and_false,
        or_false] at hk
      obtain ⟨rfl, rfl, rfl⟩ := hk
      have hj := h.reported j hsplit
      rcases hact with rfl | rfl
      · exact hj.pull
      · exact hj.close

theorem solo_turns (scanner : Scanner) (listener : Array ScanStatus → ScanStatus)
    (ts : List Turn) : (scanner.turns { state := { listener } } ts).Solo scanner listener := by
  have hopened : Party.Solo scanner listener { state := { listener } } := ⟨fun _ => rfl, by simp⟩
  generalize ({ state := { listener } } : Party) = party at hopened ⊢
  induction ts generalizing party with
  | nil => exact hopened
  | cons t ts ih => exact ih _ (solo_turn hopened t)

/-- Notices are complete.  A walk gives notice at the first block of its range, at whole intervals
behind it, and once more when it is over; a discreet listener is told how many sightings there are
in the blocks before.  Drained, a walk comes to its end, and the notices reach as far.  A journey
that is the only one may also be going on or have been closed, and then they reach as far as its
last sighting; if it was never pulled there are none.  So two drained walks over one range give
notice at the same blocks, whatever their sources, listeners and other criteria are. -/
theorem notices_complete (scanner : Scanner) (listener : Array ScanStatus → ScanStatus) :
    (∀ start stop,
      let drained := scanner.drain (.unstarted start stop) { listener }
      scanner.Concluded listener start stop drained.sightings.toList drained.state
        drained.ending) ∧
    (∀ ts j, (scanner.turns { state := { listener } } ts).journeys = [j] →
      let state := (scanner.turns { state := { listener } } ts).state
      let last := if j.walk = .ended then [⟨j.stop, false, j.delivered.length⟩] else []
      (j.pulls = 0 → state.notices = #[]) ∧
      (0 < j.pulls → j.ending = none → ∃ e, j.delivered.getLast? = some e ∧
        j.delivered <+: scanner.sightingsIn j.start (e.block + 1) ∧
        scanner.Heard listener j.start (e.block + 1) last state) ∧
      ∀ ending, j.ending = some ending →
        scanner.Concluded listener j.start j.stop j.delivered state ending) ∧
    ∀ (rival : Scanner) (rivalListener : Array ScanStatus → ScanStatus) start stop,
      rival.criteria.progressInterval = scanner.criteria.progressInterval →
      let drained := scanner.drain (.unstarted start stop) { listener }
      let rivals := rival.drain (.unstarted start stop) { listener := rivalListener }
      drained.ending = .exhausted → rivals.ending = .exhausted →
        rivals.state.positions = drained.state.positions := by
  refine ⟨scanner.concluded_drain listener, fun ts j hj => ?_, ?_⟩
  · intro state last
    have hreported : j.Reported scanner listener state :=
      (scanner.solo_turns listener ts).reported j hj
    -- A single journey stands in one of four ways.
    cases hreported with
    | underway hpulls hending hwalk =>
      obtain ⟨hlive, ⟨hnone, hnotices, _⟩ | ⟨e, hlast, hdelivered, heard, _⟩⟩ := hwalk.heard
      · have hzero : j.pulls = 0 := by simp [hpulls, hnone]
        exact ⟨fun _ => hnotices, by omega, by simp [hending]⟩
      · have hpos : 0 < j.delivered.length := List.length_pos_of_mem (List.mem_of_getLast? hlast)
        have hgoing : last = [] := if_neg hlive
        exact ⟨by omega, fun _ _ => ⟨e, hlast, hdelivered, hgoing ▸ heard⟩, by simp [hending]⟩
    | untouched hwalk hpulls hending hnotices =>
      exact ⟨fun _ => hnotices, by omega, by simp [hending]⟩
    | closed hwalk hpulls hending hlast hdelivered heard =>
      have hover : last = _ := if_pos hwalk
      exact ⟨by omega, fun _ _ => ⟨_, hlast, hdelivered, hover ▸ heard⟩, by simp [hending]⟩
    | complete hwalk hpulls hending heard =>
      refine ⟨by omega, by simp [hending], fun ending h => ?_⟩
      rw [hending] at h
      cases h
      exact heard
  · intro rival rivalListener start stop hinterval drained rivals hdrained hrivals
    have hours : scanner.Concluded listener start stop drained.sightings.toList drained.state
        drained.ending := scanner.concluded_drain listener start stop
    have htheirs : rival.Concluded rivalListener start stop rivals.sightings.toList rivals.state
        rivals.ending := rival.concluded_drain rivalListener start stop
    rw [hdrained] at hours
    rw [hrivals] at htheirs
    -- The positions of a complete walk depend on its range and the interval alone.
    rw [hours.positions_eq, htheirs.positions_eq, hinterval]

end Scanner

end RegionSalvage
