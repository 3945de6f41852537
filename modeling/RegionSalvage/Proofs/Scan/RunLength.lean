import Mathlib
import RegionSalvage.Scan.Sighting

/-! # Runs are the run-length form of the sightings

A report loses nothing but the blocks inside a run of chunk headers.  `RunLengthForm` says what the
runs of a list of sightings are, without saying how they are come by, and there is one list of runs
only that has this form.  Both directions go through `runLengthForm_cons_iff`: the first run stands
for the front of the sightings, and the other runs have the form of what is behind it.

The runs can be reported while sightings still come in (`RunPass`): a run of headers is held back
until a table or the end of the sightings completes it (`runPass_eq`).
-/

namespace RegionSalvage

namespace SightingRun

/-- What a run stands for, sighting by sighting. -/
def parts (run : SightingRun) : List RegionPart := List.replicate run.count run.part

/-- No run of headers is empty, and a table makes a run by itself. -/
def IsSized (run : SightingRun) : Prop :=
  (run.part = .chunkHeader → 1 ≤ run.count) ∧ (run.part ≠ .chunkHeader → run.count = 1)

/-- Two runs of headers that are neighbours would have to be one. -/
def Apart (run next : SightingRun) : Prop := run.part = .chunkHeader → next.part ≠ .chunkHeader

theorem IsSized.one_le {run : SightingRun} (h : run.IsSized) : 1 ≤ run.count := by
  by_cases hpart : run.part = .chunkHeader
  · exact h.1 hpart
  · exact Nat.le_of_eq (h.2 hpart).symm

/-- A sighting lengthens the run of headers in front of which it is put, or makes a run of its
own. -/
theorem prepend_cases (e : Sighting) (runs : List SightingRun) :
    (∃ block count rest, e.part = .chunkHeader ∧ runs = ⟨block, .chunkHeader, count⟩ :: rest ∧
        prepend e runs = ⟨e.block, .chunkHeader, count + 1⟩ :: rest) ∨
      ((∀ next ∈ runs.head?, e.part = .chunkHeader → next.part ≠ .chunkHeader) ∧
        prepend e runs = ⟨e.block, e.part, 1⟩ :: runs) := by
  obtain ⟨block, part⟩ := e
  cases part with
  | timestamps => exact .inr ⟨fun _ _ => nofun, rfl⟩
  | offsets => exact .inr ⟨fun _ _ => nofun, rfl⟩
  | chunkHeader =>
    cases runs with
    | nil => exact .inr ⟨nofun, rfl⟩
    | cons run rest =>
      obtain ⟨first, part, count⟩ := run
      cases part with
      | timestamps => exact .inr ⟨by simp, rfl⟩
      | offsets => exact .inr ⟨by simp, rfl⟩
      | chunkHeader => exact .inl ⟨first, count, rest, rfl, rfl, rfl⟩

/-- A row of headers in front of something else makes one run. -/
theorem foldr_prepend_headers {rest : List SightingRun}
    (hrest : ∀ next ∈ rest.head?, next.part ≠ .chunkHeader) (first : Sighting)
    (more : List Sighting) (hparts : ∀ e ∈ first :: more, e.part = .chunkHeader) :
    (first :: more).foldr prepend rest = ⟨first.block, .chunkHeader, more.length + 1⟩ :: rest := by
  induction more generalizing first with
  | nil =>
    rw [List.foldr_cons, List.foldr_nil]
    obtain ⟨_, _, _, _, rfl, _⟩ | ⟨-, hprepend⟩ := prepend_cases first rest
    · exact absurd rfl (hrest _ rfl)
    · rw [hprepend, hparts first List.mem_cons_self]
      rfl
  | cons second more ih =>
    rw [List.foldr_cons, ih second fun e he => hparts e (List.mem_cons_of_mem first he), prepend]
    · rfl
    · exact hparts first List.mem_cons_self

end SightingRun

open SightingRun

/-- The runs are those of the sightings: they stand for the same parts in the same order, each names
the block of its first sighting, and there are as few of them as there can be while each table has a
run of its own. -/
structure RunLengthForm (sightings : List Sighting) (runs : List SightingRun) : Prop where
  parts_eq : runs.flatMap parts = sightings.map (·.part)
  block_eq : ∀ i run, runs[i]? = some run →
    sightings[((runs.take i).map (·.count)).sum]?.map (·.block) = some run.block
  sized : ∀ run ∈ runs, run.IsSized
  apart : runs.IsChain Apart

theorem runLengthForm_nil_iff {sightings : List Sighting} :
    RunLengthForm sightings [] ↔ sightings = [] := by
  constructor
  · intro h
    exact List.map_eq_nil_iff.1 h.parts_eq.symm
  · rintro rfl
    exact ⟨rfl, nofun, nofun, .nil⟩

variable {sightings : List Sighting} {run : SightingRun} {rest : List SightingRun}

/-- The front of the sightings goes into the first run, and what is behind it into the others. -/
theorem runLengthForm_cons_iff :
    RunLengthForm sightings (run :: rest) ↔
      ∃ front back, sightings = front ++ back ∧ front.length = run.count ∧
        (∀ e ∈ front, e.part = run.part) ∧ front.head?.map (·.block) = some run.block ∧
        run.IsSized ∧ (∀ next ∈ rest.head?, run.Apart next) ∧ RunLengthForm back rest := by
  constructor
  · rintro ⟨hparts, hblock, hsized, hapart⟩
    -- The sightings of the first run are the front that has its length.
    rw [List.flatMap_cons] at hparts
    obtain ⟨front, back, rfl, hfront, hback⟩ := List.map_eq_append_iff.1 hparts.symm
    obtain ⟨hlength, hpart⟩ := List.eq_replicate_iff.1 hfront
    rw [List.length_map] at hlength
    obtain ⟨hnext, hrest⟩ := List.isChain_cons.1 hapart
    have hself := hsized run List.mem_cons_self
    refine ⟨front, back, rfl, hlength, fun e he => hpart _ (List.mem_map_of_mem he), ?_, hself,
      hnext, hback.symm, fun i next hi => ?_,
      fun next hnext => hsized next (List.mem_cons_of_mem _ hnext), hrest⟩
    · have hfirst := hblock 0 run rfl
      have hpos := hself.one_le
      rw [List.take_zero, List.map_nil, List.sum_nil,
        List.getElem?_append_left (by omega)] at hfirst
      rwa [List.head?_eq_getElem?]
    · -- Behind the first run all positions are further on by its length.
      have hlater := hblock (i + 1) next hi
      rw [List.take_succ_cons, List.map_cons, List.sum_cons, ← hlength,
        List.getElem?_append_right (Nat.le_add_right _ _), Nat.add_sub_cancel_left] at hlater
      exact hlater
  · rintro ⟨front, back, rfl, hlength, hpart, hfirst, hself, hnext, hback⟩
    have hpos := hself.one_le
    refine ⟨?_, fun i next hi => ?_, List.forall_mem_cons.2 ⟨hself, hback.sized⟩,
      List.isChain_cons.2 ⟨hnext, hback.apart⟩⟩
    · have hfront : front.map (·.part) = run.parts :=
        List.eq_replicate_iff.2 ⟨by rw [List.length_map, hlength], by simpa using hpart⟩
      rw [List.flatMap_cons, hback.parts_eq, List.map_append, hfront]
    · cases i with
      | zero =>
        obtain rfl := Option.some.inj hi
        rw [List.take_zero, List.map_nil, List.sum_nil, List.getElem?_append_left (by omega)]
        rwa [List.head?_eq_getElem?] at hfirst
      | succ i =>
        rw [List.take_succ_cons, List.map_cons, List.sum_cons, ← hlength,
          List.getElem?_append_right (Nat.le_add_right _ _), Nat.add_sub_cancel_left]
        exact hback.block_eq i next hi

namespace RunLengthForm

variable {runs : List SightingRun}

/-- One sighting more keeps the form. -/
theorem prepend (h : RunLengthForm sightings runs) (e : Sighting) :
    RunLengthForm (e :: sightings) (SightingRun.prepend e runs) := by
  obtain ⟨block, count, rest, hheader, rfl, hprepend⟩ | ⟨hnext, hprepend⟩ := prepend_cases e runs
  · obtain ⟨front, back, rfl, hlength, hpart, -, -, hrest, hback⟩ := runLengthForm_cons_iff.1 h
    rw [hprepend]
    exact runLengthForm_cons_iff.2
      ⟨e :: front, back, rfl, congrArg (· + 1) hlength, List.forall_mem_cons.2 ⟨hheader, hpart⟩,
        rfl, ⟨fun _ => Nat.le_add_left 1 _, fun hne => absurd rfl hne⟩, hrest, hback⟩
  · rw [hprepend]
    exact runLengthForm_cons_iff.2
      ⟨[e], sightings, rfl, rfl, by simp, rfl, ⟨fun _ => Nat.le_refl 1, fun _ => rfl⟩, hnext, h⟩

theorem of_runsOf (sightings : List Sighting) : RunLengthForm sightings (runsOf sightings) := by
  induction sightings with
  | nil => exact runLengthForm_nil_iff.2 rfl
  | cons e rest ih => exact ih.prepend e

/-- The form leaves no choice. -/
theorem eq_runsOf (h : RunLengthForm sightings runs) : runs = runsOf sightings := by
  induction runs generalizing sightings with
  | nil =>
    obtain rfl := runLengthForm_nil_iff.1 h
    rfl
  | cons run rest ih =>
    obtain ⟨front, back, rfl, hlength, hpart, hfirst, hsized, hnext, hback⟩ :=
      runLengthForm_cons_iff.1 h
    rw [runsOf, List.foldr_append, ← runsOf, ← ih hback]
    cases front with
    | nil => exact nomatch hfirst
    | cons first more =>
      obtain ⟨block, part, count⟩ := run
      obtain rfl : first.block = block := Option.some.inj hfirst
      by_cases hheader : part = .chunkHeader
      · subst hheader
        rw [foldr_prepend_headers (fun next hmem => hnext next hmem rfl) first more hpart,
          ← List.length_cons, hlength]
      · -- A run that is no run of headers has one sighting, which nothing lengthens.
        obtain rfl : count = 1 := hsized.2 hheader
        obtain rfl : more = [] := List.length_eq_zero_iff.1 (Nat.succ.inj hlength)
        obtain rfl : first.part = part := hpart first List.mem_cons_self
        obtain ⟨_, _, _, htable, _⟩ | ⟨-, hprepend⟩ := prepend_cases first rest
        · exact absurd htable hheader
        · exact hprepend.symm

theorem sum_counts (h : RunLengthForm sightings runs) :
    (runs.map (·.count)).sum = sightings.length := by
  have hlength := congrArg List.length h.parts_eq
  rw [List.length_flatMap, List.length_map] at hlength
  simpa only [parts, List.length_replicate] using hlength

end RunLengthForm

/-- Each table that was sighted is among the runs, by itself and in its place. -/
theorem filter_runsOf (sightings : List Sighting) :
    (runsOf sightings).filter (·.part ≠ .chunkHeader) =
      (sightings.filter (·.part ≠ .chunkHeader)).map fun e => ⟨e.block, e.part, 1⟩ := by
  induction sightings with
  | nil => rfl
  | cons e rest ih =>
    rw [runsOf, List.foldr_cons, ← runsOf]
    obtain ⟨block, count, more, hheader, hruns, hprepend⟩ | ⟨-, hprepend⟩ :=
      prepend_cases e (runsOf rest)
    · rw [hruns] at ih
      rw [hprepend]
      simpa [hheader] using ih
    · rw [hprepend]
      by_cases hheader : e.part = .chunkHeader
      · simpa [hheader] using ih
      · simpa [hheader] using ih

/-- The runs of a list of sightings, whatever its parts and blocks and in whatever order they come,
are its run-length form, and no other runs are.  So the counts add up to the number of sightings,
and each table has a run of its own. -/
theorem runLengthForm_iff_runsOf (sightings : List Sighting) :
    (∀ runs, RunLengthForm sightings runs ↔ runs = runsOf sightings) ∧
      ((runsOf sightings).map (·.count)).sum = sightings.length ∧
      (runsOf sightings).filter (·.part ≠ .chunkHeader) =
        (sightings.filter (·.part ≠ .chunkHeader)).map fun e => ⟨e.block, e.part, 1⟩ := by
  have hform := RunLengthForm.of_runsOf sightings
  refine ⟨fun runs => ⟨RunLengthForm.eq_runsOf, ?_⟩, hform.sum_counts, filter_runsOf sightings⟩
  rintro rfl
  exact hform

/-! ## In one pass -/

theorem prepend_append {runs : List SightingRun} (h : runs ≠ []) (e : Sighting)
    (more : List SightingRun) :
    SightingRun.prepend e (runs ++ more) = SightingRun.prepend e runs ++ more := by
  obtain ⟨block, part⟩ := e
  cases runs with
  | nil => exact absurd rfl h
  | cons run rest =>
    obtain ⟨first, firstPart, count⟩ := run
    cases part <;> cases firstPart <;> rfl

/-- No run goes on behind a table. -/
theorem runsOf_append {front : List Sighting} (h : ∀ e ∈ front.getLast?, e.part ≠ .chunkHeader)
    (back : List Sighting) : runsOf (front ++ back) = runsOf front ++ runsOf back := by
  induction front with
  | nil => rfl
  | cons e rest ih =>
    cases rest with
    | nil =>
      obtain ⟨_, _, _, hheader, _⟩ | ⟨-, hprepend⟩ := prepend_cases e (runsOf back)
      · exact absurd hheader (h e rfl)
      · obtain ⟨_, _, _, _, hnil, _⟩ | ⟨-, hsingle⟩ := prepend_cases e []
        · exact nomatch hnil
        · exact hprepend.trans (congrArg (· ++ runsOf back) hsingle.symm)
    | cons second more =>
      have hrest := ih h
      -- The runs of the rest are not empty, so the first sighting does not see beyond them.
      have hne : runsOf (second :: more) ≠ [] := by
        intro hnil
        have hcounts := (RunLengthForm.of_runsOf (second :: more)).sum_counts
        rw [hnil] at hcounts
        exact nomatch hcounts
      change SightingRun.prepend e (runsOf (second :: more ++ back)) = _
      rw [hrest, prepend_append hne]
      rfl

theorem runsOf_singleton (e : Sighting) : runsOf [e] = [⟨e.block, e.part, 1⟩] := by
  obtain ⟨block, part⟩ := e
  cases part <;> rfl

theorem runsOf_headers {first : Sighting} {more : List Sighting}
    (h : ∀ e ∈ first :: more, e.part = .chunkHeader) :
    runsOf (first :: more) = [⟨first.block, .chunkHeader, more.length + 1⟩] :=
  foldr_prepend_headers (by simp) first more h

theorem runsOf_headers_append {headers : List Sighting} (h : ∀ e ∈ headers, e.part = .chunkHeader)
    {e : Sighting} (he : e.part ≠ .chunkHeader) :
    runsOf (headers ++ [e]) = runsOf headers ++ runsOf [e] := by
  cases headers with
  | nil => rfl
  | cons first more =>
    rw [runsOf_headers h, runsOf, List.foldr_append, ← runsOf,
      foldr_prepend_headers _ first more h, List.singleton_append]
    rw [runsOf_singleton]
    simpa using he

/-- A pass over sightings: the runs that are complete, and the run of headers that it is in. -/
structure RunPass where
  complete : List SightingRun := []
  current : Option SightingRun := none

namespace RunPass

/-- Takes in a sighting. -/
def sight (pass : RunPass) (e : Sighting) : RunPass :=
  if e.part = .chunkHeader then
    match pass.current with
    | none => { pass with current := some ⟨e.block, e.part, 1⟩ }
    | some run => { pass with current := some { run with count := run.count + 1 } }
  else ⟨pass.complete ++ pass.current.toList ++ [⟨e.block, e.part, 1⟩], none⟩

/-- The headers at the end of the sightings are in the current run, all others in complete runs. -/
inductive Follows (pass : RunPass) : List Sighting → Prop where
  | intro {front headers : List Sighting} (hfront : ∀ e ∈ front.getLast?, e.part ≠ .chunkHeader)
      (hheaders : ∀ e ∈ headers, e.part = .chunkHeader) (hcomplete : pass.complete = runsOf front)
      (hlast : ∀ run ∈ pass.complete.getLast?, run.part ≠ .chunkHeader)
      (hcurrent : pass.current.toList = runsOf headers) : Follows pass (front ++ headers)

theorem Follows.sight {pass : RunPass} {sightings : List Sighting} (h : pass.Follows sightings)
    (e : Sighting) : (pass.sight e).Follows (sightings ++ [e]) := by
  obtain @⟨front, headers, hfront, hheaders, hcomplete, hlast, hcurrent⟩ := h
  by_cases hheader : e.part = .chunkHeader
  · have hkept : (pass.sight e).complete = pass.complete := by
      rw [RunPass.sight, if_pos hheader]
      cases pass.current <;> rfl
    have hall : ∀ e' ∈ headers ++ [e], e'.part = .chunkHeader := by
      simpa [or_imp, forall_and] using ⟨hheaders, hheader⟩
    rw [List.append_assoc]
    refine ⟨hfront, hall, hkept ▸ hcomplete, hkept ▸ hlast, ?_⟩
    rw [RunPass.sight, if_pos hheader]
    cases headers with
    | nil =>
      obtain hnone : pass.current = none := Option.toList_eq_nil_iff.1 hcurrent
      rw [hnone, List.nil_append, runsOf_singleton]
      rfl
    | cons first more =>
      -- The first of the headers keeps its place, so only the count changes.
      have hgrown : runsOf (first :: (more ++ [e])) = _ := runsOf_headers hall
      rw [runsOf_headers hheaders] at hcurrent
      rw [Option.toList_eq_singleton_iff.1 hcurrent, List.cons_append, hgrown, List.length_append]
      rfl
  · have hsight : pass.sight e =
        ⟨pass.complete ++ pass.current.toList ++ [⟨e.block, e.part, 1⟩], none⟩ := if_neg hheader
    rw [hsight, ← List.append_nil (front ++ headers ++ [e])]
    refine ⟨by simpa using hheader, nofun, ?_, by simpa using hheader, rfl⟩
    rw [List.append_assoc front, runsOf_append hfront, runsOf_headers_append hheaders hheader,
      runsOf_singleton, hcomplete, hcurrent, List.append_assoc]

theorem follows_foldl (sightings : List Sighting) :
    (sightings.foldl RunPass.sight {}).Follows sightings := by
  induction sightings using List.reverseRecOn with
  | nil =>
    have hempty : Follows {} ([] ++ []) := ⟨by simp, nofun, rfl, by simp, rfl⟩
    exact hempty
  | append_singleton front e ih =>
    rw [List.foldl_append]
    exact ih.sight e

end RunPass

/-- A pass has reported the runs that nothing can extend, and with the one that it holds back it has
all runs of the sightings so far. -/
theorem runPass_eq (sightings : List Sighting) :
    let pass := sightings.foldl RunPass.sight {}
    pass.complete = completedRuns sightings ∧
      pass.complete ++ pass.current.toList = runsOf sightings := by
  intro pass
  have hfollows : pass.Follows sightings := RunPass.follows_foldl sightings
  clear_value pass
  obtain @⟨front, headers, hfront, hheaders, hcomplete, hlast, hcurrent⟩ := hfollows
  have hruns : runsOf (front ++ headers) = pass.complete ++ pass.current.toList := by
    rw [runsOf_append hfront, hcomplete, hcurrent]
  refine ⟨?_, hruns.symm⟩
  rw [completedRuns, hruns]
  -- The run in hand is one of headers, which more headers would lengthen, or there is none.
  cases headers with
  | nil =>
    obtain hnone : pass.current = none := Option.toList_eq_nil_iff.1 hcurrent
    simp only [hnone, Option.toList_none, List.append_nil]
    split
    · next hheader => exact absurd rfl (hlast _ hheader)
    · rfl
  | cons first more =>
    rw [runsOf_headers hheaders] at hcurrent
    simp [hcurrent]

end RegionSalvage
