import RegionSalvage.Proofs.Zlib.Progress
import RegionSalvage.Zlib.Inflate

/-! # The course of a machine

A machine goes through its input step by step, and at each place there is one step or none.  So all
machines on a course are met in one order, and the course has one end: there the stream is complete,
or has a fault, or goes on behind the input (`Answers`).

* `Machine.Leads.of_stuck`: whatever is met on a course leads to its end.
* `Machine.run_ensures`: a run follows the course, and stops for no want of fuel.
* `Machine.exists_last`: every course ends.
-/

namespace RegionSalvage.Zlib

namespace Machine

variable {input : ByteArray} {m m' last : Machine}

/-! ## Steps -/

/-- One step. -/
inductive Step (input : ByteArray) (m : Machine) : Machine → Prop
  | read {move : Move} {pos : Nat} (h : m.read input = .ok (move, pos)) :
      Step input m (m.make input pos move)

/-- Any number of steps. -/
inductive Leads (input : ByteArray) : Machine → Machine → Prop
  | refl {m : Machine} : Leads input m m
  | step {m next m' : Machine} (h : Step input m next) (hrest : Leads input next m') :
      Leads input m m'

/-- There is no further step. -/
def Stuck (input : ByteArray) (m : Machine) : Prop := ∃ e, m.read input = .error e

theorem Step.unique {a b : Machine} (ha : Step input m a) (hb : Step input m b) : a = b := by
  cases ha with
  | read ha =>
    cases hb with
    | read hb =>
      cases ha.symm.trans hb
      rfl

theorem Stuck.not_step (h : Stuck input m) : ¬ Step input m m' := by
  rintro ⟨hread⟩
  obtain ⟨e, he⟩ := h
  exact nomatch he.symm.trans hread

theorem Step.sound (h : Step input m m') (hsound : m.Sound input) : m'.Sound input := by
  cases h with
  | read hread =>
    obtain ⟨hlt, hinside, hfits⟩ := read_ensures hsound _ hread
    exact hsound.make hlt hinside hfits

theorem Step.output (h : Step input m m') (hsound : m.Sound input) :
    ∃ more, m'.output = m.output ++ more := by
  cases h with
  | read hread =>
    obtain ⟨hlt, -, hfits⟩ := read_ensures hsound _ hread
    obtain ⟨more, hmore, -⟩ := output_make input hlt hfits
    exact ⟨more, hmore⟩

theorem Step.pos_lt (h : Step input m m') (hsound : m.Sound input) : m.pos < m'.pos := by
  cases h with
  | read hread =>
    rw [pos_make]
    exact (read_ensures hsound _ hread).1

/-! ## Courses -/

theorem Leads.trans {m'' : Machine} (h : Leads input m m') (h' : Leads input m' m'') :
    Leads input m m'' := by
  induction h with
  | refl => exact h'
  | step hstep _ ih => exact .step hstep (ih h')

theorem Leads.sound (h : Leads input m m') (hsound : m.Sound input) : m'.Sound input := by
  induction h with
  | refl => exact hsound
  | step hstep _ ih => exact ih (hstep.sound hsound)

theorem Leads.pos_le (h : Leads input m m') (hsound : m.Sound input) : m.pos ≤ m'.pos := by
  induction h with
  | refl => exact Nat.le_refl _
  | step hstep _ ih => exact Nat.le_of_lt ((hstep.pos_lt hsound).trans_le (ih (hstep.sound hsound)))

/-- What was put out stays in front. -/
theorem Leads.output (h : Leads input m m') (hsound : m.Sound input) :
    ∃ more, m'.output = m.output ++ more := by
  induction h with
  | refl => exact ⟨.empty, ByteArray.append_empty.symm⟩
  | step hstep _ ih =>
    obtain ⟨first, hfirst⟩ := hstep.output hsound
    obtain ⟨more, hmore⟩ := ih (hstep.sound hsound)
    exact ⟨first ++ more, by rw [hmore, hfirst, ByteArray.append_assoc]⟩

/-- Whatever is met on a course leads to its end. -/
theorem Leads.of_stuck (hlast : Leads input m last) (hstuck : last.Stuck input)
    (h : Leads input m m') : Leads input m' last := by
  induction h with
  | refl => exact hlast
  | step hstep _ ih =>
    cases hlast with
    | refl => exact absurd hstep hstuck.not_step
    | step hstep' hrest =>
      obtain rfl := hstep.unique hstep'
      exact ih hrest

/-- A course has one end. -/
theorem Leads.unique (hlast : Leads input m last) (hstuck : last.Stuck input)
    (h : Leads input m m') (hstuck' : m'.Stuck input) : m' = last := by
  cases hlast.of_stuck hstuck h with
  | refl => rfl
  | step hstep _ => exact absurd hstep hstuck'.not_step

theorem read_of_isFinished (h : m.isFinished = true) : m.read input = .error .starved := by
  unfold isFinished at h
  unfold read
  split at h
  · next hmode => rw [hmode]
  · exact nomatch h

/-! ## Runs -/

/-- A run follows the course until its target is reached or there is no further step; the fuel is
enough when there is more of it than there are bits. -/
theorem run_ensures (target : Option Nat) {fuel : Nat} (hsound : m.Sound input)
    (hfuel : 8 * input.size < m.pos + fuel) :
    match m.run input target fuel with
    | .ok m' => Leads input m m' ∧
        (m'.hasReached target = true ∨
          m'.hasReached target = false ∧ m'.read input = .error .starved)
    | .error f => ∃ m', Leads input m m' ∧ m'.read input = .error (.fault f) := by
  induction fuel generalizing m with
  | zero =>
    have hpos := hsound.pos_le
    omega
  | succ fuel ih =>
    unfold run
    cases hreached : m.hasReached target with
    | true => exact ⟨.refl, .inl hreached⟩
    | false =>
      rw [if_neg Bool.false_ne_true]
      cases hread : m.read input with
      | error stop =>
        cases stop with
        | starved => exact ⟨.refl, .inr ⟨hreached, hread⟩⟩
        | fault f => exact ⟨m, .refl, hread⟩
      | ok step =>
        obtain ⟨move, pos⟩ := step
        -- The step takes at least one bit, so the fuel that is left is enough for the rest.
        obtain ⟨hlt, hinside, hfits⟩ := read_ensures hsound _ hread
        have hrest := ih (hsound.make hlt hinside hfits) (by rw [pos_make]; omega)
        have hstep : Step input m (m.make input pos move) := .read hread
        revert hrest
        dsimp only
        cases run input target fuel (m.make input pos move) with
        | ok m' => exact fun ⟨hleads, hend⟩ => ⟨.step hstep hleads, hend⟩
        | error f => exact fun ⟨m', hleads, hfault⟩ => ⟨m', .step hstep hleads, hfault⟩

/-- Every course ends. -/
theorem exists_last (hsound : m.Sound input) : ∃ last, Leads input m last ∧ last.Stuck input := by
  have hrun := run_ensures none hsound
    (show 8 * input.size < m.pos + (8 * input.size + 1) by omega)
  revert hrun
  cases m.run input none (8 * input.size + 1) with
  | error f => exact fun ⟨last, hleads, hfault⟩ => ⟨last, hleads, _, hfault⟩
  | ok last =>
    rintro ⟨hleads, hreached | ⟨-, hstarved⟩⟩
    · exact nomatch hreached
    · exact ⟨last, hleads, _, hstarved⟩

end Machine

/-! ## Ends -/

open Machine

/-- What there is to say of a payload, at the end of the course through it. -/
inductive Answers (payload : ByteArray) : Except InflateError ByteArray → Prop
  /-- The stream is complete, and its checksum is right: this is its output. -/
  | complete {last : Machine} (hleads : Leads payload {} last)
      (hfinished : last.isFinished = true) :
      Answers payload (.ok last.output)
  | corrupt {last : Machine} {f : Fault} (hleads : Leads payload {} last)
      (hfault : last.read payload = .error (.fault f)) :
      Answers payload (.error (.corrupt f))
  /-- The stream is not complete where the payload ends, and nothing was put out on the way that is
  not counted. -/
  | truncated {last : Machine} (hleads : Leads payload {} last)
      (hstarved : last.read payload = .error .starved) (hopen : last.isFinished = false)
      (hall : ∀ m, Leads payload {} m → ∃ more, last.output = m.output ++ more) :
      Answers payload (.error (.truncated last.output.size))

/-- The answer where the course ends in a machine. -/
def Machine.verdict (payload : ByteArray) (last : Machine) : Except InflateError ByteArray :=
  match last.read payload with
  | .error (.fault f) => .error (.corrupt f)
  | _ => if last.isFinished then .ok last.output else .error (.truncated last.output.size)

theorem Answers.exists_last {payload : ByteArray} {answer : Except InflateError ByteArray}
    (h : Answers payload answer) :
    ∃ last, Leads payload {} last ∧ last.Stuck payload ∧ answer = last.verdict payload := by
  cases h with
  | @complete last hleads hfinished =>
    have hstarved : last.read payload = .error .starved := read_of_isFinished hfinished
    exact ⟨last, hleads, ⟨_, hstarved⟩, by rw [verdict, hstarved, if_pos hfinished]⟩
  | @corrupt last f hleads hfault => exact ⟨last, hleads, ⟨_, hfault⟩, by rw [verdict, hfault]⟩
  | @truncated last hleads hstarved hopen hall =>
    refine ⟨last, hleads, ⟨_, hstarved⟩, ?_⟩
    rw [verdict, hstarved, hopen, if_neg Bool.false_ne_true]

/-- A payload has one answer. -/
theorem Answers.unique {payload : ByteArray} {a b : Except InflateError ByteArray}
    (ha : Answers payload a) (hb : Answers payload b) : a = b := by
  obtain ⟨last, hleads, hstuck, rfl⟩ := ha.exists_last
  obtain ⟨last', hleads', hstuck', rfl⟩ := hb.exists_last
  rw [hleads.unique hstuck hleads' hstuck']

end RegionSalvage.Zlib
