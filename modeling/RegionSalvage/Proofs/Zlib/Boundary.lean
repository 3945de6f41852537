import RegionSalvage.Proofs.Zlib.Extension
import RegionSalvage.Proofs.Zlib.Windows

/-! # Where a stream ends

A machine does not see what lies behind the place where it stands.  So a stream that is complete
stays complete, with the same output, whatever follows it; and of a stream that needs all of its
bytes no shorter part is complete, or has a fault that the whole does not have.

A piece of a stored block is the one step that does look at where the input ends: it is cut off
there, and then the machine starves (`Machine.Step.append`).  A course to a complete stream or to a
fault has no such step, and so is a course through any longer input (`Machine.Leads.append`).
-/

namespace RegionSalvage.Zlib

namespace Machine

variable {input : ByteArray} {m m' last : Machine} (rest : ByteArray)

/-! ## Steps when more input follows -/

/-- Away from stored blocks, a machine reads the same when more input follows, unless it starves. -/
theorem read_resumes (h : ∀ left, m.mode ≠ .stored left) :
    Resumes (m.read input) (m.read (input ++ rest)) := by
  unfold read
  split
  · exact readStreamHeader_resumes rest _
  · exact readBlockHeader_resumes rest _
  · next left hmode => exact absurd hmode (h left)
  · exact readSymbol_resumes rest _ _ _
  · exact readChecksum_resumes rest _ _
  · exact .refl _

/-- Only a piece of a stored block is taken from the input itself. -/
theorem make_append {move : Move} {pos : Nat}
    (h : ∀ left count, move = .store left count → m.pos / 8 + count ≤ input.size) :
    m.make (input ++ rest) pos move = m.make input pos move := by
  cases move with
  | store left count =>
    have hinside := h left count rfl
    have hpiece : slice (input ++ rest) (m.pos / 8) (m.pos / 8 + count) =
        slice input (m.pos / 8) (m.pos / 8 + count) := by
      apply ext_octet
      · rw [size_slice, size_slice, ByteArray.size_append]
        omega
      · intro i hi
        rw [size_slice, ByteArray.size_append] at hi
        rw [octet_slice (by omega), octet_slice (by omega), octet_append_left (by omega)]
    simp only [make, hpiece]
  | _ => rfl

theorem readStored_eq_ok {left pos next : Nat} {move : Move}
    (h : readStored input left pos = .ok (move, next)) :
    ∃ count, count = min left (input.size - pos / 8) ∧ count ≠ 0 ∧ move = .store left count ∧
      next = pos + 8 * count := by
  unfold readStored at h
  dsimp only at h
  split at h
  · exact nomatch h
  · next hcount =>
    cases h
    exact ⟨_, rfl, hcount, rfl, rfl⟩

theorem readStored_of_le {left pos : Nat} (hpositive : left ≠ 0)
    (hle : left ≤ input.size - pos / 8) :
    readStored input left pos = .ok (.store left left, pos + 8 * left) := by
  rw [readStored, Nat.min_eq_left hle, if_neg hpositive]

/-- A step within a stored block is the same step when more input follows, or it has come to the end
of the input. -/
theorem step_stored_append {left pos : Nat} {move : Move} (hmode : m.mode = .stored left)
    (hread : m.read input = .ok (move, pos)) :
    Step (input ++ rest) m (m.make input pos move) ∨
      (m.make input pos move).read input = .error .starved ∧
        (m.make input pos move).isFinished = false := by
  have hstored (input : ByteArray) : m.read input = readStored input left m.pos := by
    rw [read, hmode]
  rw [hstored] at hread
  obtain ⟨count, hcount, hpositive, rfl, rfl⟩ := readStored_eq_ok hread
  -- A piece that ends its block is the same in a longer input; any other ends with the input.
  by_cases hall : count = left
  · subst hall
    left
    have hlong : m.read (input ++ rest) = .ok (.store count count, m.pos + 8 * count) := by
      rw [hstored]
      exact readStored_of_le hpositive (by rw [ByteArray.size_append]; omega)
    have hmake : m.make (input ++ rest) (m.pos + 8 * count) (.store count count) =
        m.make input (m.pos + 8 * count) (.store count count) := by
      apply make_append
      intro left count' hmove
      cases hmove
      omega
    exact hmake ▸ Step.read hlong
  · right
    have hmode' : (m.make input (m.pos + 8 * count) (.store left count)).mode =
        .stored (left - count) := if_neg hall
    have hnothing : min (left - count) (input.size - (m.pos + 8 * count) / 8) = 0 := by omega
    constructor
    · rw [read, hmode']
      change readStored input (left - count) (m.pos + 8 * count) = _
      rw [readStored, hnothing]
      rfl
    · rw [isFinished, hmode']

/-- A step is the same step when more input follows, or the machine starves behind it. -/
theorem Step.append (h : Step input m m') (hsound : m.Sound input) :
    Step (input ++ rest) m m' ∨ m'.read input = .error .starved ∧ m'.isFinished = false := by
  cases h with
  | @read move pos hread =>
    by_cases hstored : ∃ left, m.mode = .stored left
    · obtain ⟨left, hmode⟩ := hstored
      exact step_stored_append rest hmode hread
    · have hother : ∀ left, m.mode ≠ .stored left := not_exists.1 hstored
      have hlong := (read_resumes rest hother).eq_ok hread
      obtain ⟨-, -, hfits⟩ := read_ensures hsound _ hread
      have hmake : m.make (input ++ rest) pos move = m.make input pos move := by
        apply make_append
        rintro left count rfl
        exact absurd hfits.1 (hother left)
      exact .inl (hmake ▸ Step.read hlong)

/-- A course to a complete stream or to a fault is one through any longer input. -/
theorem Leads.append (h : Leads input m last) (hsound : m.Sound input)
    (hend : last.isFinished = true ∨ ∃ f, last.read input = .error (.fault f)) :
    Leads (input ++ rest) m last := by
  induction h with
  | refl => exact .refl
  | step hstep hrest ih =>
    rcases hstep.append rest hsound with hlong | ⟨hstarved, hopen⟩
    · exact .step hlong (ih (hstep.sound hsound) hend)
    · -- Behind a piece that was cut off there is no way on, neither to an end nor to a fault.
      cases hrest with
      | refl =>
        rcases hend with hfinished | ⟨f, hfault⟩
        · exact nomatch hopen.symm.trans hfinished
        · exact nomatch hstarved.symm.trans hfault
      | step hstep' _ => exact absurd hstep' (Stuck.not_step ⟨_, hstarved⟩)

theorem fault_append {f : Fault} (h : m.read input = .error (.fault f)) :
    m.read (input ++ rest) = .error (.fault f) := by
  by_cases hstored : ∃ left, m.mode = .stored left
  · obtain ⟨left, hmode⟩ := hstored
    rw [read, hmode] at h
    change readStored input left m.pos = _ at h
    unfold readStored at h
    dsimp only at h
    split at h <;> exact nomatch h
  · exact (read_resumes rest (not_exists.1 hstored)).eq_fault h

end Machine

open Machine

/-! ## Streams -/

/-- The stream of a payload is complete, and ends behind `n` of its bytes. -/
def EndsAt (payload : ByteArray) (n : Nat) : Prop :=
  ∃ last, Leads payload {} last ∧ last.isFinished = true ∧ last.pos = 8 * n

/-- Where a machine that runs through a payload comes to an end, the stream ends. -/
theorem endsAt_of_run {payload : ByteArray} {last : Machine}
    (h : ({} : Machine).run payload none (8 * payload.size + 1) = .ok last)
    (hfinished : last.isFinished = true) {n : Nat} (hpos : last.pos = 8 * n) :
    EndsAt payload n := by
  have hrun := run_ensures none (sound_start payload)
    (show 8 * payload.size < 0 + (8 * payload.size + 1) by omega)
  rw [h] at hrun
  exact ⟨last, hrun.1, hfinished, hpos⟩

variable {payload data : ByteArray} (rest : ByteArray)

theorem Answers.append_complete (h : Answers payload (.ok data)) :
    Answers (payload ++ rest) (.ok data) := by
  cases h with
  | complete hleads hfinished =>
    exact .complete (hleads.append rest (sound_start payload) (.inl hfinished)) hfinished

theorem Answers.append_corrupt {f : Fault} (h : Answers payload (.error (.corrupt f))) :
    Answers (payload ++ rest) (.error (.corrupt f)) := by
  cases h with
  | corrupt hleads hfault =>
    exact .corrupt (hleads.append rest (sound_start payload) (.inr ⟨f, hfault⟩))
      (fault_append rest hfault)

/-- What a payload answers when its stream ends behind it. -/
theorem Answers.truncated_of_endsAt {answer : Except InflateError ByteArray} {n : Nat}
    (hends : EndsAt (payload ++ rest) n) (hn : payload.size < n) (h : Answers payload answer) :
    ∃ size, answer = .error (.truncated size) := by
  obtain ⟨last, hlast, hfinished, hpos⟩ := hends
  have hstuck : last.Stuck (payload ++ rest) := ⟨_, read_of_isFinished hfinished⟩
  cases h with
  | @complete last' hleads hfinished' =>
    -- The whole would end where the part does, in front of its own end.
    have hlong := hleads.append rest (sound_start payload) (.inl hfinished')
    have hsame := hlast.unique hstuck hlong ⟨_, read_of_isFinished hfinished'⟩
    have hinside := (hleads.sound (sound_start payload)).pos_le
    rw [hsame] at hinside
    omega
  | @corrupt last' f hleads hfault =>
    have hlong := (Answers.corrupt hleads hfault).append_corrupt rest
    exact nomatch hlong.unique (.complete hlast hfinished)
  | @truncated last' hleads hstarved hopen hall => exact ⟨_, rfl⟩

/-- What follows a complete stream does not matter. -/
theorem inflate_append {window : Int} (hwindow : IsWindow window)
    (h : inflate payload window = .ok data) : inflate (payload ++ rest) window = .ok data := by
  have hanswers := (inflate_ensures payload hwindow).2
  rw [h] at hanswers
  exact (inflate_ensures (payload ++ rest) hwindow).2.unique (hanswers.append_complete rest)

/-- A part of a stream that needs more is truncated. -/
theorem inflate_part {window : Int} {n : Nat} (hwindow : IsWindow window)
    (hends : EndsAt (payload ++ rest) n) (hn : payload.size < n) :
    ∃ size, inflate payload window = .error (.truncated size) :=
  (inflate_ensures payload hwindow).2.truncated_of_endsAt rest hends hn

end RegionSalvage.Zlib
