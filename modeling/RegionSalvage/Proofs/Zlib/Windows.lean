import RegionSalvage.Proofs.Zlib.Course

/-! # The window does not matter

A payload is inflated in pulls, and a pull stops where its window is full or where the course of the
machine ends (`Inflater.Pulled`).  What the machine has not come to by then is left alone, and the
next pull is fed it: nothing of the payload is lost on the way, and nothing is fed twice.  So the
machine is always where it would be with the whole payload in hand (`Inflater.OnCourse`).

A full window has delivered something, and there is only so much output on the course; so the pulls
come to an end, however small the window is, and what they have delivered by then is all that the
machine puts out on its course.
-/

namespace RegionSalvage.Zlib

open Machine

namespace Inflater

variable {payload out pending : ByteArray} {window : Nat} {s : Inflater}

/-! ## One pull -/

/-- A pull answers in one of these ways. -/
inductive Pulled (pending : ByteArray) (window : Nat) (s : Inflater) :
    Except Fault Delivery → Prop
  | fault {last : Machine} {f : Fault} (hleads : Leads (s.fed ++ pending) s.machine last)
      (hfault : last.read (s.fed ++ pending) = .error (.fault f)) :
      Pulled pending window s (.error f)
  /-- The window is full, and the machine has been fed as much as it came to. -/
  | filled {machine : Machine} {fed tail : ByteArray}
      (hleads : Leads (s.fed ++ pending) s.machine machine)
      (hfed : fed ++ tail = s.fed ++ pending)
      (hsize : fed.size = max s.fed.size ((machine.pos + 7) / 8))
      (hwindow : 0 < window) (hfull : s.delivered + window ≤ machine.output.size) :
      Pulled pending window s
        (.ok { piece := machine.output.extract s.delivered (s.delivered + window), tail
               next := { machine, fed, delivered := s.delivered + window } })
  /-- Nothing is left to put out, and all of the input has been used up. -/
  | exhausted {machine : Machine} (hleads : Leads (s.fed ++ pending) s.machine machine)
      (hstarved : machine.read (s.fed ++ pending) = .error .starved)
      (hshort : 0 < window → machine.output.size < s.delivered + window) :
      Pulled pending window s
        (.ok { piece := machine.output.extract s.delivered machine.output.size, tail := .empty
               next :=
                { machine, fed := s.fed ++ pending, delivered := machine.output.size } })

theorem pulled (window : Nat) (hsound : s.machine.Sound (s.fed ++ pending)) :
    Pulled pending window s (s.pull pending window) := by
  have hfuel : 8 * (s.fed ++ pending).size < s.machine.pos + stepBudget (s.fed ++ pending) := by
    rw [stepBudget]
    omega
  have hrun := run_ensures (if window = 0 then none else some (s.delivered + window)) hsound hfuel
  have hall : s.fed ++ slice pending 0 pending.size = s.fed ++ pending := by rw [slice_whole]
  have hnone : slice pending pending.size pending.size = .empty := slice_self _ _
  revert hrun
  unfold pull
  dsimp only
  cases hanswer : s.machine.run (s.fed ++ pending)
      (if window = 0 then none else some (s.delivered + window))
      (stepBudget (s.fed ++ pending)) with
  | error f => exact fun ⟨last, hleads, hfault⟩ => .fault hleads hfault
  | ok machine =>
    -- Without a window there is no target, so the run ends where the input does.
    by_cases hwindow : window = 0
    · simp only [hwindow, if_true]
      rintro ⟨hleads, hreached | ⟨-, hstarved⟩⟩
      · exact nomatch hreached
      · have hended := Pulled.exhausted hleads hstarved (Nat.lt_irrefl 0).elim
        rw [← hall, ← hnone] at hended
        exact hended
    · simp only [hwindow, if_false]
      rintro ⟨hleads, hreached | ⟨hopen, hstarved⟩⟩
      · have hfull : s.delivered + window ≤ machine.output.size := of_decide_eq_true hreached
        have hinside := (hleads.sound hsound).pos_le
        rw [ByteArray.size_append] at hinside
        -- A byte of which one bit was taken counts as used.
        let used := (machine.pos + 7) / 8 - s.fed.size
        have hfed : s.fed ++ slice pending 0 used ++ slice pending used pending.size =
            s.fed ++ pending := by
          rw [ByteArray.append_assoc, slice_append_slice (Nat.zero_le _) (by omega), slice_whole]
        have hsize : (s.fed ++ slice pending 0 used).size =
            max s.fed.size ((machine.pos + 7) / 8) := by
          rw [ByteArray.size_append, size_slice]
          omega
        have hended := Pulled.filled hleads hfed hsize (Nat.pos_of_ne_zero hwindow) hfull
        change Pulled pending window s (.ok _)
        rw [hreached, if_pos rfl, Nat.min_eq_left hfull]
        exact hended
      · have hshort : machine.output.size < s.delivered + window :=
          Nat.lt_of_not_le (of_decide_eq_false hopen)
        have hended := Pulled.exhausted hleads hstarved fun _ => hshort
        change Pulled pending window s (.ok _)
        rw [hopen, if_neg Bool.false_ne_true, Nat.min_eq_right (Nat.le_of_lt hshort), hall, hnone]
        exact hended

/-- A pull keeps to its window, and leaves input alone for a full one only. -/
structure Fits (window : Nat) (d : Delivery) : Prop where
  size_le : 0 < window → d.piece.size ≤ window
  full_of_tail : d.tail.isEmpty = false → 0 < window ∧ d.piece.size = window

theorem size_piece {output : ByteArray} (start : Nat) {stop : Nat} (hstop : stop ≤ output.size) :
    (output.extract start stop).size = stop - start := by
  rw [ByteArray.size_extract, Nat.min_eq_left hstop]

theorem Pulled.fits {d : Delivery} (h : Pulled pending window s (.ok d)) : Fits window d := by
  cases h with
  | @filled machine fed tail _ _ _ hwindow hfull =>
    have hpiece := size_piece s.delivered hfull
    rw [Nat.add_sub_cancel_left] at hpiece
    exact ⟨fun _ => Nat.le_of_eq hpiece, fun _ => ⟨hwindow, hpiece⟩⟩
  | @exhausted machine _ _ hshort =>
    have hpiece := size_piece s.delivered (Nat.le_refl machine.output.size)
    refine ⟨fun hwindow => ?_, fun htail => nomatch htail⟩
    have := hshort hwindow
    rw [hpiece]
    omega

/-! ## Many pulls -/

/-- The loop comes past here: the output so far, the input that the next pull is fed, and the
inflater. -/
inductive Visits (payload : ByteArray) (window : Nat) : ByteArray → ByteArray → Inflater → Prop
  | start : Visits payload window .empty payload {}
  | again {out pending : ByteArray} {s : Inflater} {d : Delivery}
      (hvisits : Visits payload window out pending s) (hpull : s.pull pending window = .ok d)
      (hdone : d.next.isDone = false) (hsomething : (d.piece.isEmpty && d.tail.isEmpty) = false) :
      Visits payload window (out ++ d.piece) d.tail d.next

/-- The loop comes to its end, however many pulls it takes, and this is its answer. -/
inductive Halts (payload : ByteArray) (window : Nat) : Except InflateError ByteArray → Prop
  | fault {out pending : ByteArray} {s : Inflater} {f : Fault}
      (hvisits : Visits payload window out pending s)
      (hpull : s.pull pending window = .error f) : Halts payload window (.error (.corrupt f))
  | done {out pending : ByteArray} {s : Inflater} {d : Delivery}
      (hvisits : Visits payload window out pending s) (hpull : s.pull pending window = .ok d)
      (hdone : d.next.isDone = true) : Halts payload window (.ok (out ++ d.piece))
  | truncated {out pending : ByteArray} {s : Inflater} {d : Delivery}
      (hvisits : Visits payload window out pending s) (hpull : s.pull pending window = .ok d)
      (hdone : d.next.isDone = false)
      (hnothing : (d.piece.isEmpty && d.tail.isEmpty) = true) :
      Halts payload window (.error (.truncated (out ++ d.piece).size))

/-- What the loop keeps up.  The input that was fed and the input that is pending are the payload,
split behind the byte that the machine has come to unless nothing is pending; the machine is where
it would be with all of the payload in hand, and the output so far is the front of what it has put
out. -/
structure OnCourse (payload out pending : ByteArray) (s : Inflater) : Prop where
  fed_append : s.fed ++ pending = payload
  fed_size : pending.isEmpty = true ∨ s.fed.size = (s.machine.pos + 7) / 8
  leads : Leads payload {} s.machine
  delivered_le : s.delivered ≤ s.machine.output.size
  out_eq : out = s.machine.output.extract 0 s.delivered

theorem OnCourse.start (payload : ByteArray) : OnCourse payload .empty payload {} :=
  ⟨ByteArray.empty_append, .inr rfl, .refl, Nat.le_refl _, rfl⟩

theorem OnCourse.sound (h : OnCourse payload out pending s) : s.machine.Sound payload :=
  h.leads.sound (sound_start payload)

theorem OnCourse.pulled (h : OnCourse payload out pending s) (window : Nat) :
    Pulled pending window s (s.pull pending window) :=
  Inflater.pulled window (h.fed_append.symm ▸ h.sound)

/-- The front of the output on the way to it is that of the machine. -/
theorem extract_of_leads {m m' : Machine} (h : Leads payload m m') (hsound : m.Sound payload)
    {n : Nat} (hn : n ≤ m.output.size) : m'.output.extract 0 n = m.output.extract 0 n := by
  obtain ⟨more, hmore⟩ := h.output hsound
  rw [hmore, ByteArray.extract_append, Nat.sub_eq_zero_of_le hn, Nat.zero_sub,
    ByteArray.extract_same, ByteArray.append_empty]

theorem size_le_of_leads {m m' : Machine} (h : Leads payload m m') (hsound : m.Sound payload) :
    m.output.size ≤ m'.output.size := by
  obtain ⟨more, hmore⟩ := h.output hsound
  rw [hmore, ByteArray.size_append]
  omega

/-- What a pull delivers goes on where the output so far ends. -/
theorem OnCourse.append_piece (h : OnCourse payload out pending s) {machine : Machine}
    (hleads : Leads payload s.machine machine) {stop : Nat} (hstop : s.delivered ≤ stop) :
    out ++ machine.output.extract s.delivered stop = machine.output.extract 0 stop := by
  rw [h.out_eq, ← extract_of_leads hleads h.sound h.delivered_le]
  exact (ByteArray.extract_eq_extract_append_extract _ (Nat.zero_le _) hstop).symm

/-- One pull keeps it up. -/
theorem OnCourse.pull {d : Delivery} (h : OnCourse payload out pending s)
    (hpull : s.pull pending window = .ok d) :
    OnCourse payload (out ++ d.piece) d.tail d.next := by
  have hpulled := h.pulled window
  rw [hpull] at hpulled
  have hdelivered := h.delivered_le
  cases hpulled with
  | @filled machine fed tail hleads hfed hsize hwindow hfull =>
    rw [h.fed_append] at hleads hfed
    have hpos := hleads.pos_le h.sound
    refine ⟨hfed, ?_, h.leads.trans hleads, hfull, h.append_piece hleads (Nat.le_add_right _ _)⟩
    rcases h.fed_size with hempty | hbehind
    · -- Nothing was pending, so nothing is left alone now.
      have hlen := congrArg ByteArray.size (hfed.trans h.fed_append.symm)
      rw [ByteArray.size_append, ByteArray.size_append] at hlen
      have hnone : pending.size = 0 := eq_of_beq hempty
      have htail : tail.size = 0 := by omega
      exact .inl (beq_iff_eq.2 htail)
    · exact .inr (by dsimp only; omega)
  | @exhausted machine hleads hstarved hshort =>
    rw [h.fed_append] at hleads
    have hle := size_le_of_leads hleads h.sound
    refine ⟨?_, .inl rfl, h.leads.trans hleads, Nat.le_refl _, h.append_piece hleads (by omega)⟩
    rw [h.fed_append, ByteArray.append_empty]

/-- So it holds wherever the loop comes past. -/
theorem Visits.onCourse (h : Visits payload window out pending s) :
    OnCourse payload out pending s := by
  induction h with
  | start => exact .start payload
  | again _ hpull _ _ ih => exact ih.pull hpull

/-! ## The end of the loop -/

theorem isEmpty_piece {output : ByteArray} {start stop : Nat} (hlt : start < stop)
    (hstop : stop ≤ output.size) : (output.extract start stop).isEmpty = false := by
  have hsize := size_piece start hstop
  exact beq_eq_false_iff_ne.2 (by omega)

/-- A pull that delivers something, or leaves something alone, has come further. -/
theorem OnCourse.delivered_lt {d : Delivery} (h : OnCourse payload out pending s)
    (hpull : s.pull pending window = .ok d)
    (hsomething : (d.piece.isEmpty && d.tail.isEmpty) = false) :
    s.delivered < d.next.delivered := by
  have hpulled := h.pulled window
  rw [hpull] at hpulled
  -- A full window always delivers; a pull that met the end of the input left nothing alone.
  cases hpulled with
  | filled _ _ _ hwindow _ => exact Nat.lt_add_of_pos_right hwindow
  | @exhausted machine _ _ _ =>
    have hpiece : (machine.output.extract s.delivered machine.output.size).isEmpty = false := by
      rcases Bool.and_eq_false_iff.1 hsomething with hpiece | htail
      · exact hpiece
      · exact nomatch htail
    have hsize := size_piece s.delivered (Nat.le_refl machine.output.size)
    have hne := beq_eq_false_iff_ne.1 hpiece
    dsimp only
    omega

/-- A pull that delivers nothing and leaves nothing alone has met the end of the input. -/
theorem OnCourse.starved {d : Delivery} (h : OnCourse payload out pending s)
    (hpull : s.pull pending window = .ok d)
    (hnothing : (d.piece.isEmpty && d.tail.isEmpty) = true) :
    d.next.delivered = d.next.machine.output.size ∧
      d.next.machine.read payload = .error .starved := by
  have hpulled := h.pulled window
  rw [hpull] at hpulled
  cases hpulled with
  | filled _ _ _ hwindow hfull =>
    rw [isEmpty_piece (Nat.lt_add_of_pos_right hwindow) hfull] at hnothing
    exact nomatch hnothing
  | exhausted _ hstarved _ => exact ⟨rfl, h.fed_append ▸ hstarved⟩

theorem OnCourse.answers_of_done (h : OnCourse payload out pending s) (hdone : s.isDone = true) :
    Answers payload (.ok out) := by
  obtain ⟨hfinished, hall⟩ := Bool.and_eq_true_iff.1 hdone
  rw [h.out_eq, eq_of_beq hall, ByteArray.extract_zero_size]
  exact .complete h.leads hfinished

theorem OnCourse.answers_of_starved (h : OnCourse payload out pending s)
    (hall : s.delivered = s.machine.output.size)
    (hstarved : s.machine.read payload = .error .starved) (hdone : s.isDone = false) :
    Answers payload (.error (.truncated out.size)) := by
  have hopen : s.machine.isFinished = false := by
    rw [isDone, hall, beq_self_eq_true, Bool.and_true] at hdone
    exact hdone
  rw [h.out_eq, hall, ByteArray.extract_zero_size]
  refine .truncated h.leads hstarved hopen fun m hm => ?_
  exact (h.leads.of_stuck ⟨_, hstarved⟩ hm).output (hm.sound (sound_start payload))

/-- With one pull for each byte that is still to be delivered, and one more, the loop comes to its
end, and its answer is that of the payload. -/
theorem drain_ensures {last : Machine} (hlast : Leads payload {} last)
    (hstuck : last.Stuck payload) {fuel : Nat} (hvisits : Visits payload window out pending s)
    (hfuel : last.output.size < s.delivered + fuel) :
    Halts payload window (drain window fuel out pending s) ∧
      Answers payload (drain window fuel out pending s) := by
  induction fuel generalizing out pending s with
  | zero =>
    have hs := hvisits.onCourse
    have hsize := size_le_of_leads (hlast.of_stuck hstuck hs.leads) hs.sound
    have hdelivered := hs.delivered_le
    omega
  | succ fuel ih =>
    have hs := hvisits.onCourse
    unfold drain
    cases hpull : s.pull pending window with
    | error f =>
      have hpulled := hs.pulled window
      rw [hpull] at hpulled
      cases hpulled with
      | fault hleads hfault =>
        rw [hs.fed_append] at hleads hfault
        exact ⟨.fault hvisits hpull, .corrupt (hs.leads.trans hleads) hfault⟩
    | ok d =>
      have hnext := hs.pull hpull
      dsimp only
      cases hdone : d.next.isDone with
      | true => exact ⟨.done hvisits hpull hdone, hnext.answers_of_done hdone⟩
      | false =>
        cases hnothing : d.piece.isEmpty && d.tail.isEmpty with
        | true =>
          obtain ⟨hall, hstarved⟩ := hs.starved hpull hnothing
          exact ⟨.truncated hvisits hpull hdone hnothing,
            hnext.answers_of_starved hall hstarved hdone⟩
        | false =>
          -- The pull has delivered something, so there is one pull less to come.
          have hlt := hs.delivered_lt hpull hnothing
          exact ih (.again hvisits hpull hdone hnothing) (by omega)

end Inflater

open Inflater

/-! ## Payloads -/

/-- The numbers that are a window: zero stands for none. -/
def IsWindow (window : Int) : Prop := 0 ≤ window ∧ window < 0x8000000000000000

instance (window : Int) : Decidable (IsWindow window) := inferInstanceAs (Decidable (_ ∧ _))

theorem isWindow_defaultWindow : IsWindow defaultWindow := by decide

theorem inflate_ensures (payload : ByteArray) {window : Int} (h : IsWindow window) :
    Halts payload window.toNat (inflate payload window) ∧
      Answers payload (inflate payload window) := by
  obtain ⟨last, hlast, hstuck⟩ := exists_last (sound_start payload)
  have hsigned : isSigned64 window = true := by
    obtain ⟨hnonneg, hlt⟩ := h
    rw [isSigned64, Bool.and_eq_true, decide_eq_true_iff, decide_eq_true_iff]
    omega
  have hsize : last.output.size < 0 + pullBudget payload := by
    have hsound := hlast.sound (sound_start payload)
    have hpos := hsound.pos_le
    have houtput := hsound.output_le
    rw [pullBudget, stepBudget]
    omega
  rw [inflate, hsigned, Bool.not_true, if_neg Bool.false_ne_true, if_neg (Int.not_lt_of_ge h.1)]
  exact drain_ensures hlast hstuck .start hsize

/-- The window does not show in the answer. -/
theorem inflate_windows (payload : ByteArray) {window₁ window₂ : Int} (h₁ : IsWindow window₁)
    (h₂ : IsWindow window₂) : inflate payload window₁ = inflate payload window₂ :=
  (inflate_ensures payload h₁).2.unique (inflate_ensures payload h₂).2

/-- Whatever the windows, the pulls come to an end, and all have the same answer: all of the output
of a complete stream, its fault, or how much a payload that ends early has put out.  On the way,
each pull is fed just what of the payload the pulls before it have left alone. -/
theorem inflate_any_window (payload : ByteArray) {window₁ window₂ : Int} (h₁ : IsWindow window₁)
    (h₂ : IsWindow window₂) :
    Halts payload window₁.toNat (inflate payload window₁) ∧
      Halts payload window₂.toNat (inflate payload window₂) ∧
      inflate payload window₁ = inflate payload window₂ ∧
      Answers payload (inflate payload window₁) ∧
      ∀ (window : Nat) (out pending : ByteArray) (s : Inflater),
        Visits payload window out pending s →
          OnCourse payload out pending s ∧
            ∀ d, s.pull pending window = .ok d → Fits window d := by
  obtain ⟨hhalts₁, hanswers₁⟩ := inflate_ensures payload h₁
  obtain ⟨hhalts₂, -⟩ := inflate_ensures payload h₂
  refine ⟨hhalts₁, hhalts₂, inflate_windows payload h₁ h₂, hanswers₁,
    fun window out pending s hvisits => ⟨hvisits.onCourse, fun d hpull => ?_⟩⟩
  exact Pulled.fits (hpull ▸ hvisits.onCourse.pulled window)

/-- The stream of two letters, stored as they are. -/
def storedLetters : ByteArray :=
  ⟨#[0x78, 0x01, 0x01, 0x02, 0x00, 0xFD, 0xFF, 0x61, 0x62, 0x01, 0x26, 0x00, 0xC4]⟩

theorem inflate_storedLetters : inflate storedLetters 0 = .ok ⟨#[0x61, 0x62]⟩ := by
  decide +kernel

/-- Windows that the output fills just, once and twice. -/
theorem inflate_any_window_storedLetters :
    IsWindow 1 ∧ IsWindow 2 ∧ inflate storedLetters 1 = inflate storedLetters 2 ∧
      inflate storedLetters 2 = .ok ⟨#[0x61, 0x62]⟩ := by
  have hall : IsWindow 0 := by decide
  have hone : IsWindow 1 := by decide
  have htwo : IsWindow 2 := by decide
  obtain ⟨-, -, hsame, -, -⟩ := inflate_any_window storedLetters hone htwo
  obtain ⟨-, -, hwhole, -, -⟩ := inflate_any_window storedLetters htwo hall
  exact ⟨hone, htwo, hsame, hwhole.trans inflate_storedLetters⟩

/-- A number that no size in memory can have is no window. -/
theorem inflate_beyond_windows :
    inflate storedLetters 0 = .ok ⟨#[0x61, 0x62]⟩ ∧
      inflate storedLetters 0x8000000000000000 = .error .unaddressableWindow ∧
      ¬ ∀ (payload : ByteArray) (window₁ window₂ : Int), 0 ≤ window₁ → 0 ≤ window₂ →
        inflate payload window₁ = inflate payload window₂ := by
  have hbeyond : inflate storedLetters 0x8000000000000000 = .error .unaddressableWindow := rfl
  refine ⟨inflate_storedLetters, hbeyond, fun h => ?_⟩
  have hsame := h storedLetters 0 0x8000000000000000 (by decide) (by decide)
  rw [inflate_storedLetters, hbeyond] at hsame
  exact nomatch hsame

end RegionSalvage.Zlib
