import RegionSalvage.Proofs.Bytes
import RegionSalvage.Zlib.Machine

/-! # Reading when more input follows

Every part of a stream is read from the bits at a position on, and reading starves where they end.
So bytes that are put behind the input change nothing that could be read without them: an answer
stays the same answer, and only a reader that starved may go on (`Resumes`).

A piece of a stored block is the exception, for it is as long as the input allows; see
`Machine.step_stored_append` in `Proofs.Zlib.Boundary`.
-/

namespace RegionSalvage.Zlib

/-- What a reader says when more input is there: the same, unless it had starved. -/
def Resumes {α : Type} (short long : Except Stop α) : Prop := short = .error .starved ∨ long = short

namespace Resumes

variable {α β : Type} {short long : Except Stop α}

theorem refl (x : Except Stop α) : Resumes x x := .inr rfl

theorem eq_ok {a : α} (h : Resumes short long) (hshort : short = .ok a) : long = .ok a := by
  rcases h with hstarved | hsame
  · exact nomatch hshort.symm.trans hstarved
  · exact hsame.trans hshort

theorem eq_fault {f : Fault} (h : Resumes short long) (hshort : short = .error (.fault f)) :
    long = .error (.fault f) := by
  rcases h with hstarved | hsame
  · exact nomatch hshort.symm.trans hstarved
  · exact hsame.trans hshort

/-- Where both parts of a reader resume, the whole does. -/
theorem bind (h : Resumes short long) {f g : α → Except Stop β} (hrest : ∀ a, Resumes (f a) (g a)) :
    Resumes (short >>= f) (long >>= g) := by
  rcases h with hstarved | hsame
  · subst hstarved
    exact .inl rfl
  · subst hsame
    cases long with
    | error e => exact refl _
    | ok a => exact hrest a

theorem ite {c : Prop} [Decidable c] {short' long' : Except Stop α} (h : Resumes short long)
    (h' : Resumes short' long') :
    Resumes (if c then short else short') (if c then long else long') := by
  split
  · exact h
  · exact h'

/-- A check that does not look at the input fails before and behind the extension. -/
theorem check {c : Prop} [Decidable c] {e : Stop} {f g : PUnit → Except Stop β}
    (hrest : ∀ u, Resumes (f u) (g u)) :
    Resumes (if c then throw e >>= f else f ⟨⟩) (if c then throw e >>= g else g ⟨⟩) :=
  .ite (.bind (.refl _) hrest) (hrest _)

end Resumes

variable {input : ByteArray} (rest : ByteArray)

/-! ## Bits -/

theorem bitsValue_append {pos n : Nat} (h : pos + n ≤ 8 * input.size) :
    bitsValue (input ++ rest) pos n = bitsValue input pos n := by
  induction n generalizing pos with
  | zero => rfl
  | succ n ih => rw [bitsValue, bitsValue, bitAt_append_left (by omega), ih (by omega)]

theorem takeBits_resumes (pos n : Nat) :
    Resumes (takeBits input pos n) (takeBits (input ++ rest) pos n) := by
  unfold takeBits
  by_cases h : pos + n ≤ 8 * input.size
  · right
    rw [if_pos h, if_pos (by rw [ByteArray.size_append]; omega), bitsValue_append rest h]
  · left
    rw [if_neg h]

/-! ## Codes -/

theorem follow_resumes (symbols : Array Nat) (counts : List Nat) (code first index pos : Nat) :
    Resumes (Code.follow input symbols counts code first index pos)
      (Code.follow (input ++ rest) symbols counts code first index pos) := by
  induction counts generalizing code first index pos with
  | nil => exact .refl _
  | cons n counts ih =>
    unfold Code.follow
    by_cases h : pos < 8 * input.size
    · have hlong : pos < 8 * (input ++ rest).size := by
        rw [ByteArray.size_append]
        omega
      rw [if_pos h, if_pos hlong, bitAt_append_left h]
      exact .ite (.refl _) (ih _ _ _ _)
    · left
      rw [if_neg h]

theorem decode_resumes (c : Code) (pos : Nat) :
    Resumes (c.decode input pos) (c.decode (input ++ rest) pos) :=
  follow_resumes rest _ _ _ _ _ _

/-! ## Headers of blocks -/

theorem takeTriples_resumes (n pos : Nat) :
    Resumes (takeTriples input n pos) (takeTriples (input ++ rest) n pos) := by
  induction n generalizing pos with
  | zero => exact .refl _
  | succ n ih =>
    unfold takeTriples
    exact .bind (takeBits_resumes rest _ _) fun _ => .bind (ih _) fun _ => .refl _

theorem takeRun_resumes (symbol : Nat) (lengths : Array Nat) (pos : Nat) :
    Resumes (takeRun input symbol lengths pos) (takeRun (input ++ rest) symbol lengths pos) := by
  unfold takeRun
  refine .ite (.refl _) (.ite ?_ (.ite ?_ ?_))
  · exact .bind (takeBits_resumes rest _ _) fun _ => .refl _
  · exact .bind (takeBits_resumes rest _ _) fun _ => .refl _
  · exact .bind (takeBits_resumes rest _ _) fun _ => .refl _

theorem takeLengths_resumes (code : Code) (total fuel : Nat) (lengths : Array Nat) (pos : Nat) :
    Resumes (takeLengths input code total fuel lengths pos)
      (takeLengths (input ++ rest) code total fuel lengths pos) := by
  induction fuel generalizing lengths pos with
  | zero => exact .refl _
  | succ fuel ih =>
    unfold takeLengths
    refine .ite (.refl _) (.bind (decode_resumes rest _ _) fun _ =>
      .bind (takeRun_resumes rest _ _ _) fun _ => ?_)
    exact .ite (.refl _) (ih _ _)

theorem takeCodes_resumes (pos : Nat) :
    Resumes (takeCodes input pos) (takeCodes (input ++ rest) pos) := by
  unfold takeCodes
  refine .bind (takeBits_resumes rest _ _) fun (counts, pos) => .check fun _ => ?_
  refine .bind (takeTriples_resumes rest _ _) fun (triples, pos) => .check fun _ => ?_
  exact .bind (takeLengths_resumes rest _ _ _ _ _) fun _ => .refl _

/-! ## Steps -/

namespace Machine

theorem readStreamHeader_resumes (pos : Nat) :
    Resumes (readStreamHeader input pos) (readStreamHeader (input ++ rest) pos) := by
  unfold readStreamHeader
  refine .bind (takeBits_resumes rest _ _) fun (header, pos) =>
    .check fun _ => .check fun _ => .check fun _ => ?_
  exact .ite (.bind (takeBits_resumes rest _ _) fun _ => .refl _) (.refl _)

theorem readBlockHeader_resumes (pos : Nat) :
    Resumes (readBlockHeader input pos) (readBlockHeader (input ++ rest) pos) := by
  unfold readBlockHeader
  refine .bind (takeBits_resumes rest _ _) fun (header, pos) => ?_
  dsimp only
  generalize header / 2 = blockType
  match blockType with
  | 0 => exact .bind (takeBits_resumes rest _ _) fun _ => .refl _
  | 1 => exact .refl (.ok _)
  | 2 => exact .bind (takeCodes_resumes rest _) fun _ => .refl _
  | _ + 3 => exact .refl (.error _)

theorem readDistance_resumes (codes : BlockCodes) (pos : Nat) :
    Resumes (readDistance input codes pos) (readDistance (input ++ rest) codes pos) := by
  unfold readDistance
  refine .bind (decode_resumes rest _ _) fun (symbol, pos) => ?_
  dsimp only
  generalize symbol.bind (fun s => distanceTable[s]?) = entry
  cases entry with
  | none => exact .refl _
  | some entry => exact .bind (takeBits_resumes rest _ _) fun _ => .refl _

theorem readSymbol_resumes (codes : BlockCodes) (size pos : Nat) :
    Resumes (readSymbol input codes size pos) (readSymbol (input ++ rest) codes size pos) := by
  unfold readSymbol
  refine .bind (decode_resumes rest _ _) fun (symbol, pos) => ?_
  dsimp only
  cases symbol with
  | none => exact .refl _
  | some symbol =>
    refine .ite (.refl _) (.ite (.refl _) ?_)
    generalize lengthTable[symbol - 257]? = entry
    cases entry with
    | none => exact .refl _
    | some entry =>
      exact .bind (takeBits_resumes rest _ _) fun _ =>
        .bind (readDistance_resumes rest _ _) fun _ => .refl _

theorem readChecksum_resumes (output : ByteArray) (pos : Nat) :
    Resumes (readChecksum input output pos) (readChecksum (input ++ rest) output pos) := by
  unfold readChecksum takeBits
  dsimp only
  by_cases h : alignToByte pos + 32 ≤ 8 * input.size
  · have hlong : alignToByte pos + 32 ≤ 8 * (input ++ rest).size := by
      rw [ByteArray.size_append]
      omega
    rw [if_pos h, if_pos hlong, bitsValue_append rest h, be32_append_left (by omega)]
    exact .refl _
  · left
    rw [if_neg h]
    rfl

end Machine

end RegionSalvage.Zlib
