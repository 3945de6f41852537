import RegionSalvage.Proofs.Bytes
import RegionSalvage.Zlib.Machine

/-! # What a step of the machine does

A step takes at least one bit, and none that is not there; it puts out at most 258 bytes, or the
bytes of a stored block that it takes.  `Machine.Fits` says of each kind of step what else is known
of it, and `Machine.Sound` is what holds of a machine at any time: it stands inside its input, a
stored block starts at a byte, and a code has words to compare with.

* `Machine.read_ensures`: every step that is read fits.
* `Machine.Sound.make`: a step that fits keeps the machine sound.
-/

namespace RegionSalvage.Zlib

/-! ## What a reader ensures -/

/-- What is read, if anything is, has a property. -/
def Ensures {α : Type} (x : Except Stop α) (P : α → Prop) : Prop := ∀ a, x = .ok a → P a

namespace Ensures

variable {α β : Type} {x : Except Stop α} {P : α → Prop} {Q : β → Prop}

theorem pure {a : α} (h : P a) : Ensures (.ok a) P := fun _ hok => Except.ok.inj hok ▸ h

theorem error (e : Stop) : Ensures (.error e : Except Stop α) P := nofun

theorem bind (h : Ensures x P) {f : α → Except Stop β} (hrest : ∀ a, P a → Ensures (f a) Q) :
    Ensures (x >>= f) Q := by
  cases x with
  | error e => exact error e
  | ok a => exact hrest a (h a rfl)

theorem ite {c : Prop} [Decidable c] {y : Except Stop α} (hpos : c → Ensures x P)
    (hneg : ¬ c → Ensures y P) : Ensures (if c then x else y) P := by
  split
  · next h => exact hpos h
  · next h => exact hneg h

theorem check {c : Prop} [Decidable c] {e : Stop} {f : PUnit → Except Stop α}
    (hrest : ¬ c → Ensures (f ⟨⟩) P) : Ensures (if c then throw e >>= f else f ⟨⟩) P :=
  .ite (fun _ => .error e) hrest

end Ensures

variable {input : ByteArray}

/-! ## Bits and codes -/

theorem bitsValue_lt (input : ByteArray) (pos n : Nat) : bitsValue input pos n < 2 ^ n := by
  induction n generalizing pos with
  | zero => exact Nat.one_pos
  | succ n ih =>
    have hbit := Bool.toNat_lt (bitAt input pos)
    have hrest := ih (pos + 1)
    rw [bitsValue, Nat.pow_succ]
    omega

theorem takeBits_ensures (pos n : Nat) :
    Ensures (takeBits input pos n) fun (value, next) =>
      value < 2 ^ n ∧ next = pos + n ∧ next ≤ 8 * input.size :=
  .ite (fun h => .pure ⟨bitsValue_lt input pos n, rfl, h⟩) fun _ => .error _

/-- A code word takes bits that are there, and at least one if there are words to compare with. -/
theorem follow_ensures {counts : List Nat} {pos : Nat} (symbols : Array Nat)
    (code first index : Nat) (hpos : pos ≤ 8 * input.size) :
    Ensures (Code.follow input symbols counts code first index pos) fun (_, next) =>
      pos ≤ next ∧ next ≤ 8 * input.size ∧ (counts ≠ [] → pos < next) := by
  induction counts generalizing code first index pos with
  | nil => exact .pure ⟨Nat.le_refl _, hpos, fun h => absurd rfl h⟩
  | cons n counts ih =>
    unfold Code.follow
    refine .ite (fun hinside => ?_) fun _ => .error _
    refine .ite (fun _ => .pure ⟨by omega, by omega, fun _ => by omega⟩) fun _ => ?_
    -- No word of this length: behind the bit that was taken, the longer words are tried.
    intro (symbol, next) hnext
    obtain ⟨hle, hinside, -⟩ := ih _ _ _ (by omega) _ hnext
    exact ⟨by omega, hinside, fun _ => by omega⟩

theorem decode_ensures (c : Code) {pos : Nat} (hpos : pos ≤ 8 * input.size) :
    Ensures (c.decode input pos) fun (_, next) =>
      pos ≤ next ∧ next ≤ 8 * input.size ∧ (c.counts ≠ [] → pos < next) :=
  follow_ensures _ _ _ _ hpos

theorem counts_ofLengths (lengths : List Nat) : (Code.ofLengths lengths).counts ≠ [] := by
  simp [Code.ofLengths]

/-! ## Headers of blocks -/

theorem takeTriples_ensures (n : Nat) {pos : Nat} (hpos : pos ≤ 8 * input.size) :
    Ensures (takeTriples input n pos) fun (_, next) => pos ≤ next ∧ next ≤ 8 * input.size := by
  induction n generalizing pos with
  | zero => exact .pure ⟨Nat.le_refl _, hpos⟩
  | succ n ih =>
    unfold takeTriples
    refine .bind (takeBits_ensures pos 3) fun (value, next) ⟨_, hnext, hinside⟩ => ?_
    exact .bind (ih hinside) fun (values, last) ⟨hle, hlast⟩ => .pure ⟨by omega, hlast⟩

theorem takeRun_ensures (symbol : Nat) (lengths : Array Nat) {pos : Nat}
    (hpos : pos ≤ 8 * input.size) :
    Ensures (takeRun input symbol lengths pos) fun (_, _, next) =>
      pos ≤ next ∧ next ≤ 8 * input.size := by
  unfold takeRun
  refine .ite (fun _ => .pure ⟨Nat.le_refl _, hpos⟩) fun _ =>
    .ite (fun _ => ?_) fun _ => .ite (fun _ => ?_) fun _ => ?_
  · refine .bind (takeBits_ensures pos 2) fun (extra, next) ⟨_, hnext, hinside⟩ => ?_
    dsimp only
    cases lengths.back? with
    | none => exact .error _
    | some length => exact .pure ⟨Nat.le.intro hnext.symm, hinside⟩
  · exact .bind (takeBits_ensures pos 3) fun (extra, next) ⟨_, hnext, hinside⟩ =>
      .pure ⟨Nat.le.intro hnext.symm, hinside⟩
  · exact .bind (takeBits_ensures pos 7) fun (extra, next) ⟨_, hnext, hinside⟩ =>
      .pure ⟨Nat.le.intro hnext.symm, hinside⟩

theorem takeLengths_ensures (code : Code) (total fuel : Nat) (lengths : Array Nat) {pos : Nat}
    (hpos : pos ≤ 8 * input.size) :
    Ensures (takeLengths input code total fuel lengths pos) fun (_, next) =>
      pos ≤ next ∧ next ≤ 8 * input.size := by
  induction fuel generalizing lengths pos with
  | zero => exact .pure ⟨Nat.le_refl _, hpos⟩
  | succ fuel ih =>
    unfold takeLengths
    refine .ite (fun _ => .pure ⟨Nat.le_refl _, hpos⟩) fun _ => ?_
    refine .bind (decode_ensures code hpos) fun (symbol, behind) ⟨hsymbol, hinside, _⟩ => ?_
    refine .bind (takeRun_ensures _ _ hinside) fun (length, count, next) ⟨hrun, hinside⟩ => ?_
    refine .check fun _ (all, last) hlast => ?_
    obtain ⟨hle, hinside⟩ := ih _ hinside _ hlast
    exact ⟨by omega, hinside⟩

theorem takeCodes_ensures {pos : Nat} :
    Ensures (takeCodes input pos) fun (codes, next) =>
      pos < next ∧ next ≤ 8 * input.size ∧ codes.literals.counts ≠ [] := by
  unfold takeCodes
  refine .bind (takeBits_ensures pos 14) fun (counts, next) ⟨_, hcounts, hinside⟩ => ?_
  refine .check fun _ => ?_
  refine .bind (takeTriples_ensures _ hinside) fun (triples, next) ⟨htriples, hinside⟩ => ?_
  refine .check fun _ => ?_
  refine .bind (takeLengths_ensures _ _ _ _ hinside) fun (lengths, next) ⟨hlengths, hinside⟩ => ?_
  refine .check fun _ => .check fun _ => .check fun _ => .pure ?_
  exact ⟨by omega, hinside, counts_ofLengths _⟩

/-! ## Steps -/

/-- What holds of the mode of a machine at a position. -/
def Mode.Sound (pos : Nat) : Mode → Prop
  | .stored left => 8 ∣ pos ∧ 0 < left
  | .compressed codes => codes.literals.counts ≠ []
  | _ => True

namespace Machine

/-- What is known of a step of a machine, by its kind. -/
def Fits (m : Machine) (pos : Nat) : Move → Prop
  | .enterBlock _ mode => mode.Sound pos
  | .store left count => m.mode = .stored left ∧ 0 < count ∧ count ≤ left ∧ pos = m.pos + 8 * count
  | .literal _ => ∃ codes, m.mode = .compressed codes
  | .copy length _ => (∃ codes, m.mode = .compressed codes) ∧ length ≤ 258
  | _ => True

/-- A machine that stands inside its input. -/
structure Sound (input : ByteArray) (m : Machine) : Prop where
  pos_le : m.pos ≤ 8 * input.size
  mode : m.mode.Sound m.pos
  output_le : m.output.size ≤ 258 * m.pos

variable {m : Machine}

theorem sound_start (input : ByteArray) : Sound input {} := ⟨Nat.zero_le _, trivial, Nat.le_refl _⟩

theorem le_alignToByte (pos : Nat) : pos ≤ alignToByte pos ∧ 8 ∣ alignToByte pos := by
  unfold alignToByte
  omega

theorem lengthTable_le : ∀ entry ∈ lengthTable.toList, entry.2 + 2 ^ entry.1 ≤ 259 := by decide

theorem readStreamHeader_ensures (pos : Nat) :
    Ensures (readStreamHeader input pos) fun (move, next) =>
      pos < next ∧ next ≤ 8 * input.size ∧ m.Fits next move := by
  unfold readStreamHeader
  refine .bind (takeBits_ensures pos 16) fun (header, next) ⟨_, hnext, hinside⟩ => ?_
  refine .check fun _ => .check fun _ => .check fun _ => .ite (fun _ => ?_) fun _ => ?_
  · -- The identifier of a preset dictionary is read before the dictionary is missed.
    exact .bind (takeBits_ensures _ 32) fun _ _ => .error _
  · exact .pure ⟨by omega, hinside, trivial⟩

theorem readBlockHeader_ensures (pos : Nat) :
    Ensures (readBlockHeader input pos) fun (move, next) =>
      pos < next ∧ next ≤ 8 * input.size ∧ m.Fits next move := by
  unfold readBlockHeader
  refine .bind (takeBits_ensures pos 3) fun (header, next) ⟨_, hnext, hinside⟩ => ?_
  dsimp only
  generalize header / 2 = blockType
  -- Types 0, 1 and 2: stored, with the fixed codes, with codes of its own.
  match blockType with
  | 0 =>
    obtain ⟨hle, haligned⟩ := le_alignToByte next
    refine .bind (takeBits_ensures _ 32) fun (lengths, behind) ⟨_, hbehind, hinside⟩ => ?_
    refine .check fun _ => .ite (fun _ => .pure ⟨by omega, hinside, trivial⟩) fun hlength => ?_
    exact .pure ⟨by omega, hinside, by omega, Nat.pos_of_ne_zero hlength⟩
  | 1 => exact .pure ⟨by omega, hinside, counts_ofLengths _⟩
  | 2 =>
    refine .bind takeCodes_ensures fun (codes, behind) ⟨hlt, hinside, hcounts⟩ => ?_
    exact .pure ⟨by omega, hinside, hcounts⟩
  | _ + 3 => exact .error _

theorem readStored_ensures {left pos : Nat} (hmode : m.mode = .stored left) (hpos : m.pos = pos)
    (haligned : 8 ∣ pos) :
    Ensures (readStored input left pos) fun (move, next) =>
      pos < next ∧ next ≤ 8 * input.size ∧ m.Fits next move := by
  unfold readStored
  refine .ite (fun _ => .error _) fun hcount => .pure ⟨by omega, by omega, hmode, by omega, ?_, ?_⟩
  · exact Nat.min_le_left _ _
  · rw [hpos]

theorem readDistance_ensures (codes : BlockCodes) {pos : Nat} (hpos : pos ≤ 8 * input.size) :
    Ensures (readDistance input codes pos) fun (_, next) =>
      pos ≤ next ∧ next ≤ 8 * input.size := by
  unfold readDistance
  refine .bind (decode_ensures _ hpos) fun (symbol, next) ⟨hle, hinside, _⟩ => ?_
  dsimp only
  generalize symbol.bind (fun s => distanceTable[s]?) = entry
  cases entry with
  | none => exact .error _
  | some entry =>
    exact .bind (takeBits_ensures _ _) fun (extra, last) ⟨_, hlast, hinside⟩ =>
      .pure ⟨by omega, hinside⟩

theorem readSymbol_ensures {codes : BlockCodes} {size pos : Nat}
    (hmode : m.mode = .compressed codes) (hcounts : codes.literals.counts ≠ [])
    (hpos : pos ≤ 8 * input.size) :
    Ensures (readSymbol input codes size pos) fun (move, next) =>
      pos < next ∧ next ≤ 8 * input.size ∧ m.Fits next move := by
  unfold readSymbol
  refine .bind (decode_ensures _ hpos) fun (symbol, next) ⟨_, hinside, hlt⟩ => ?_
  have hlt := hlt hcounts
  dsimp only
  -- A literal and the end of the block take only the code word; a copy takes extra bits and a
  -- distance.
  cases symbol with
  | none => exact .error _
  | some symbol =>
    refine .ite (fun _ => .pure ⟨hlt, hinside, codes, hmode⟩) fun _ =>
      .ite (fun _ => .pure ⟨hlt, hinside, trivial⟩) fun _ => ?_
    cases hentry : lengthTable[symbol - 257]? with
    | none => exact .error _
    | some entry =>
      have hbound := lengthTable_le entry (Array.mem_toList_iff.2 (Array.mem_of_getElem? hentry))
      refine .bind (takeBits_ensures _ _) fun (extra, behind) ⟨hextra, hbehind, hinside⟩ => ?_
      refine .bind (readDistance_ensures codes hinside) fun (distance, last) ⟨hle, hlast⟩ => ?_
      exact .check fun _ => .pure ⟨by omega, hlast, ⟨codes, hmode⟩, by omega⟩

theorem readChecksum_ensures (output : ByteArray) (pos : Nat) :
    Ensures (readChecksum input output pos) fun (move, next) =>
      pos < next ∧ next ≤ 8 * input.size ∧ m.Fits next move := by
  unfold readChecksum
  obtain ⟨hle, -⟩ := le_alignToByte pos
  refine .bind (takeBits_ensures _ 32) fun (_, next) ⟨_, hnext, hinside⟩ => .check fun _ => ?_
  exact .pure ⟨by omega, hinside, trivial⟩

/-- Every step takes bits that are there, and fits. -/
theorem read_ensures (h : m.Sound input) :
    Ensures (m.read input) fun (move, next) =>
      m.pos < next ∧ next ≤ 8 * input.size ∧ m.Fits next move := by
  have hmode := h.mode
  unfold read
  split
  · exact readStreamHeader_ensures _
  · exact readBlockHeader_ensures _
  · next left hstored =>
    rw [hstored] at hmode
    exact readStored_ensures hstored rfl hmode.1
  · next codes hcompressed =>
    rw [hcompressed] at hmode
    exact readSymbol_ensures hcompressed hmode h.pos_le
  · exact readChecksum_ensures _ _
  · exact .error _

/-! ## What a step puts out -/

theorem copyBack_eq (distance n : Nat) (out : ByteArray) :
    ∃ more : ByteArray, copyBack distance n out = out ++ more ∧ more.size = n := by
  induction n generalizing out with
  | zero => exact ⟨.empty, ByteArray.append_empty.symm, rfl⟩
  | succ n ih =>
    let byte := UInt8.ofNat (octet out (out.size - distance))
    obtain ⟨more, hmore, hsize⟩ := ih (out.push byte)
    refine ⟨[byte].toByteArray ++ more, ?_, ?_⟩
    · rw [copyBack, hmore, ← ByteArray.append_toByteArray_singleton, ByteArray.append_assoc]
    · rw [ByteArray.size_append, hsize, Nat.add_comm]
      rfl

/-- Nothing that has been put out is taken back, and what is added is bounded by what is taken. -/
theorem output_make (input : ByteArray) {move : Move} {pos : Nat} (hpos : m.pos < pos)
    (hfits : m.Fits pos move) :
    ∃ more : ByteArray, (m.make input pos move).output = m.output ++ more ∧
      more.size ≤ 258 * (pos - m.pos) := by
  have hnone : ∃ more : ByteArray, m.output = m.output ++ more ∧ more.size ≤ 258 * (pos - m.pos) :=
    ⟨.empty, ByteArray.append_empty.symm, Nat.zero_le _⟩
  -- A piece of a stored block has as many bytes as it takes; a copy has at most 258.
  cases move with
  | enterStream => exact hnone
  | enterBlock isLast mode => exact hnone
  | skipBlock isLast => exact hnone
  | store left count =>
    obtain ⟨-, -, -, hstop⟩ := hfits
    refine ⟨_, rfl, ?_⟩
    rw [size_slice]
    omega
  | literal value =>
    refine ⟨[UInt8.ofNat value].toByteArray, ByteArray.append_toByteArray_singleton.symm, ?_⟩
    change 1 ≤ _
    omega
  | copy length distance =>
    obtain ⟨more, hmore, hsize⟩ := copyBack_eq distance length m.output
    refine ⟨more, hmore, ?_⟩
    have hlength := hfits.2
    omega
  | leaveBlock => exact hnone
  | finish => exact hnone

theorem pos_make (input : ByteArray) (m : Machine) (pos : Nat) (move : Move) :
    (m.make input pos move).pos = pos := by
  cases move <;> rfl

theorem sound_afterBlock (isLast : Bool) (pos : Nat) : (afterBlock isLast).Sound pos := by
  cases isLast <;> trivial

/-- A step that fits keeps a machine sound. -/
theorem Sound.make (h : m.Sound input) {move : Move} {pos : Nat} (hpos : m.pos < pos)
    (hinside : pos ≤ 8 * input.size) (hfits : m.Fits pos move) :
    (m.make input pos move).Sound input := by
  have houtput : (m.make input pos move).output.size ≤ 258 * pos := by
    obtain ⟨more, hmore, hsize⟩ := output_make input hpos hfits
    have hbefore := h.output_le
    rw [hmore, ByteArray.size_append]
    omega
  refine ⟨by rwa [pos_make], ?_, by rwa [pos_make]⟩
  rw [pos_make]
  have hmode := h.mode
  -- Only what a step says of the mode is left to see.
  cases move with
  | enterStream => trivial
  | enterBlock isLast mode => exact hfits
  | skipBlock isLast => exact sound_afterBlock _ _
  | store left count =>
    obtain ⟨hstored, hcount, hle, hstop⟩ := hfits
    rw [hstored] at hmode
    obtain ⟨haligned, -⟩ := hmode
    change (if count = left then afterBlock m.isLast else Mode.stored (left - count)).Sound pos
    split
    · exact sound_afterBlock _ _
    · exact ⟨by omega, by omega⟩
  | literal value =>
    obtain ⟨codes, hcompressed⟩ := hfits
    rw [hcompressed] at hmode
    change m.mode.Sound pos
    rw [hcompressed]
    exact hmode
  | copy length distance =>
    obtain ⟨⟨codes, hcompressed⟩, -⟩ := hfits
    rw [hcompressed] at hmode
    change m.mode.Sound pos
    rw [hcompressed]
    exact hmode
  | leaveBlock => exact sound_afterBlock _ _
  | finish => trivial

end Machine

end RegionSalvage.Zlib
