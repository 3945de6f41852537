import RegionSalvage.Zlib.Code

/-! # Headers of compressed blocks

A block with codes of its own starts with the lengths of their words.  These are written in a third
code, whose lengths come first, in an order of their own; runs of equal lengths are abbreviated.
-/

namespace RegionSalvage.Zlib

/-- The codes of a compressed block. -/
structure BlockCodes where
  literals : Code
  distances : Code

/-- The order in which the lengths of the code for code lengths are written. -/
def lengthOrder : List Nat := [16, 17, 18, 0, 8, 7, 9, 6, 10, 5, 11, 4, 12, 3, 13, 2, 14, 1, 15]

/-- Takes `n` numbers of three bits. -/
def takeTriples (input : ByteArray) : (n pos : Nat) → Except Stop (List Nat × Nat)
  | 0, pos => .ok ([], pos)
  | n + 1, pos => do
    let (value, pos) ← takeBits input pos 3
    let (rest, pos) ← takeTriples input n pos
    return (value :: rest, pos)

/-- Appends `n` copies of a length. -/
def appendCopies (lengths : Array Nat) (length : Nat) : (n : Nat) → Array Nat
  | 0 => lengths
  | n + 1 => appendCopies (lengths.push length) length n

/-- The run of lengths that a symbol of the code for code lengths stands for: the length, how often
it is repeated, and the position behind its extra bits. -/
def takeRun (input : ByteArray) (symbol : Nat) (lengths : Array Nat) (pos : Nat) :
    Except Stop (Nat × Nat × Nat) := do
  if symbol < 16 then return (symbol, 1, pos)
  else if symbol = 16 then
    let (extra, pos) ← takeBits input pos 2
    match lengths.back? with
    | none => throw (.fault .bitLengthRepeat)
    | some length => return (length, 3 + extra, pos)
  else if symbol = 17 then
    let (extra, pos) ← takeBits input pos 3
    return (0, 3 + extra, pos)
  else
    let (extra, pos) ← takeBits input pos 7
    return (0, 11 + extra, pos)

/-- Reads `total` code lengths in at most `fuel` runs, behind those already there.  A code without
words reads every bit as length zero. -/
def takeLengths (input : ByteArray) (code : Code) (total : Nat) :
    (fuel : Nat) → (lengths : Array Nat) → (pos : Nat) → Except Stop (Array Nat × Nat)
  | 0, lengths, pos => .ok (lengths, pos)
  | fuel + 1, lengths, pos =>
    if total ≤ lengths.size then .ok (lengths, pos)
    else do
      let (symbol, pos) ← code.decode input pos
      let (length, count, pos) ← takeRun input (symbol.getD 0) lengths pos
      if total < lengths.size + count then throw (.fault .bitLengthRepeat)
      takeLengths input code total fuel (appendCopies lengths length count) pos

/-- Reads the codes of a block at `pos`. -/
def takeCodes (input : ByteArray) (pos : Nat) : Except Stop (BlockCodes × Nat) := do
  let (counts, pos) ← takeBits input pos 14
  let literalCount := counts % 32 + 257
  let distanceCount := counts / 32 % 32 + 1
  let lengthCount := counts / 1024 + 4
  if 286 < literalCount ∨ 30 < distanceCount then throw (.fault .tooManySymbols)
  let (triples, pos) ← takeTriples input lengthCount pos
  let lengthLengths := (List.range 19).map fun symbol =>
    ((lengthOrder.zip triples).lookup symbol).getD 0
  if !Code.isAcceptableForLengths lengthLengths then throw (.fault .codeLengths)
  let total := literalCount + distanceCount
  let (lengths, pos) ← takeLengths input (.ofLengths lengthLengths) total total #[] pos
  let literalLengths := lengths.toList.take literalCount
  let distanceLengths := lengths.toList.drop literalCount
  if literalLengths.getD 256 0 = 0 then throw (.fault .missingEndOfBlock)
  if !Code.isAcceptable literalLengths then throw (.fault .literalLengths)
  if !Code.isAcceptable distanceLengths then throw (.fault .distances)
  return (⟨.ofLengths literalLengths, .ofLengths distanceLengths⟩, pos)

end RegionSalvage.Zlib
