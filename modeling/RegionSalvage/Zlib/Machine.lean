import RegionSalvage.Zlib.BlockHeader

/-! # Inflating step by step

The machine that inflates a stream takes one step at a time: the stream header, the header of a
block, one symbol or a piece of a stored block, the checksum.  A step is read first
(`Machine.read`), which changes nothing, and then made (`Machine.make`), which cannot fail.  Every
step takes at least one bit of the input, and nothing that has been put out is ever taken back.

Reading starves when it needs bits that are not there, and the machine stays where it was; so a
machine that starves has put out all that its input determines.
-/

namespace RegionSalvage.Zlib

/-- What the machine expects next. -/
inductive Mode where
  | streamHeader
  | blockHeader
  /-- `left` more bytes of a stored block, at least one. -/
  | stored (left : Nat)
  | compressed (codes : BlockCodes)
  | checksum
  /-- Nothing: the stream is complete. -/
  | finished

/-- A machine on its way through a stream. -/
structure Machine where
  mode : Mode := .streamHeader
  /-- How many bits have been taken. -/
  pos : Nat := 0
  isLast : Bool := false
  output : ByteArray := .empty

def adler32 (b : ByteArray) : Nat :=
  let (low, high) := b.foldl (fun (sums : Nat × Nat) x =>
    let low := (sums.1 + x.toNat) % 65521
    (low, (sums.2 + low) % 65521)) (1, 0)
  high * 65536 + low

/-- Extra bits and base of the length that a symbol from 257 on stands for. -/
def lengthTable : Array (Nat × Nat) := #[
  (0, 3), (0, 4), (0, 5), (0, 6), (0, 7), (0, 8), (0, 9), (0, 10), (1, 11), (1, 13), (1, 15),
  (1, 17), (2, 19), (2, 23), (2, 27), (2, 31), (3, 35), (3, 43), (3, 51), (3, 59), (4, 67),
  (4, 83), (4, 99), (4, 115), (5, 131), (5, 163), (5, 195), (5, 227), (0, 258)]

/-- Extra bits and base of the distance that a symbol stands for. -/
def distanceTable : Array (Nat × Nat) := #[
  (0, 1), (0, 2), (0, 3), (0, 4), (1, 5), (1, 7), (2, 9), (2, 13), (3, 17), (3, 25), (4, 33),
  (4, 49), (5, 65), (5, 97), (6, 129), (6, 193), (7, 257), (7, 385), (8, 513), (8, 769), (9, 1025),
  (9, 1537), (10, 2049), (10, 3073), (11, 4097), (11, 6145), (12, 8193), (12, 12289), (13, 16385),
  (13, 24577)]

/-- Appends `n` bytes, each a copy of the one `distance` places back. -/
def copyBack (distance : Nat) : (n : Nat) → ByteArray → ByteArray
  | 0, out => out
  | n + 1, out => copyBack distance n (out.push (UInt8.ofNat (octet out (out.size - distance))))

inductive Move where
  | enterStream
  /-- A block begins, the last one or not. -/
  | enterBlock (isLast : Bool) (mode : Mode)
  /-- A stored block without bytes. -/
  | skipBlock (isLast : Bool)
  /-- Puts out some of the `left` bytes of a stored block, `count` of them. -/
  | store (left count : Nat)
  | literal (value : Nat)
  | copy (length distance : Nat)
  | leaveBlock
  | finish

namespace Machine

/-! ## Reading a step -/

def readStreamHeader (input : ByteArray) (pos : Nat) : Except Stop (Move × Nat) := do
  let (header, pos) ← takeBits input pos 16
  let method := header % 256
  let flags := header / 256
  if (256 * method + flags) % 31 ≠ 0 then throw (.fault .headerCheck)
  if method % 16 ≠ 8 then throw (.fault .compressionMethod)
  if 7 < method / 16 then throw (.fault .windowSize)
  if flags.testBit 5 then
    let _ ← takeBits input pos 32
    throw (.fault .presetDictionary)
  return (.enterStream, pos)

def readBlockHeader (input : ByteArray) (pos : Nat) : Except Stop (Move × Nat) := do
  let (header, pos) ← takeBits input pos 3
  let isLast := decide (header % 2 = 1)
  match header / 2 with
  | 0 =>
    let (lengths, pos) ← takeBits input (alignToByte pos) 32
    let length := lengths % 65536
    if length + lengths / 65536 ≠ 65535 then throw (.fault .storedLengths)
    if length = 0 then return (.skipBlock isLast, pos)
    else return (.enterBlock isLast (.stored length), pos)
  | 1 => return (.enterBlock isLast (.compressed ⟨fixedLiterals, fixedDistances⟩), pos)
  | 2 =>
    let (codes, pos) ← takeCodes input pos
    return (.enterBlock isLast (.compressed codes), pos)
  | _ => throw (.fault .blockType)

/-- Reads what there is of the `left` bytes of a stored block. -/
def readStored (input : ByteArray) (left pos : Nat) : Except Stop (Move × Nat) :=
  let count := min left (input.size - pos / 8)
  if count = 0 then .error .starved else .ok (.store left count, pos + 8 * count)

def readDistance (input : ByteArray) (codes : BlockCodes) (pos : Nat) :
    Except Stop (Nat × Nat) := do
  let (symbol, pos) ← codes.distances.decode input pos
  match symbol.bind fun s => distanceTable[s]? with
  | none => throw (.fault .distanceCode)
  | some (extraBits, base) =>
    let (extra, pos) ← takeBits input pos extraBits
    return (base + extra, pos)

/-- Reads a symbol of a compressed block, and what belongs to it, behind `size` bytes of output. -/
def readSymbol (input : ByteArray) (codes : BlockCodes) (size pos : Nat) :
    Except Stop (Move × Nat) := do
  let (symbol, pos) ← codes.literals.decode input pos
  match symbol with
  | none => throw (.fault .literalCode)
  | some symbol =>
    if symbol < 256 then return (.literal symbol, pos)
    else if symbol = 256 then return (.leaveBlock, pos)
    else match lengthTable[symbol - 257]? with
      | none => throw (.fault .literalCode)
      | some (extraBits, base) =>
        let (extra, pos) ← takeBits input pos extraBits
        let (distance, pos) ← readDistance input codes pos
        if size < distance then throw (.fault .distanceTooFar)
        return (.copy (base + extra) distance, pos)

def readChecksum (input output : ByteArray) (pos : Nat) : Except Stop (Move × Nat) := do
  let start := alignToByte pos
  let (_, pos) ← takeBits input start 32
  if be32 input (start / 8) ≠ adler32 output then throw (.fault .dataCheck)
  return (.finish, pos)

/-- Reads the next step, and the position behind it.  A machine that has finished starves. -/
def read (input : ByteArray) (m : Machine) : Except Stop (Move × Nat) :=
  match m.mode with
  | .streamHeader => readStreamHeader input m.pos
  | .blockHeader => readBlockHeader input m.pos
  | .stored left => readStored input left m.pos
  | .compressed codes => readSymbol input codes m.output.size m.pos
  | .checksum => readChecksum input m.output m.pos
  | .finished => .error .starved

/-! ## Making a step -/

/-- What follows a block. -/
def afterBlock (isLast : Bool) : Mode := if isLast then .checksum else .blockHeader

def make (input : ByteArray) (m : Machine) (pos : Nat) : Move → Machine
  | .enterStream => { m with mode := .blockHeader, pos }
  | .enterBlock isLast mode => { m with mode, isLast, pos }
  | .skipBlock isLast => { m with mode := afterBlock isLast, isLast, pos }
  | .store left count =>
    let start := m.pos / 8
    { m with
      mode := if count = left then afterBlock m.isLast else .stored (left - count)
      output := m.output ++ slice input start (start + count)
      pos }
  | .literal value => { m with output := m.output.push (UInt8.ofNat value), pos }
  | .copy length distance => { m with output := copyBack distance length m.output, pos }
  | .leaveBlock => { m with mode := afterBlock m.isLast, pos }
  | .finish => { m with mode := .finished, pos }

def isFinished (m : Machine) : Bool := m.mode matches .finished

/-- Whether the output has reached a size, if one is given. -/
def hasReached (m : Machine) : Option Nat → Bool
  | none => false
  | some size => size ≤ m.output.size

/-- Takes at most `fuel` steps, until the output has a given size, the stream is complete or the
input starves. -/
def run (input : ByteArray) (target : Option Nat) : (fuel : Nat) → Machine → Except Fault Machine
  | 0, m => .ok m
  | fuel + 1, m =>
    if m.hasReached target then .ok m
    else match m.read input with
      | .ok (move, pos) => run input target fuel (m.make input pos move)
      | .error .starved => .ok m
      | .error (.fault f) => .error f

end Machine

end RegionSalvage.Zlib
