import RegionSalvage.Block.Chain
import RegionSalvage.Record.Layout
import RegionSalvage.Region.Signature

/-! # Assembling a chunk record

A record is assembled from a chain that starts with its header.  Blocks that are missing are taken
from behind the last block of the chain, or from a list of blocks when the record is known to be
fragmented.  Either the payload comes out, with the grown chain, or the chain stays as it was.
-/

namespace RegionSalvage

/-- Why a record cannot be assembled. -/
inductive AssemblyFailure where
  /-- The chain, whose first block is given, does not start with a chunk header. -/
  | notHeader (first : Option Int)
  /-- The list of further blocks is too short. -/
  | tooFewBlocks (missing : Int) (given : Nat)
  /-- The missing blocks of the record at `block` cannot be read. -/
  | unreadable (missing : Int) (block : Int) (e : ReadError)
deriving DecidableEq, Repr

def AssemblyFailure.message : AssemblyFailure → String
  | .notHeader none => "Block () is not a chunk header"
  | .notHeader (some first) => s!"Block ({first},) is not a chunk header"
  | .tooFewBlocks missing given =>
    s!"Record needs {missing} more block(s), only {given} given"
  | .unreadable missing block e =>
    s!"Could not read {missing} more block(s) for record at block {block}: " ++ e.message

namespace SectorChain

/-- The bytes of a record's stream, given its length. -/
def payload (chain : SectorChain) (dataLength : Nat) : ByteArray :=
  slice chain.bytes recordHeaderSize (recordHeaderSize + dataLength)

/-- Appends `missing` blocks: those of the list, or the ones behind the last block. -/
def grow (chain : SectorChain) (source : BlockSource) (missing : Int)
    (extra : Option (List Int)) : Except AssemblyFailure SectorChain :=
  match extra with
  | none => attempt (chain.appendRun source ((chain.blocks.getLast?.getD 0) + 1) missing)
  | some blocks =>
    if (blocks.length : Int) < missing then .error (.tooFewBlocks missing blocks.length)
    else attempt (chain.appendBlocks source (blocks.take missing.toNat))
where
  /-- A read error as an assembly error. -/
  attempt (grown : Except ReadError SectorChain) : Except AssemblyFailure SectorChain :=
    match grown with
    | .ok chain => .ok chain
    | .error e => .error (.unreadable missing (chain.blocks.head?.getD 0) e)

/-- The payload of the record that a chain starts with, and the chain grown to cover it. -/
def assemble (chain : SectorChain) (source : BlockSource) (extra : Option (List Int)) :
    Except AssemblyFailure (ByteArray × SectorChain) :=
  if !startsChunk chain.bytes then .error (.notHeader chain.blocks.head?)
  else
    let dataLength := be32 chain.bytes 0
    let missing := recordBlocks dataLength - chain.blockCount
    if missing ≤ 0 then .ok (chain.payload dataLength, chain)
    else match chain.grow source missing extra with
      | .error e => .error e
      | .ok grown => .ok (grown.payload dataLength, grown)

end SectorChain

end RegionSalvage
