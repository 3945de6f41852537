import RegionSalvage.Block.Source
import RegionSalvage.FreeSpace.BlockTable

/-! # Dumping free space

A dump keeps the free blocks of a source that are not all zeros: their bytes one after the other as
the data stream, and their numbers as the table.  The two streams are views of one list of blocks
(`Dump.table`, `Dump.data`), so they cannot get out of step.  A block that cannot be read ends the
dump, and the streams keep what came before it.
-/

namespace RegionSalvage

/-- Why a dump is not complete. -/
inductive DumpError where
  /-- Neither stream was asked for. -/
  | noStream
  | unreadable (e : ReadError)
  /-- The number of a block does not fit into the table. -/
  | unnumberable (block : Int)
deriving DecidableEq, Repr

def DumpError.message : DumpError → String
  | .noStream => "You must specify an output: data, table, or both"
  | .unreadable e => e.message
  | .unnumberable block => s!"block {block} does not fit into the table"

/-- The blocks a dump has kept, and what ended it early. -/
structure Dump where
  blocks : Array Int := #[]
  data : ByteArray := .empty
  failure : Option DumpError := none

namespace Dump

def table (d : Dump) : ByteArray := BlockTable.encode d.blocks.toList

def keep (d : Dump) (block : Int) (bytes : ByteArray) : Dump :=
  { d with blocks := d.blocks.push block, data := d.data ++ bytes }

def fail (d : Dump) (e : DumpError) : Dump := { d with failure := some e }

/-- Goes through the last `left` blocks before `stop`; `numbered` says whether a table is wanted,
so that every number has to fit into it. -/
def walk (source : BlockSource) (numbered : Bool) (stop : Int) : (left : Nat) → Dump → Dump
  | 0, d => d
  | left + 1, d =>
    let block := stop - (left + 1 : Nat)
    if source.isAllocated block then walk source numbered stop left d
    else match source.readBlock block with
      | .error e => d.fail (.unreadable e)
      | .ok bytes =>
        if isZeroBlock bytes then walk source numbered stop left d
        else if numbered && !BlockTable.holds block then d.fail (.unnumberable block)
        else walk source numbered stop left (d.keep block bytes)

def ofSource (source : BlockSource) (numbered : Bool) : Dump :=
  walk source numbered source.blockCount (source.blockCount - source.firstIndex).toNat {}

end Dump

/-- Which streams a dump is to write. -/
structure DumpStreams where
  data : Bool
  table : Bool
deriving DecidableEq, Repr

/-- What a dump has written to the streams that were asked for. -/
structure DumpReport where
  /-- How many blocks were written, when the dump is complete. -/
  written : Except DumpError Nat
  data : Option ByteArray
  table : Option ByteArray

/-- Dumps the free blocks of a source into the given streams. -/
def dumpFreeBlocks (source : BlockSource) (streams : DumpStreams) : DumpReport :=
  if !streams.data && !streams.table then ⟨.error .noStream, none, none⟩
  else
    let d := Dump.ofSource source streams.table
    { written := match d.failure with
        | none => .ok d.blocks.size
        | some e => .error e
      data := if streams.data then some d.data else none
      table := if streams.table then some d.table else none }

end RegionSalvage
