import RegionSalvage.Recovery.Ledger
import RegionSalvage.Text.Json

/-! # The recovery log

A recovery leaves a log beside the chunks it saves: the statistics, and an entry for every chunk in
the order of recovery.
-/

namespace RegionSalvage

def SalvagedChunk.logEntry (c : SalvagedChunk) : JsonValue := .record
  [ ("block", .integer c.block),
    ("blocks", .list (c.blocks.map .integer)),
    ("data_length", .integer c.dataLength),
    ("size", .integer c.size),
    ("md5", .text c.md5),
    ("position", match c.check.position? with
      | none => .null
      | some (x, z) => .list [.integer x, .integer z]),
    ("nbt_valid", match c.check.isDocument? with
      | none => .null
      | some valid => .bool valid),
    ("saved_to", .text c.savedTo) ]

/-- The counters as they stand in the log. -/
def RecoveryTally.counters (s : RecoveryTally) : List (String × JsonValue) :=
  [ ("candidates", .integer s.candidates),
    ("recovered", .integer s.recovered),
    ("assembly_failures", .integer s.assemblyFailures),
    ("decompression_failures", .integer s.decompressionFailures),
    ("nbt_failures", .integer s.nbtFailures),
    ("duplicates", .integer s.duplicates) ]

/-- The log of a recovery.  A recovery is not timed, so its duration stands as zero. -/
def recoveryLog (stats : RecoveryTally) (chunks : List SalvagedChunk) : String :=
  JsonValue.render 0 <| .record
    [ ("stats", .record (stats.counters ++ [("elapsed_time", .decimal "0.0")])),
      ("chunks", .list (chunks.map SalvagedChunk.logEntry)) ]

end RegionSalvage
