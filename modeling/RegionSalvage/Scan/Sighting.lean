import RegionSalvage.Region.Signature

/-! # Sightings and how they are reported

A scan sights the parts of region files: blocks that look like a table or like the start of a chunk.
Chunk headers come in clusters, so a report joins consecutive ones into a run with a count, while
every table stands alone.

`runsOf` is the run-length form of a list of sightings: tables are runs of one, and no two
neighbouring runs are both chunk-header runs.
-/

namespace RegionSalvage

/-- The parts of a region file that a scan looks for. -/
inductive RegionPart where
  | timestamps
  | offsets
  | chunkHeader
deriving DecidableEq, Repr

def RegionPart.name : RegionPart → String
  | .timestamps => "timestamps"
  | .offsets => "offsets"
  | .chunkHeader => "chunk header"

def RegionPart.ofName? : String → Option RegionPart
  | "timestamps" => some .timestamps
  | "offsets" => some .offsets
  | "chunk header" => some .chunkHeader
  | _ => none

/-- The parts that a sector looks like, in reporting order. -/
def SectorKinds.parts (k : SectorKinds) : List RegionPart :=
  (if k.timestamps then [RegionPart.timestamps] else []) ++
  (if k.offsets then [RegionPart.offsets] else []) ++
  (if k.chunkHeader then [RegionPart.chunkHeader] else [])

/-- A block that looks like a part of a region file. -/
structure Sighting where
  block : Int
  part : RegionPart
deriving DecidableEq, Repr

/-- What is reported in one line: a table, or a run of chunk headers. -/
structure SightingRun where
  /-- The block of the run's first sighting. -/
  block : Int
  part : RegionPart
  /-- How many sightings the run stands for. -/
  count : Nat
deriving DecidableEq, Repr

/-- The line that reports a run of `count` sightings from `block` on. -/
def reportLine (block : Int) (part : RegionPart) (count : Int) : String :=
  match part with
  | .chunkHeader => s!"{block}: chunk headers: [{count}]"
  | part => s!"{block}: " ++ part.name

def SightingRun.line (run : SightingRun) : String := reportLine run.block run.part run.count

/-- Puts a sighting in front of the runs of the sightings after it. -/
def SightingRun.prepend (sighting : Sighting) (runs : List SightingRun) : List SightingRun :=
  match sighting.part, runs with
  | .chunkHeader, ⟨_, .chunkHeader, count⟩ :: rest =>
    ⟨sighting.block, .chunkHeader, count + 1⟩ :: rest
  | part, runs => ⟨sighting.block, part, 1⟩ :: runs

def runsOf (sightings : List Sighting) : List SightingRun := sightings.foldr SightingRun.prepend []

/-- The runs of a list of sightings that no further sighting can extend. -/
def completedRuns (sightings : List Sighting) : List SightingRun :=
  let runs := runsOf sightings
  match runs.getLast? with
  | some ⟨_, .chunkHeader, _⟩ => runs.dropLast
  | _ => runs

end RegionSalvage
