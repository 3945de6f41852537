import RegionSalvage.Scan.Sighting
import RegionSalvage.Block.Source

/-! # What a scan looks for

The criteria of a scan, and what a scan with them sees in one block (`ScanCriteria.findings`) and in
a source (`ScanCriteria.bounds`).
-/

namespace RegionSalvage

/-- The earliest plausible modification time of a region file: 2008-01-01. -/
def earliestTime : Int := 1199145600

structure ScanCriteria where
  /-- The oldest acceptable timestamp, in epoch seconds. -/
  minTime : Int := earliestTime
  /-- The newest acceptable timestamp, in epoch seconds. -/
  maxTime : Int
  /-- Where to start, if later than the first index of the source. -/
  startBlock : Option Int := none
  /-- Where to stop, if before the end of the source. -/
  maxBlock : Option Int := none
  /-- Whether sparse blocks are dropped untested. -/
  skipSparse : Bool := true
  sparseThreshold : Int := defaultSparseThreshold
  sparseUnit : CountUnit := .byte
  /-- Whether two slots with one offset disqualify an offset table. -/
  rejectDuplicates : Bool := true
  /-- Whether an unreadable block is passed over; otherwise it ends the scan. -/
  skipUnreadable : Bool := false
  /-- Blocks between two progress notices; zero asks for none. -/
  progressInterval : Int := 4096

/-- What the tests find in a block: nothing because it is sparse, or the parts it looks like. -/
inductive Findings where
  | sparse
  | tested (parts : List RegionPart)
deriving DecidableEq, Repr

def Findings.parts : Findings → List RegionPart
  | .sparse => []
  | .tested parts => parts

namespace ScanCriteria

/-- What a scan finds in the bytes of a block. -/
def findings (criteria : ScanCriteria) (b : ByteArray) : Findings :=
  if criteria.skipSparse && isSparse b criteria.sparseThreshold criteria.sparseUnit then .sparse
  else .tested <|
    (if isTimestampTable b criteria.minTime criteria.maxTime then [RegionPart.timestamps]
      else []) ++
    (if isOffsetTable b criteria.rejectDuplicates then [RegionPart.offsets] else []) ++
    (if startsChunk b then [RegionPart.chunkHeader] else [])

/-- The blocks `[start, stop)` of a source that a scan covers. -/
def bounds (criteria : ScanCriteria) (source : BlockSource) : Int × Int :=
  let start := match criteria.startBlock with
    | none => source.firstIndex
    | some block => max source.firstIndex block
  let stop := match criteria.maxBlock with
    | none => source.blockCount
    | some block => min source.blockCount block
  (start, max start stop)

/-- Whether a scan from `start` on gives notice when it reaches `block`. -/
def isNoticeDue (criteria : ScanCriteria) (start block : Int) : Bool :=
  criteria.progressInterval != 0 && (block - start) % criteria.progressInterval == 0

end ScanCriteria

end RegionSalvage
