import RegionSalvage.Numeric.Binary64
import RegionSalvage.Scan.Criteria

/-! # Progress of a scanner

The counters of a scanner are shared by all walks that it runs and are never reset; only the range
and the position are those of the walk that moved last.
-/

namespace RegionSalvage

/-- The counters and the position of a scanner. -/
structure ScanStatus where
  startBlock : Int := 0
  stopBlock : Int := 0
  currentBlock : Int := 0
  /-- Free blocks that were read. -/
  scannedBlocks : Int := 0
  allocatedBlocks : Int := 0
  sparseBlocks : Int := 0
  unreadableBlocks : Int := 0
  timestampHits : Int := 0
  offsetHits : Int := 0
  headerHits : Int := 0
  isScanning : Bool := false
deriving DecidableEq, Repr

namespace ScanStatus

/-- How many blocks the range of the walk has. -/
def totalBlocks (p : ScanStatus) : Int := max 0 (p.stopBlock - p.startBlock)

/-- Sightings of any part. -/
def hits (p : ScanStatus) : Int := p.timestampHits + p.offsetHits + p.headerHits

/-- How far the walk is, in percent and at most 100; zero for an empty range.  There is no answer
when the quotient is beyond the largest double. -/
def percent? (p : ScanStatus) : Option Binary64 :=
  if p.totalBlocks = 0 then some .zero
  else (Binary64.percent? (p.currentBlock - p.startBlock) p.totalBlocks).map fun x =>
    if x.isBelow 100 then x else .nearest false 100 1

/-- The latest of a series of statuses. -/
def latest (statuses : Array ScanStatus) : ScanStatus := statuses.back?.getD {}

/-- Counts a block that is tested by itself, outside any walk: only sparseness leaves a trace. -/
def countDirect (p : ScanStatus) : Findings → ScanStatus
  | .sparse => { p with sparseBlocks := p.sparseBlocks + 1 }
  | .tested _ => p

def countHit (p : ScanStatus) : RegionPart → ScanStatus
  | .timestamps => { p with timestampHits := p.timestampHits + 1 }
  | .offsets => { p with offsetHits := p.offsetHits + 1 }
  | .chunkHeader => { p with headerHits := p.headerHits + 1 }

end ScanStatus

end RegionSalvage
