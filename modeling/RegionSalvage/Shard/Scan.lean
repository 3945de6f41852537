import RegionSalvage.Shard.Ranges
import RegionSalvage.Shard.Report

/-! # Scanning an image in shards

A large image can be scanned by several workers.  Each gets a part of the range, and the sightings
are those of the merged reports, which come in in the order that the host has them finish.  Where
one worker is enough, it is a scan like any other.
-/

namespace RegionSalvage

/-- Why an image cannot be scanned. -/
inductive ImageScanError where
  | opening (e : OpenError)
  | reading (e : ReadError)
  | shards (failures : List ShardFailure)
deriving DecidableEq, Repr

def ImageScanError.message : ImageScanError → String
  | .opening e => e.message
  | .reading e => e.message
  | .shards failures => String.intercalate "; " (failures.map ShardFailure.message)

/-- The ranges that the workers take, unless one worker is enough.  Without a request, every worker
gets a range that is worth it. -/
def shardRanges? (criteria : ScanCriteria) (source : BlockSource) (workers : Int)
    (processors : Option Int) : Option (List (Int × Int)) :=
  let (start, stop) := criteria.bounds source
  let count := workersFor (stop - start) workers processors
  if count ≤ 1 then none
  else some (shards start stop count (if 0 < workers then 1 else worthwhileShard))

namespace ImageReference

/-- The reports of all workers, in the order of their ranges. -/
def workerReports (image : ImageReference) (criteria : ScanCriteria) (ranges : List (Int × Int)) :
    List WorkerReport :=
  ranges.mapIdx fun i (start, stop) => image.workerReport criteria i start stop

/-- The sightings of an image, found by up to `workers` workers; with zero the size of the image
decides how many there are. -/
def scanSharded (image : ImageReference) (criteria : ScanCriteria) (workers : Int) :
    Except ImageScanError (List Sighting) :=
  match image.openVolume with
  | .error e => .error (.opening e)
  | .ok volume =>
    match shardRanges? criteria volume.source workers image.host.processors with
    | none =>
      match Scanner.collect ⟨volume.source, criteria⟩ with
      | .error e => .error (.reading e)
      | .ok sightings => .ok sightings
    | some ranges =>
      match mergeReports (image.host.arrival.arrange (image.workerReports criteria ranges)) with
      | .error failures => .error (.shards failures)
      | .ok sightings => .ok sightings

end ImageReference

end RegionSalvage
