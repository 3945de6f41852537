import RegionSalvage.Scan.Walk
import RegionSalvage.Volume.Opening

/-! # Reports of workers

A worker opens the image for itself, scans one part of the range and files a report.  Reports may
come in in any order; `mergeReports` puts them in the order of their ranges, so that the sightings
are those of one scan over the whole range.  If a worker fails, no sightings are given at all.
-/

namespace RegionSalvage

/-- An image on the disk, and how to open it. -/
structure ImageReference where
  host : Host := {}
  files : FileTree
  path : String
  backend : String := "auto"
  /-- What the image is read from. -/
  device : Device := {}

def ImageReference.openVolume (image : ImageReference) : Except OpenError Volume := do
  let volume ← Volume.openNamed image.host image.files image.path image.backend
  return volume.onDevice image.device

/-- Why a worker has no sightings to report. -/
inductive WorkerFailure where
  | opening (e : OpenError)
  | reading (e : ReadError)
deriving DecidableEq, Repr

def WorkerFailure.family : WorkerFailure → ErrorFamily
  | .opening e => e.family
  | .reading _ => .blockSource

def WorkerFailure.message (failure : WorkerFailure) : String :=
  let text := match failure with
    | .opening e => e.message
    | .reading e => e.message
  failure.family.name ++ ": " ++ text

/-- What a worker reports. -/
structure WorkerReport where
  worker : Int
  start : Int
  stop : Int
  sightings : List Sighting := []
  /-- How many blocks were read. -/
  scanned : Int := 0
  failure : Option WorkerFailure := none
deriving DecidableEq, Repr

/-- One worker's scan of `[start, stop)`. -/
def ImageReference.workerReport (image : ImageReference) (criteria : ScanCriteria)
    (worker start stop : Int) : WorkerReport :=
  match image.openVolume with
  | .error e => { worker, start, stop, failure := some (.opening e) }
  | .ok volume =>
    let scanner : Scanner := ⟨volume.source, criteria⟩
    let harvest := scanner.drain (.unstarted start stop) {}
    match harvest.ending with
    | .failed e => { worker, start, stop, failure := some (.reading e) }
    | _ =>
      { worker, start, stop, sightings := harvest.sightings.toList,
        scanned := harvest.state.progress.scannedBlocks }

/-! ## Merging -/

/-- A worker that failed. -/
structure ShardFailure where
  worker : Int
  start : Int
  stop : Int
  failure : WorkerFailure
deriving DecidableEq, Repr

def ShardFailure.message (f : ShardFailure) : String :=
  s!"worker {f.worker} [{f.start}, {f.stop}): " ++ f.failure.message

/-- The failure in a report, if there is one. -/
def WorkerReport.shardFailure? (report : WorkerReport) : Option ShardFailure :=
  report.failure.map fun failure => ⟨report.worker, report.start, report.stop, failure⟩

/-- The sightings of all reports in the order of their ranges, or all failures in the order in which
they came in. -/
def mergeReports (reports : List WorkerReport) : Except (List ShardFailure) (List Sighting) :=
  match reports.filterMap WorkerReport.shardFailure? with
  | [] => .ok <|
    (reports.mergeSort fun a b => decide (a.start ≤ b.start)).flatMap WorkerReport.sightings
  | failures => .error failures

end RegionSalvage
