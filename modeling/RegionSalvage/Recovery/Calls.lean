import RegionSalvage.Recovery.Session

/-! # A recovery from call to call

One recovery serves any number of calls: passes over sightings, passes over a scan, and single
candidates.  Its state stays from one call to the next, also behind a call that ends early.
`Recovery.performAll` keeps what every candidate has come to.
-/

namespace RegionSalvage

/-- What a caller asks of a recovery. -/
inductive RecoveryCall where
  | recover (sightings : List Sighting)
  | recoverFromScan (scanner : Scanner)
  | tryCandidate (block : Int)

namespace Recovery

/-- What a candidate comes to: a chunk, nothing, or the end of its pass. -/
abbrev Answer := Except RecoveryError (Option SalvagedChunk)

/-- What the candidates of a pass come to, one after the other; the last one may have ended it. -/
def trials (r : Recovery) : List Sighting → RecoveryState → List Answer
  | [], _ => []
  | sighting :: sightings, s =>
    match sighting.part with
    | .chunkHeader =>
      match r.tryCandidate sighting.block s with
      | (.error e, _) => [.error e]
      | (.ok found, s) => .ok found :: r.trials sightings s
    | _ => r.trials sightings s

/-- Performs a call: what its candidates come to, and the state behind it. -/
def perform (r : Recovery) (call : RecoveryCall) (s : RecoveryState) :
    List Answer × RecoveryState :=
  match call with
  | .recover sightings => (r.trials sightings s, (r.recover sightings s).2)
  | .recoverFromScan scanner =>
    (r.trials (scanner.drain scanner.scan {}).sightings.toList s, (r.recoverFromScan scanner s).2)
  | .tryCandidate block =>
    let (answer, s) := r.tryCandidate block s
    ([answer], s)

def performAll (r : Recovery) : List RecoveryCall → RecoveryState → List Answer × RecoveryState
  | [], s => ([], s)
  | call :: calls, s =>
    let (answers, s) := r.perform call s
    let (more, s) := r.performAll calls s
    (answers ++ more, s)

end Recovery

end RegionSalvage
