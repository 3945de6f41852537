import RegionSalvage.Scan.Status

/-! # Walks over a range of blocks

A scanner delivers the sightings of a range one at a time.  What has been asked for and not yet
delivered is a `Walk`, a plain value: nothing has happened yet (`unstarted`), the walk rests between
two deliveries (`paused`), or there is nothing left (`ended`).  A caller who wants to stop early
simply stops pulling, or closes the walk.

All walks of a scanner share one `ScanState`, which they write and never read to decide what to do:
what a walk delivers is a matter of the source and the configuration alone (`Scanner.visit`).  A
listener hears the notices that walks give, and may write to the shared state as well.

* `Scanner.pull` delivers the next sighting.
* `Scanner.take` pulls a number of sightings, `Scanner.drain` all of them; `Scanner.collect` drains
  a scan.
* `Scanner.close` ends a walk where it stands.
-/

namespace RegionSalvage

structure Scanner where
  source : BlockSource
  criteria : ScanCriteria

/-- What all walks of a scanner write to. -/
structure ScanState where
  progress : ScanStatus := {}
  /-- The progress at every notice given so far, the latest last. -/
  notices : Array ScanStatus := #[]
  /-- What the listener leaves of the progress when it has heard the notices so far.  If it fails,
  that is what it has written by then.  One that only listens leaves the latest notice as it is. -/
  listener : Array ScanStatus → ScanStatus := ScanStatus.latest

namespace ScanState

def giveNotice (s : ScanState) : ScanState :=
  let notices := s.notices.push s.progress
  { s with notices, progress := s.listener notices }

def setOut (s : ScanState) (start stop : Int) : ScanState :=
  { s with progress :=
      { s.progress with startBlock := start, stopBlock := stop, currentBlock := start,
                        isScanning := true } }

/-- A walk comes to `block`; `due` says whether it gives notice there. -/
def arrive (s : ScanState) (block : Int) (due : Bool) : ScanState :=
  let s := { s with progress := { s.progress with currentBlock := block } }
  if due then s.giveNotice else s

/-- A walk that stops at `stop` is over, one way or the other. -/
def finish (s : ScanState) (stop : Int) : ScanState :=
  { s with progress := { s.progress with currentBlock := stop, isScanning := false } }.giveNotice

end ScanState

/-! ## One block -/

/-- What becomes of a block that a walk comes to. -/
inductive Visit where
  | allocated
  | unreadable
  | failed (e : ReadError)
  | found (findings : Findings)

def Scanner.visit (scanner : Scanner) (block : Int) : Visit :=
  if scanner.source.isAllocated block then .allocated
  else match scanner.source.readBlock block with
    | .error e => if scanner.criteria.skipUnreadable then .unreadable else .failed e
    | .ok bytes => .found (scanner.criteria.findings bytes)

/-- The progress after a visit; the sightings of the block are counted when they are delivered. -/
def ScanStatus.countVisit (p : ScanStatus) : Visit → ScanStatus
  | .allocated => { p with allocatedBlocks := p.allocatedBlocks + 1 }
  | .unreadable => { p with unreadableBlocks := p.unreadableBlocks + 1 }
  | .failed _ => p
  | .found .sparse =>
    { p with scannedBlocks := p.scannedBlocks + 1, sparseBlocks := p.sparseBlocks + 1 }
  | .found (.tested _) => { p with scannedBlocks := p.scannedBlocks + 1 }

/-! ## Walks -/

/-- Where a walk stands. -/
inductive Walk where
  | unstarted (start stop : Int)
  /-- A sighting of `block` has been delivered; the parts in `pending` follow for the same block,
  and then the last `left` blocks before `stop`. -/
  | paused (start stop : Int) (block : Int) (pending : List RegionPart) (left : Nat)
  /-- Nothing is left, or the walk was closed or failed. -/
  | ended
deriving DecidableEq, Repr

inductive Pull where
  | sighting (e : Sighting) (rest : Walk)
  | exhausted
  | failed (e : ReadError)

namespace Scanner

def scan (scanner : Scanner) : Walk :=
  let (start, stop) := scanner.criteria.bounds scanner.source
  .unstarted start stop

def deliver (start stop block : Int) (part : RegionPart) (pending : List RegionPart) (left : Nat)
    (s : ScanState) : Pull × ScanState :=
  (.sighting ⟨block, part⟩ (.paused start stop block pending left),
    { s with progress := s.progress.countHit part })

/-- Visits the last `left` blocks of `[start, stop)` up to the next sighting. -/
def advance (scanner : Scanner) (start stop : Int) : (left : Nat) → ScanState → Pull × ScanState
  | 0, s => (.exhausted, s.finish stop)
  | left + 1, s =>
    let block := stop - (left + 1 : Nat)
    let s := s.arrive block (scanner.criteria.isNoticeDue start block)
    let visit := scanner.visit block
    let s := { s with progress := s.progress.countVisit visit }
    match visit with
    | .failed e => (.failed e, s.finish stop)
    | .found (.tested (part :: pending)) => deliver start stop block part pending left s
    | _ => scanner.advance start stop left s

/-- Delivers the next sighting of a walk. -/
def pull (scanner : Scanner) (walk : Walk) (s : ScanState) : Pull × ScanState :=
  match walk with
  | .unstarted start stop =>
    scanner.advance start stop (stop - start).toNat (s.setOut start stop)
  | .paused start stop block (part :: pending) left =>
    deliver start stop block part pending left s
  | .paused start stop _ [] left => scanner.advance start stop left s
  | .ended => (.exhausted, s)

/-- Closes a walk: one that has set out is over at once, any other leaves no trace. -/
def close (walk : Walk) (s : ScanState) : ScanState :=
  match walk with
  | .paused _ stop _ _ _ => s.finish stop
  | _ => s

/-! ## Several sightings -/

inductive Ending where
  | satisfied
  | exhausted
  | failed (e : ReadError)
deriving DecidableEq, Repr

structure Harvest where
  sightings : Array Sighting
  ending : Ending
  walk : Walk
  state : ScanState

/-- Pulls up to `n` sightings, and puts them behind those already there. -/
def takeInto (scanner : Scanner) : (n : Nat) → Array Sighting → Walk → ScanState → Harvest
  | 0, sightings, walk, s => ⟨sightings, .satisfied, walk, s⟩
  | n + 1, sightings, walk, s =>
    match scanner.pull walk s with
    | (.sighting e rest, s) => scanner.takeInto n (sightings.push e) rest s
    | (.exhausted, s) => ⟨sightings, .exhausted, .ended, s⟩
    | (.failed e, s) => ⟨sightings, .failed e, .ended, s⟩

def take (scanner : Scanner) (n : Nat) (walk : Walk) (s : ScanState) : Harvest :=
  scanner.takeInto n #[] walk s

/-- More pulls than a walk can answer with a sighting: a block has at most three. -/
def budget : Walk → Nat
  | .unstarted start stop => 3 * (stop - start).toNat + 1
  | .paused _ _ _ pending left => pending.length + 3 * left + 1
  | .ended => 1

def drain (scanner : Scanner) (walk : Walk) (s : ScanState) : Harvest :=
  scanner.take (budget walk) walk s

/-- All sightings of a scan, or the error at which it ended. -/
def collect (scanner : Scanner) : Except ReadError (List Sighting) :=
  let harvest := scanner.drain scanner.scan {}
  match harvest.ending with
  | .failed e => .error e
  | _ => .ok harvest.sightings.toList

end Scanner

end RegionSalvage
