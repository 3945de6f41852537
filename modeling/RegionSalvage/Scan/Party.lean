import RegionSalvage.Scan.Walk

/-! # Several walks at a time

One scanner runs any number of walks at a time.  A `Journey` is one of them with what it has brought
so far, and a `Party` is all of them with the state that they share.  The caller takes turns, each
of which opens a walk, pulls one or closes one; journeys are numbered in the order of opening.
-/

namespace RegionSalvage

/-- A walk that was opened, and what it has brought so far. -/
structure Journey where
  /-- The range `[start, stop)` that it was opened for. -/
  start : Int
  stop : Int
  walk : Walk := .unstarted start stop
  /-- How often it was pulled before it was over. -/
  pulls : Nat := 0
  delivered : List Sighting := []
  /-- How it came to its end; a walk that is closed does not. -/
  ending : Option Scanner.Ending := none

def Journey.range (j : Journey) : Int × Int := (j.start, j.stop)

def Journey.isComplete (j : Journey) : Bool := j.ending.isSome

/-- All journeys of a scanner, in the order in which they were opened. -/
structure Party where
  journeys : List Journey := []
  state : ScanState := {}

/-- What a caller does in one turn. -/
inductive Turn where
  | openScan
  | openRange (start stop : Int)
  | pull (journey : Nat)
  | close (journey : Nat)
deriving DecidableEq, Repr

namespace Scanner

/-- The range of the journey that a turn opens, if it opens one. -/
def opened? (scanner : Scanner) : Turn → Option (Int × Int)
  | .openScan => some (scanner.criteria.bounds scanner.source)
  | .openRange start stop => some (start, stop)
  | .pull _ | .close _ => none

/-- Pulls a journey.  One that is over has nothing to answer. -/
def pullJourney (scanner : Scanner) (j : Journey) (s : ScanState) : Journey × ScanState :=
  if j.walk = .ended then (j, s)
  else
    let j := { j with pulls := j.pulls + 1 }
    match scanner.pull j.walk s with
    | (.sighting e rest, s) => ({ j with walk := rest, delivered := j.delivered ++ [e] }, s)
    | (.exhausted, s) => ({ j with walk := .ended, ending := some .exhausted }, s)
    | (.failed e, s) => ({ j with walk := .ended, ending := some (.failed e) }, s)

def closeJourney (j : Journey) (s : ScanState) : Journey × ScanState :=
  ({ j with walk := .ended }, close j.walk s)

/-- Does something with one journey; where there is none, nothing. -/
def withJourney (act : Journey → ScanState → Journey × ScanState) (i : Nat) (party : Party) :
    Party :=
  match party.journeys[i]? with
  | none => party
  | some j =>
    let (j, state) := act j party.state
    { journeys := party.journeys.set i j, state }

def turn (scanner : Scanner) (party : Party) (t : Turn) : Party :=
  match t with
  | .openScan =>
    let (start, stop) := scanner.criteria.bounds scanner.source
    { party with journeys := party.journeys ++ [{ start, stop }] }
  | .openRange start stop => { party with journeys := party.journeys ++ [{ start, stop }] }
  | .pull i => withJourney scanner.pullJourney i party
  | .close i => withJourney closeJourney i party

/-- Takes turns, one after the other. -/
def turns (scanner : Scanner) (party : Party) (ts : List Turn) : Party :=
  ts.foldl scanner.turn party

end Scanner

end RegionSalvage
