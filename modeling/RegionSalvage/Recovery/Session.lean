import RegionSalvage.Digest.Md5
import RegionSalvage.Disk.FileTree
import RegionSalvage.Nbt.Position
import RegionSalvage.Record.Decode
import RegionSalvage.Recovery.Log
import RegionSalvage.Scan.Walk

/-! # Recovering chunks

The second pass over a source goes through the chunk headers that a scan has found.  Every candidate
is assembled and inflated; content that was seen before is dropped, the rest is looked at as a
document, saved, and entered into the ledger.

A candidate ends in one of five ways: it is recovered, a duplicate, an assembly failure or a
decompression failure, or it ends the pass with a `RecoveryError`.  Even then the state after it
counts; what has been counted and seen so far stays so.
-/

namespace RegionSalvage

inductive RecoveryError where
  | unreadable (e : ReadError)
  | position (e : Nbt.PositionError)
  | file (e : PathError)
  | noDirectory
deriving DecidableEq, Repr

/-- What a recovery works with. -/
structure Recovery where
  source : BlockSource
  outputDirectory : Option String := none
  readsDocuments : Bool := true
  [documents : Nbt.Reader]

/-- What a recovery has found and left behind. -/
structure RecoveryState where
  stats : RecoveryTally := {}
  chunks : Array SalvagedChunk := #[]
  /-- The digests of all content seen, the latest first. -/
  seen : List String := []
  files : FileTree := {}

namespace Recovery

/-- The directory where chunks are saved; an empty name stands for none. -/
def saveDirectory? (r : Recovery) : Option String :=
  r.outputDirectory.filter fun directory => !directory.isEmpty

def logName : String := "recovery_log.json"

def chunkName (block : Int) : String := s!"chunk_{block}.nbt"

def prepare (r : Recovery) (files : FileTree) : FileTree × Option PathError :=
  match r.saveDirectory? with
  | none => (files, none)
  | some directory => files.ensureDirectory directory

/-! ## One candidate -/

def inspect (r : Recovery) (content : ByteArray) : Except Nbt.PositionError DocumentCheck :=
  if !r.readsDocuments then .ok .skipped
  else match r.documents.read? content with
    | none => .ok .refuted
    | some document =>
      match document.position with
      | .error e => .error e
      | .ok position => .ok (.confirmed position)

/-- Saves the content of a chunk, and tells where; nowhere if nothing is to be saved. -/
def save (r : Recovery) (block : Int) (content : ByteArray) (files : FileTree) :
    Except PathError (String × FileTree) :=
  match r.saveDirectory? with
  | none => .ok ("", files)
  | some directory =>
    let path := FileTree.joinPath directory (chunkName block)
    match files.write path content with
    | .error e => .error e
    | .ok files => .ok (path, files)

def countCheck (check : DocumentCheck) (s : RecoveryState) : RecoveryState :=
  if check = .refuted then
    { s with stats := { s.stats with nbtFailures := s.stats.nbtFailures + 1 } }
  else s

def enter (chunk : SalvagedChunk) (s : RecoveryState) : RecoveryState :=
  { s with stats := { s.stats with recovered := s.stats.recovered + 1 },
           chunks := s.chunks.push chunk }

def dispose (r : Recovery) (decoded : DecodedRecord) (content : ByteArray) (s : RecoveryState) :
    Except RecoveryError (Option SalvagedChunk) × RecoveryState :=
  let md5 := Md5.hexDigest content
  if s.seen.contains md5 then
    (.ok none, { s with stats := { s.stats with duplicates := s.stats.duplicates + 1 } })
  else
    let s := { s with seen := md5 :: s.seen }
    match r.inspect content with
    | .error e => (.error (.position e), s)
    | .ok check =>
      let s := countCheck check s
      match r.save decoded.block content s.files with
      | .error e => (.error (.file e), s)
      | .ok (savedTo, files) =>
        let chunk : SalvagedChunk :=
          { block := decoded.block, blocks := decoded.blocks, dataLength := decoded.dataLength,
            size := content.size, md5, check, savedTo }
        (.ok (some chunk), enter chunk { s with files })

/-- Goes through the candidate whose header is at `block`; the answer is the chunk, if it is
recovered. -/
def tryCandidate (r : Recovery) (block : Int) (s : RecoveryState) :
    Except RecoveryError (Option SalvagedChunk) × RecoveryState :=
  let s := { s with stats := { s.stats with candidates := s.stats.candidates + 1 } }
  match decodeRecord r.source block none with
  | .error e => (.error (.unreadable e), s)
  | .ok decoded =>
    match decoded.outcome with
    | .error (.assembly _) =>
      (.ok none, { s with stats :=
        { s.stats with assemblyFailures := s.stats.assemblyFailures + 1 } })
    | .error (.decompression _) =>
      (.ok none, { s with stats :=
        { s.stats with decompressionFailures := s.stats.decompressionFailures + 1 } })
    | .ok content => r.dispose decoded content s

/-! ## Many candidates -/

/-- Tries the chunk headers among the sightings, up to the first that ends the pass. -/
def tryEach (attempt : Int → RecoveryState →
      Except RecoveryError (Option SalvagedChunk) × RecoveryState) :
    List Sighting → RecoveryState → Except RecoveryError Unit × RecoveryState
  | [], s => (.ok (), s)
  | sighting :: sightings, s =>
    match sighting.part with
    | .chunkHeader =>
      match attempt sighting.block s with
      | (.error e, s) => (.error e, s)
      | (.ok _, s) => tryEach attempt sightings s
    | _ => tryEach attempt sightings s

/-- Goes through the chunk headers among the sightings, up to the first that ends the pass. -/
def tryAll (r : Recovery) : List Sighting → RecoveryState →
    Except RecoveryError Unit × RecoveryState :=
  tryEach r.tryCandidate

/-- Writes the log, and tells where.  It is written under another name first, so that no reader
ever sees half of it. -/
def writeLog (r : Recovery) (s : RecoveryState) : Except RecoveryError String × RecoveryState :=
  match r.outputDirectory with
  | none => (.error .noDirectory, s)
  | some directory =>
    let path := FileTree.joinPath directory logName
    let draft := path ++ ".tmp"
    match s.files.write draft (recoveryLog s.stats s.chunks.toList).toUTF8 with
    | .error e => (.error (.file e), s)
    | .ok files =>
      match files.rename draft path with
      | .error e => (.error (.file e), { s with files })
      | .ok files => (.ok path, { s with files })

/-- Ends a pass that came to its end: writes the log where chunks are saved. -/
def conclude (r : Recovery) (s : RecoveryState) : Except RecoveryError Unit × RecoveryState :=
  if r.saveDirectory?.isNone then (.ok (), s)
  else match r.writeLog s with
    | (.error e, s) => (.error e, s)
    | (.ok _, s) => (.ok (), s)

/-- Ends a pass: if it came to its end, by writing the log. -/
def finish (r : Recovery) (pass : Except RecoveryError Unit × RecoveryState) :
    Except RecoveryError Unit × RecoveryState :=
  match pass with
  | (.error e, s) => (.error e, s)
  | (.ok _, s) => r.conclude s

/-- Goes through all chunk headers among the sightings, and writes the log. -/
def recover (r : Recovery) (sightings : List Sighting) (s : RecoveryState) :
    Except RecoveryError Unit × RecoveryState :=
  r.finish (r.tryAll sightings s)

/-- Goes through the chunk headers that a scan delivers, and writes the log if the scan comes to
its end. -/
def recoverFromScan (r : Recovery) (scanner : Scanner) (s : RecoveryState) :
    Except RecoveryError Unit × RecoveryState :=
  let harvest := scanner.drain scanner.scan {}
  match r.tryAll harvest.sightings.toList s with
  | (.error e, s) => (.error e, s)
  | (.ok _, s) =>
    match harvest.ending with
    | .failed e => (.error (.unreadable e), s)
    | _ => r.conclude s

end Recovery

end RegionSalvage
