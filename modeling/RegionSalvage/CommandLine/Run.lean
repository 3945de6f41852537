import RegionSalvage.Calendar.Date
import RegionSalvage.CommandLine.ProgressBar
import RegionSalvage.CommandLine.Request
import RegionSalvage.FreeSpace.Dump
import RegionSalvage.Recovery.Session
import RegionSalvage.Shard.Scan

/-! # Running a command

A command works on a `Machine`: the files it can see, what the host and the device under the files
can do, and the time.  What it does is an `Outcome`: what it prints, the files afterwards, and how
it ends.  Most errors are reported in one line and end the program with exit code 1; a few, which
only malformed documents and images cause, end it abruptly (`CommandError.isReported`).
-/

namespace RegionSalvage

/-- What a command works on. -/
structure Machine where
  host : Host := {}
  /-- What images are read from. -/
  device : Device := {}
  files : FileTree
  /-- The present, in epoch seconds. -/
  now : Int
  [documents : Nbt.Reader]

/-- Why a command fails. -/
inductive CommandError where
  | blank (option : String)
  | time (e : TimeError)
  /-- The newest acceptable date is before the oldest. -/
  | emptyWindow (start stop : String)
  | scan (e : ImageScanError)
  | opening (e : OpenError)
  | recovery (e : RecoveryError)
  | dump (e : DumpError)
  | file (e : PathError)
deriving DecidableEq, Repr

def RecoveryError.message : RecoveryError → String
  | .unreadable e => e.message
  | .position e => e.message
  | .file e => e.message
  | .noDirectory => "there is no directory for the log"

namespace CommandError

def message : CommandError → String
  | .blank option => s!"--{option} has no value"
  | .time e => e.message
  | .emptyWindow start stop => s!"--stop ({stop}) is before --start ({start})"
  | .scan e => e.message
  | .opening e => e.message
  | .recovery e => e.message
  | .dump e => e.message
  | .file e => e.message

/-- Whether an error is reported; any other ends the program abruptly. -/
def isReported : CommandError → Bool
  | .blank _ => false
  | .scan (.opening e) | .opening e => e.family != .field
  | .recovery (.position e) =>
    match e with
    | .notInteger _ | .tooManyDigits _ | .notANumber => true
    | .noMembers | .infinite | .notNumeric => false
  | .recovery .noDirectory => false
  | .dump (.unnumberable _) => false
  | _ => true

end CommandError

inductive CommandEnding where
  | exit (code : Nat)
  /-- Abruptly, by an error that nobody reports. -/
  | abrupt (e : CommandError)
deriving DecidableEq, Repr

structure Outcome where
  output : String := ""
  diagnostics : String := ""
  files : FileTree
  ending : CommandEnding := .exit 0

def Outcome.fail (o : Outcome) (e : CommandError) : Outcome :=
  if e.isReported then
    { o with diagnostics := o.diagnostics ++ "Error: " ++ e.message ++ "\n", ending := .exit 1 }
  else { o with ending := .abrupt e }

/-! ## Scanning -/

/-- The acceptable times, and all else a scan is told to look for. -/
def ScanOptions.criteria (o : ScanOptions) (now : Int) : Except CommandError ScanCriteria := do
  let (start, minTime) ← date "start" o.start
  let (stop, maxTime) ← if o.stop = .value "now" then .ok ("now", now) else date "stop" o.stop
  if maxTime < minTime then throw (.emptyWindow start stop)
  return {
    minTime, maxTime
    startBlock := o.firstBlock.map (Setting.getD · 0)
    maxBlock := o.maxBlocks.map (Setting.getD · 0)
    skipSparse := o.skipSparse, sparseUnit := o.sparseUnit
    skipUnreadable := o.skipUnreadable }
where
  date (option : String) : Setting String → Except CommandError (String × Int)
    | .blank => .error (.blank option)
    | .value text =>
      match readDate text with
      | .error e => .error (.time e)
      | .ok time => .ok (text, time)

/-- The bound that was left without a value, if there is one. -/
def ScanOptions.blankBound? (o : ScanOptions) : Option String :=
  if o.firstBlock = some .blank then some "first-block"
  else if o.maxBlocks = some .blank then some "max-blocks"
  else none

structure ImageScan where
  /-- The sightings that were found, up to the failure if there is one. -/
  sightings : List Sighting := []
  failure : Option CommandError := none
  diagnostics : String := ""

def ImageReference.scanByWorkers (image : ImageReference) (criteria : ScanCriteria)
    (workers : Int) : ImageScan :=
  match image.scanSharded criteria workers with
  | .error e => { failure := some (.scan e) }
  | .ok sightings => { sightings }

def Volume.scanAlone (volume : Volume) (criteria : ScanCriteria) (showProgress : Bool) :
    ImageScan :=
  let scanner : Scanner := ⟨volume.source, criteria⟩
  let harvest := scanner.drain scanner.scan {}
  let sightings := harvest.sightings.toList
  let bar := if showProgress then ProgressBar.draw harvest.state.notices.toList else ""
  match harvest.ending with
  | .failed e => { sightings, failure := some (.scan (.reading e)), diagnostics := bar }
  | _ => { sightings, diagnostics := if showProgress then bar ++ "\n" else bar }

def unlines (lines : List String) : String := String.join (lines.map (· ++ "\n"))

namespace Machine

/-- An image on this machine.  The backend is looked at before the path. -/
def image (m : Machine) (option : String) (path backend : Setting String) :
    Except CommandError ImageReference :=
  match backend, path with
  | .blank, _ => .error (.opening .noBackend)
  | .value _, .blank => .error (.blank option)
  | .value backend, .value path =>
    .ok { host := m.host, files := m.files, path, backend, device := m.device }

def openVolume (m : Machine) (option : String) (path backend : Setting String) :
    Except CommandError (ImageReference × Volume) := do
  let image ← m.image option path backend
  match image.openVolume with
  | .error e => .error (.opening e)
  | .ok volume => return (image, volume)

def scanImage (m : Machine) (path : Setting String) (options : ScanOptions)
    (criteria : ScanCriteria) : ImageScan :=
  match options.workers with
  | .blank => { failure := some (.blank "workers") }
  | .value workers =>
    let warning := if 1 < workers && options.showProgress then
        s!"Warning: --progress is not shown when scanning with --workers {workers}\n"
      else ""
    match m.openVolume "file" path options.backend, options.blankBound? with
    | .error e, _ => { failure := some e, diagnostics := warning }
    | .ok _, some bound => { failure := some (.blank bound), diagnostics := warning }
    | .ok (image, volume), none =>
      if 1 < workers then { image.scanByWorkers criteria workers with diagnostics := warning }
      else volume.scanAlone criteria options.showProgress

/-- Reports the hits in an image.  A run is reported as soon as nothing can be added to it, so a
scan that fails has reported all runs but the last. -/
def scan (m : Machine) (verbose : Bool) (path : Setting String) (options : ScanOptions) :
    Outcome :=
  match options.criteria m.now with
  | .error e => { files := m.files : Outcome }.fail e
  | .ok criteria =>
    let minTime := criteria.minTime
    let maxTime := criteria.maxTime
    let opening := if verbose then
        [s!"Start Timestamp: {minTime}", s!"Stop Timestamp:  {maxTime}"]
      else []
    let found := m.scanImage path options criteria
    let runs :=
      if found.failure.isNone then runsOf found.sightings else completedRuns found.sightings
    let outcome : Outcome :=
      { output := unlines (opening ++ runs.map SightingRun.line), diagnostics := found.diagnostics
        files := m.files }
    match found.failure with
    | none => outcome
    | some e => outcome.fail e

/-! ## Extracting -/

def recoveryReport (s : RecoveryState) (directory : Setting String) : String :=
  let stats := s.stats
  let candidates := stats.candidates
  let recovered := stats.recovered
  let duplicates := stats.duplicates
  let refuted := stats.nbtFailures
  let unassembled := stats.assemblyFailures
  let undeflated := stats.decompressionFailures
  let failed := unassembled + undeflated
  let chunkLine (c : SalvagedChunk) : String :=
    let block := c.block
    let size := c.size
    let place := match c.check.position? with
      | none => ""
      | some (x, z) => s!"  chunk ({x}, {z})"
    s!"  {block}: {size} bytes" ++ place
  unlines <|
    [ s!"Chunk candidates: {candidates}",
      s!"Recovered:        {recovered}",
      s!"  duplicates:     {duplicates}",
      s!"  not NBT:        {refuted}",
      s!"Failed:           {failed} ({unassembled} assembly, {undeflated} inflate)" ] ++
    s.chunks.toList.map chunkLine ++ ["Saved to: " ++ directory.getD "[]"]

/-- Goes through the chunk headers among the sightings, and writes the log.  A chunk may be saved
over the image; so every candidate is read from the image as it is by then. -/
def recoverLive (recovery : Recovery) (image : ImageReference) (volume : Volume)
    (sightings : List Sighting) (s : RecoveryState) : Except RecoveryError Unit × RecoveryState :=
  let present (s : RecoveryState) : Recovery :=
    match s.files.read image.path with
    | .error _ => recovery
    | .ok content =>
      let volume : Volume := { volume with source := volume.sourceOver content }
      { recovery with source := (volume.onDevice image.device).source }
  recovery.finish (Recovery.tryEach (fun block s => (present s).tryCandidate block s) sightings s)

def extract (m : Machine) (path : Setting String) (options : ScanOptions)
    (directory : Setting String) (readsDocuments : Bool) : Outcome :=
  match options.criteria m.now with
  | .error e => { files := m.files : Outcome }.fail e
  | .ok criteria =>
    let found := m.scanImage path options criteria
    let outcome : Outcome := { files := m.files, diagnostics := found.diagnostics }
    match found.failure, m.openVolume "file" path options.backend with
    | some e, _ => outcome.fail e
    | none, .error e => outcome.fail e
    | none, .ok (image, volume) =>
      let recovery : Recovery :=
        { source := volume.source, outputDirectory := some (directory.getD ""), readsDocuments
          documents := m.documents }
      match recovery.prepare m.files with
      | (files, some e) => { outcome with files }.fail (.file e)
      | (files, none) =>
        match recoverLive recovery image volume found.sightings { files } with
        | (.error e, s) => { outcome with files := s.files }.fail (.recovery e)
        | (.ok _, s) => { outcome with files := s.files, output := recoveryReport s directory }

/-! ## Dumping -/

/-- Makes a file empty, or makes an empty file; an empty name stands for none. -/
def clearFile (files : FileTree) (path : String) : Except PathError FileTree :=
  if path.isEmpty then .ok files else files.write path .empty

/-- Writes a stream at the start of the file that was opened for it. -/
def fillFile (files : FileTree) (path : String) (stream : Option ByteArray) : FileTree :=
  match stream with
  | none => files
  | some bytes =>
    match files.overwrite path bytes with
    | .error _ => files
    | .ok files => files

/-- Copies the free blocks of an image into files.  The files are made before the image is opened,
and both stay even if the dump fails. -/
def dump (m : Machine) (verbose : Bool) (path output table backend : Setting String) : Outcome :=
  let outcome : Outcome := { files := m.files }
  let output := output.getD ""
  let table := table.getD ""
  if output.isEmpty && table.isEmpty then
    { outcome with
      diagnostics := programName ++
        ": You must specify an output mode via --output, --table, or both.\n"
      ending := .exit 1 }
  else match clearFile m.files output with
    | .error e => outcome.fail (.file e)
    | .ok files =>
      match clearFile files table with
      | .error e => { outcome with files }.fail (.file e)
      | .ok files =>
        match { m with files }.openVolume "input" path backend with
        | .error e => { outcome with files }.fail e
        | .ok (_, volume) =>
          let report := dumpFreeBlocks volume.source ⟨!output.isEmpty, !table.isEmpty⟩
          let files := fillFile (fillFile files output report.data) table report.table
          match report.written with
          | .error e => { outcome with files }.fail (.dump e)
          | .ok count =>
            { outcome with files, output := if verbose then s!"Wrote {count} block(s)\n" else "" }

/-! ## Any command -/

def obey (m : Machine) (request : Request) : Outcome :=
  match request.command with
  | .scan path options => m.scan request.verbose path options
  | .extract path options directory readsDocuments =>
    m.extract path options directory readsDocuments
  | .dump path output table backend => m.dump request.verbose path output table backend

def run (m : Machine) (arguments : List String) : Outcome :=
  match Request.ofArguments arguments with
  | .ok request => m.obey request
  | .error e =>
    { output := e.answer
      diagnostics := match e.complaint? with
        | none => ""
        | some complaint => s!"{programName}: error: " ++ complaint ++ "\n"
      files := m.files
      ending := .exit e.code }

end Machine

end RegionSalvage
