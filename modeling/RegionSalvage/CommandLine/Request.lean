import RegionSalvage.CommandLine.Options
import RegionSalvage.Numeric.IntegerText
import RegionSalvage.Volume.Opening

/-! # The commands of the program

The program has three commands: `scan` reports the tables and chunk headers of an image, `extract`
recovers its chunks, and `dump` copies its free blocks.  `Request.ofArguments` reads a command line.
-/

namespace RegionSalvage

def programName : String := "regioncarve"

def programVersion : String := "0.3.0"

/-! ## Settings -/

/-- How an image is to be scanned. -/
structure ScanOptions where
  start : Setting String := .value "2008-01-01"
  /-- The newest acceptable date; `now` stands for the present. -/
  stop : Setting String := .value "now"
  firstBlock : Option (Setting Int) := none
  maxBlocks : Option (Setting Int) := none
  backend : Setting String := .value "auto"
  workers : Setting Int := .value 1
  skipUnreadable : Bool := false
  skipSparse : Bool := true
  sparseUnit : CountUnit := .byte
  showProgress : Bool := false
deriving DecidableEq, Repr

/-- What can be set on the command lines of `scan` and `extract`. -/
structure ScanSettings where
  image : Option (Setting String) := none
  options : ScanOptions := {}
  output : Option (Setting String) := none
  readsDocuments : Bool := true

/-- What can be set on the command line of `dump`; an empty name stands for no file. -/
structure DumpSettings where
  image : Option (Setting String) := none
  output : Setting String := .value ""
  table : Setting String := .value ""
  backend : Setting String := .value "auto"

/-- A command with everything it needs. -/
inductive Command where
  | scan (image : Setting String) (options : ScanOptions)
  | extract (image : Setting String) (options : ScanOptions) (output : Setting String)
      (readsDocuments : Bool)
  | dump (image output table backend : Setting String)
deriving DecidableEq, Repr

def Command.paths (command : Command) : List String :=
  let settings := match command with
    | .scan image _ => [image]
    | .extract image _ output _ => [image, output]
    | .dump image output table _ => [image, output, table]
  settings.map (Setting.getD · "")

/-- A command, and whether it is to tell more. -/
structure Request where
  verbose : Bool
  command : Command
deriving DecidableEq, Repr

/-! ## Options -/

/-- An option with a value that is read by `read?`; an option without a value is not read. -/
def OptionSpec.setting {σ α : Type} (short : Option Char) (long : String)
    (read? : String → Option α) (set : Setting α → σ → σ) : OptionSpec σ :=
  { short, long
    effect := .value (fun text s => (read? text).map fun a => set (.value a) s) (set .blank) }

def OptionSpec.text {σ : Type} (short : Option Char) (long : String)
    (set : Setting String → σ → σ) : OptionSpec σ :=
  .setting short long some set

def OptionSpec.integer {σ : Type} (long : String) (set : Setting Int → σ → σ) : OptionSpec σ :=
  .setting none long (fun text => (parseInteger text).toOption) set

def OptionSpec.choice {σ : Type} (long : String) (choices : List String)
    (set : Setting String → σ → σ) : OptionSpec σ :=
  .setting none long (fun text => if choices.contains text then some text else none) set

def OptionSpec.flag {σ : Type} (long : String) (set : σ → σ) : OptionSpec σ :=
  { long, effect := .flag set }

def OptionSpec.help {σ : Type} : OptionSpec σ :=
  { short := some 'h', long := "help", effect := .exit .help }

/-- The options in front of the command; they set whether it is to tell more. -/
def generalOptions : OptionTable Bool :=
  [ .help,
    { long := "version", effect := .exit .version },
    { short := some 'v', long := "verbose", effect := .flag fun _ => true } ]

def scanOptions : OptionTable ScanSettings :=
  let change (f : ScanOptions → ScanOptions) (s : ScanSettings) : ScanSettings :=
    { s with options := f s.options }
  [ .help,
    .text (some 'f') "file" fun value s => { s with image := some value },
    .text none "start" fun value => change fun o => { o with start := value },
    .text none "stop" fun value => change fun o => { o with stop := value },
    .integer "first-block" fun n => change fun o => { o with firstBlock := some n },
    .integer "max-blocks" fun n => change fun o => { o with maxBlocks := some n },
    .choice "backend" Backend.names fun value => change fun o => { o with backend := value },
    .integer "workers" fun n => change fun o => { o with workers := n },
    .flag "skip-unreadable" (change fun o => { o with skipUnreadable := true }),
    .flag "no-sparse-skip" (change fun o => { o with skipSparse := false }),
    .choice "sparse-unit" ["byte", "word"] fun value =>
      change fun o => { o with sparseUnit := CountUnit.ofName (value.getD "byte") },
    .flag "progress" (change fun o => { o with showProgress := true }) ]

def extractOptions : OptionTable ScanSettings :=
  scanOptions ++
  [ .text (some 'o') "output" fun value s => { s with output := some value },
    .flag "no-nbt" fun s => { s with readsDocuments := false } ]

def dumpOptions : OptionTable DumpSettings :=
  [ .help,
    .text (some 'i') "input" fun value s => { s with image := some value },
    .text (some 'o') "output" fun value s => { s with output := value },
    .text (some 't') "table" fun value s => { s with table := value },
    .choice "backend" Backend.names fun value s => { s with backend := value } ]

/-! ## Command lines -/

/-- A setting that cannot be left out. -/
def required {α : Type} (option : String) : Option α → Except EarlyExit α
  | none => .error (.missingOption option)
  | some a => .ok a

/-- Reads the arguments behind a command.  Also gives the arguments that nobody wants, which are
complained about last. -/
def Command.ofArguments (name : String) (arguments : List String) :
    Except EarlyExit (Command × List String) :=
  match name with
  | "scan" => do
    let r ← scanOptions.read false {} arguments
    return (.scan (← required "file" r.settings.image) r.settings.options, r.strays)
  | "extract" => do
    let r ← extractOptions.read false {} arguments
    return (.extract (← required "file" r.settings.image) r.settings.options
      (← required "output" r.settings.output) r.settings.readsDocuments, r.strays)
  | "dump" => do
    let r ← dumpOptions.read false {} arguments
    return (.dump (← required "input" r.settings.image) r.settings.output r.settings.table
      r.settings.backend, r.strays)
  | name => .error (.unknownCommand name)

def Request.ofArguments (arguments : List String) : Except EarlyExit Request := do
  let r ← generalOptions.read true false arguments
  match r.command with
  | none => throw .missingCommand
  | some (name, rest) =>
    let (command, strays) ← Command.ofArguments name rest
    if r.strays.isEmpty && strays.isEmpty then return ⟨r.settings, command⟩
    else throw (.strayArguments (r.strays ++ strays))

/-! ## Answers without a command -/

def usageText : String :=
  let lines := [
    s!"usage: {programName} [-h] [--version] [-v] COMMAND ...",
    "",
    "Scan filesystem images for deleted Minecraft region data.",
    "",
    "commands:",
    "  scan     report timestamp/offset tables and chunk headers",
    "  extract  recover and save inflated chunks",
    "  dump     dump unused, nonzero data blocks",
    "",
    "options of scan and extract:",
    "  -f, --file FILE            image to be carved",
    "  --start DATE               oldest accepted timestamp, YYYY-mm-dd (2008-01-01)",
    "  --stop DATE                newest accepted timestamp, YYYY-mm-dd (now)",
    "  --first-block N            start scanning at this block",
    "  --max-blocks N             stop scanning before this block",
    "  --backend NAME             auto, file, mmap, ext or tsk (auto)",
    "  --workers N                number of scanning workers (1)",
    "  --skip-unreadable          skip unreadable blocks instead of aborting",
    "  --no-sparse-skip           classify near-empty blocks too",
    "  --sparse-unit UNIT         byte or word, as counted by the sparse-block test (byte)",
    "  --progress                 show a progress bar",
    "",
    "options of extract:",
    "  -o, --output DIRECTORY     where the chunks are saved",
    "  --no-nbt                   do not parse recovered chunks as NBT",
    "",
    "options of dump:",
    "  -i, --input FILE           filesystem image",
    "  -o, --output FILE          data of the unused blocks",
    "  -t, --table FILE           numbers of the unused blocks",
    "  --backend NAME             auto, file, mmap, ext or tsk (auto)" ]
  String.join (lines.map (· ++ "\n"))

namespace EarlyExit

/-- The complaint about a command line; `none` if there is nothing wrong with it. -/
def complaint? : EarlyExit → Option String
  | .help | .version => none
  | .ambiguous argument => some ("ambiguous option: " ++ argument)
  | .missingValue option => some s!"argument --{option}: expected one argument"
  | .needlessValue option => some s!"argument --{option}: ignored explicit argument"
  | .refusedValue option value => some (s!"argument --{option}: invalid value: " ++ quoted value)
  | .strayArguments arguments =>
    some ("unrecognized arguments: " ++ String.intercalate " " arguments)
  | .missingOption option => some s!"the following arguments are required: --{option}"
  | .missingCommand => some "the following arguments are required: COMMAND"
  | .unknownCommand name => some ("invalid command: " ++ quoted name)

def code (e : EarlyExit) : Nat := if e.complaint?.isSome then 2 else 0

def answer : EarlyExit → String
  | .help => usageText
  | .version => s!"{programName} {programVersion}\n"
  | _ => ""

end EarlyExit

end RegionSalvage
