import RegionSalvage.Disk.FileTree
import RegionSalvage.Shard.Arrival
import RegionSalvage.Volume.Basic

/-! # Opening a volume by name

A volume is opened by the path of its image and the name of a backend.  The backend `auto` looks at
the first bytes of the image: with the marks of an ext file system of 4 KiB blocks it opens the
image as one, any other image as a flat one.
-/

namespace RegionSalvage

/-- The names of ways to open an image. -/
inductive Backend where
  | auto
  | file
  | mmap
  | ext
  | tsk
deriving DecidableEq, Repr

def Backend.ofName? : String → Option Backend
  | "auto" => some .auto
  | "file" => some .file
  | "mmap" => some .mmap
  | "ext" => some .ext
  | "tsk" => some .tsk
  | _ => none

def Backend.names : List String := ["auto", "file", "mmap", "ext", "tsk"]

/-- What the machine can do. -/
structure Host where
  canMap : Bool := true
  /-- The size of the largest file that its file system has: unless said otherwise, 2³² - 1 blocks. -/
  maxFileSize : Nat := 0xFFFFFFFF000
  hasToolkit : Bool := true
  /-- What the forensic toolkit says about an image, if it is installed. -/
  toolkit : ByteArray → Option Volume.ToolkitReport := Volume.extReport?
  processors : Option Int := some 1
  /-- The order in which the workers of a scan come to an end. -/
  arrival : ArrivalOrder := .inTurn

/-- Why an image cannot be opened. -/
inductive OpenError where
  | unknownBackend (name : String)
  /-- No backend is named at all. -/
  | noBackend
  | unreadableFile (path : String) (e : PathError)
  /-- The path of the image holds a NUL. -/
  | nulInPath
  | ext (path : String) (e : Volume.ExtRefusal)
  | toolkitMissing
  | toolkitUnreadable (path : String)
  /-- The path that the toolkit is given holds a NUL. -/
  | toolkitNulInPath
  | toolkit (e : Volume.ToolkitRefusal)
deriving DecidableEq, Repr

def BitmapFault.message : BitmapFault → String
  | .descriptorCut offset available =>
    let needed := offset + 4
    s!"unpack_from requires a buffer of at least {needed} bytes for unpacking 4 bytes " ++
      s!"at offset {offset} (actual buffer size is {available})"
  | .seekRefused => "[Errno 22] Invalid argument"
  | .seekTooFar => "cannot fit 'int' into an offset-sized integer"

/-- The families of errors that reports tell apart. -/
inductive ErrorFamily where
  /-- A block, or the image as a whole, cannot be read. -/
  | blockSource
  | value
  /-- A field lies outside its bytes. -/
  | field
deriving DecidableEq, Repr

def ErrorFamily.name : ErrorFamily → String
  | .blockSource => "BlockSourceError"
  | .value => "ValueError"
  | .field => "error"

namespace OpenError

def family : OpenError → ErrorFamily
  | .unknownBackend _ | .noBackend => .value
  | .nulInPath | .toolkitNulInPath => .value
  | .ext _ (.unreadableBitmap .seekTooFar) => .value
  | .toolkit (.unreadableBitmap .seekTooFar) => .value
  | .toolkit (.unreadableBitmap (.descriptorCut _ _)) => .field
  | _ => .blockSource

def message : OpenError → String
  | .unknownBackend name => "Unknown block source backend: " ++ quoted name
  | .noBackend => "Unknown block source backend: []"
  | .nulInPath => FileError.nulInPath.description
  | .unreadableFile path e => s!"Failed to open file: {path} (" ++ e.message ++ ")"
  | .ext path .notExt => s!"Not an ext2/3/4 filesystem: {path}"
  | .ext _ (.wrongBlockSize size) =>
    s!"This ext2/3/4 filesystem does not have 4kB blocks ({size} bytes)"
  | .ext _ (.unreadableBitmap .seekTooFar) => BitmapFault.seekTooFar.message
  | .ext path (.unreadableBitmap fault) =>
    s!"Could not read block bitmap of {path}: " ++ fault.message
  | .toolkitMissing =>
    "pytsk3 is not installed (pip install pytsk3) — use the 'mmap' or 'ext' backend instead"
  | .toolkitUnreadable path => s!"TSK could not open {path}"
  | .toolkitNulInPath => "embedded null character"
  | .toolkit (.wrongBlockSize size) =>
    s!"Filesystem block size {size} does not match region sector size {blockSize}"
  | .toolkit (.unreadableBitmap fault) => fault.message

end OpenError

namespace Volume

/-- The block size of the ext file system whose image has the given path, if it is one.  A file that
cannot be read is none, but a path that is no path is an error. -/
def probe (files : FileTree) (path : String) : Except PathError (Option Nat) :=
  match files.read path with
  | .error e => if e.error = .nulInPath then .error e else .ok none
  | .ok image => .ok (extBlockSize? (slice image 0 extHeaderSize))

def openWith (host : Host) (files : FileTree) (path : String) (backend : Backend) :
    Except OpenError Volume :=
  match backend with
  | .file => withImage fun image => .ok (flatFile image)
  | .mmap => withImage fun image => .ok (mappedFile image host.canMap)
  | .ext => withImage asExt
  | .auto =>
    match probe files path with
    | .error _ => .error .nulInPath
    | .ok found =>
      if found = some blockSize then withImage asExt
      else withImage fun image => .ok (mappedFile image host.canMap)
  | .tsk =>
    if !host.hasToolkit then .error .toolkitMissing
    else match files.read path with
      | .error e =>
        .error (if e.error = .nulInPath then .toolkitNulInPath else .toolkitUnreadable path)
      | .ok image =>
        match toolkitImage host.toolkit image with
        | .error e => .error (.toolkit e)
        | .ok v => .ok v
where
  withImage (k : ByteArray → Except OpenError Volume) : Except OpenError Volume :=
    match files.read path with
    | .error e => .error (if e.error = .nulInPath then .nulInPath else .unreadableFile path e)
    | .ok image => k image
  asExt (image : ByteArray) : Except OpenError Volume :=
    match extImage image host.canMap host.maxFileSize with
    | .error e => .error (.ext path e)
    | .ok v => .ok v

def openNamed (host : Host) (files : FileTree) (path backend : String) :
    Except OpenError Volume :=
  match Backend.ofName? backend with
  | none => .error (.unknownBackend backend)
  | some b => openWith host files path b

end Volume

end RegionSalvage
