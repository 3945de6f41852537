import RegionSalvage.Block.Image
import RegionSalvage.Ext.Bitmap

/-! # Volumes

A volume is an image that has been opened: the blocks it offers, and what is known about it.  An
image can be taken as it is (`flatFile`), as an ext file system (`extImage`) or through the forensic
toolkit (`toolkitImage`), which knows ext file systems too; the block bitmaps of a file system then
say which blocks are in use.

Closing a volume that reads from a file makes further reads fail; the range of a read is still
checked first.
-/

namespace RegionSalvage

/-- The ways to open an image. -/
inductive VolumeKind where
  | memory
  | file
  | mapped
  | ext
  | toolkit
deriving DecidableEq, Repr

/-- An image that has been opened. -/
structure Volume where
  kind : VolumeKind
  source : BlockSource
  size : Nat := 0
  isMapped : Bool := false
  fsType : Option String := none
  /-- The block bitmaps of the file system. -/
  allocation : Option ExtBlockMap := none
  isOpen : Bool := true

/-- Why a volume gives no blocks. -/
inductive VolumeReadError where
  | block (e : ReadError)
  | closed
deriving DecidableEq, Repr

namespace Volume

def inMemory (source : BlockSource) : Volume := { kind := .memory, source }

/-- Closes a volume; one in memory stays readable. -/
def close (v : Volume) : Volume := { v with isOpen := v.kind == .memory }

def read (v : Volume) (index count : Int) : Except VolumeReadError ByteArray :=
  match v.source.read index count with
  | .error e => .error (.block e)
  | .ok bytes => if v.isOpen then .ok bytes else .error .closed

def readBlocks (v : Volume) (indices : List Int) : Except VolumeReadError ByteArray :=
  indices.foldlM (fun out index => return out ++ (← v.read index 1)) .empty

/-- A flat image that is read by seeking. -/
def flatFile (image : ByteArray) : Volume :=
  { kind := .file, source := .flat image, size := image.size }

/-- A flat image that is mapped into memory, if it can be. -/
def mappedFile (image : ByteArray) (canMap : Bool) : Volume :=
  { kind := .mapped, source := .flat image, size := image.size
    isMapped := canMap && image.size != 0 }

/-- A volume whose image is on a device.  A memory map is not read through the device. -/
def onDevice (v : Volume) (device : Device) : Volume :=
  if v.isMapped then v else { v with source := v.source.onDevice device }

/-- The blocks of a volume whose image has the content `present` by now.  What was learnt when it
was opened stays: the range and the blocks in use.  Read by seeking, the bytes are those of the
file; a memory map shows its last page filled up with zeros.  The toolkit keeps to what it has
read. -/
def sourceOver (v : Volume) (present : ByteArray) : BlockSource :=
  match v.kind with
  | .memory | .toolkit => v.source
  | .file | .mapped | .ext =>
    v.source.refetched <| if v.isMapped then BlockSource.pageBytes present
      else BlockSource.imageBytes present

/-- The blocks of an image that a file system of `totalBlocks` blocks covers. -/
def coveredBlocks (image : ByteArray) (totalBlocks : Int) : Int :=
  min totalBlocks (image.size / blockSize : Nat)

inductive ExtRefusal where
  | notExt
  /-- The file system has blocks of another size. -/
  | wrongBlockSize (size : Int)
  | unreadableBitmap (fault : BitmapFault)
deriving DecidableEq, Repr

/-- An image opened as an ext file system, where files have at most `largest` bytes. -/
def extImage (image : ByteArray) (canMap : Bool) (largest : Nat) : Except ExtRefusal Volume :=
  let isMapped := canMap && image.size != 0
  let access : ImageAccess := if isMapped then .mapped else .seeking largest
  match ExtBlockMap.ofImage? image access with
  | .error fault => .error (.unreadableBitmap fault)
  | .ok none => .error .notExt
  | .ok (some allocation) =>
    if allocation.blockSize ≠ blockSize then .error (.wrongBlockSize allocation.blockSize)
    else .ok
      { kind := .ext
        source := .ofImage image allocation.firstDataBlock
          (coveredBlocks image allocation.totalBlocks) allocation.isAllocated
        size := image.size
        isMapped
        fsType := some allocation.fsType
        allocation := some allocation }

/-! ## The forensic toolkit -/

/-- What the forensic toolkit says about the file system on an image. -/
structure ToolkitReport where
  blockSize : Nat
  firstBlock : UInt64
  lastBlock : UInt64
  /-- The toolkit's number for the kind of the file system. -/
  kind : Nat

inductive ToolkitRefusal where
  | wrongBlockSize (size : Nat)
  | unreadableBitmap (fault : BitmapFault)
deriving DecidableEq, Repr

/-- An image opened through the toolkit, which recognises file systems by `recognise`; an image
without one is flat.  The blocks in use are those of an ext file system, if it is one. -/
def toolkitImage (recognise : ByteArray → Option ToolkitReport) (image : ByteArray) :
    Except ToolkitRefusal Volume :=
  match recognise image with
  | none => .ok { kind := .toolkit, source := .flat image, size := image.size, fsType := some "" }
  | some report =>
    if report.blockSize ≠ blockSize then .error (.wrongBlockSize report.blockSize)
    else
      let stop := coveredBlocks image (report.lastBlock.toNat + 1)
      let volume (first : Int) (isAllocated : Int → Bool) : Volume :=
        { kind := .toolkit
          source := .ofImage image first stop isAllocated
          size := image.size
          fsType := some (toString report.kind) }
      match ExtBlockMap.ofImage? image .mapped with
      | .error fault => .error (.unreadableBitmap fault)
      | .ok none => .ok (volume report.firstBlock.toNat fun _ => false)
      | .ok (some allocation) => .ok
        { volume allocation.firstDataBlock allocation.isAllocated with
          allocation := some allocation }

/-- The toolkit's number for a generation of the ext file system. -/
def toolkitKind : ExtKind → Nat
  | .ext2 => 0x80
  | .ext3 => 0x100
  | .ext4 => 0x2000

/-- The report on an ext file system: beside the marks of one, the toolkit wants to see inodes.
Other file systems it is not asked for here. -/
def extReport? (image : ByteArray) : Option ToolkitReport :=
  let header := slice image 0 extHeaderSize
  let inodes := le32 header superblockOffset
  let inodesPerGroup := le32 header (superblockOffset + 40)
  if inodes < 9 ∨ inodesPerGroup = 0 then none
  else (Superblock.ofHeader? header).map fun sb =>
    { blockSize := sb.blockSize
      firstBlock := 0
      lastBlock := .ofNat (sb.totalBlocks - 1)
      kind := toolkitKind sb.kind }

end Volume

end RegionSalvage
