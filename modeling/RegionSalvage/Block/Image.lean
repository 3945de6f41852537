import RegionSalvage.Block.Source

/-! # Flat images

A flat image is a byte string cut into blocks; a partial block at its end is not part of it.
`ofImage` reads it as it is, with a first index and an allocation query of its own.

A `Device` may refuse to read a run that is in range.  `Defects` describes a damaged image in
memory: blocks whose mere presence in a run makes the read fail before anything else is looked at,
and blocks at which a run comes back torn, 100 bytes short.
-/

namespace RegionSalvage

structure Defects where
  /-- A read whose run touches one of these blocks fails. -/
  unreadable : List Int := []
  /-- A read that starts at one of these blocks loses its last 100 bytes. -/
  torn : List Int := []

namespace Defects

def spoils (d : Defects) (index count : Int) : Bool :=
  d.unreadable.any fun block => index ≤ block && block < index + count

def tear (d : Defects) (index : Int) (bytes : ByteArray) : ByteArray :=
  if index ∈ d.torn then slice bytes 0 (bytes.size - 100) else bytes

end Defects

/-- A device that refuses some reads. -/
structure Device where
  /-- The reason for which a run of blocks is not read. -/
  refusal : (index count : Int) → Option String := fun _ _ => none

namespace BlockSource

/-- A source whose device answers some reads with an error of its own, whatever the reason. -/
def refusing (source : BlockSource) (refusal : (index count : Int) → Option ReadError) :
    BlockSource where
  firstIndex := source.firstIndex
  blockCount := source.blockCount
  isAllocated := source.isAllocated
  read index count :=
    match refusal index count with
    | some e => .error e
    | none => source.read index count
  size_read index count bytes h := by
    split at h
    · exact nomatch h
    · exact source.size_read index count bytes h

/-- A source that is read from a device, which is not asked for what is out of range. -/
def onDevice (source : BlockSource) (device : Device) : BlockSource :=
  source.refusing fun index count =>
    if 1 ≤ count ∧ 0 ≤ index ∧ index + count ≤ source.blockCount then
      (device.refusal index count).map (.device index)
    else none

/-- The bytes of `count` blocks from `index` on, as far as the image has them. -/
def imageBytes (image : ByteArray) (index count : Int) : ByteArray :=
  slice image (4096 * index).toNat (4096 * (index + count)).toNat

/-- The bytes of `count` blocks from `index` on, as far as a memory map of the image has them: in
whole pages, of the size of a block. -/
def pageBytes (image : ByteArray) (index count : Int) : ByteArray :=
  let bytes := imageBytes image index count
  padZeros ((blockSize - bytes.size % blockSize) % blockSize) bytes

/-- A source whose bytes come from elsewhere. -/
def refetched (source : BlockSource) (fetch : (index count : Int) → ByteArray) : BlockSource where
  firstIndex := source.firstIndex
  blockCount := source.blockCount
  isAllocated := source.isAllocated
  read := checkedRead source.blockCount fetch
  size_read _ _ _ h := size_of_checkedRead h

/-- The blocks of `image` up to `blockCount`, with the given first index and allocation. -/
def ofImage (image : ByteArray) (firstIndex blockCount : Int) (isAllocated : Int → Bool) :
    BlockSource where
  firstIndex
  blockCount
  isAllocated
  read := checkedRead blockCount (imageBytes image)
  size_read _ _ _ h := size_of_checkedRead h

/-- A flat image without allocation data: all of its blocks are free. -/
def flat (image : ByteArray) : BlockSource :=
  ofImage image 0 (image.size / blockSize : Nat) fun _ => false

/-- An image held in memory, with a set of blocks in use and the damage of its device. -/
def inMemory (image : ByteArray) (allocated : List Int) (firstIndex : Int) (defects : Defects) :
    BlockSource where
  firstIndex
  blockCount := (image.size / blockSize : Nat)
  isAllocated block := allocated.contains block
  read index count :=
    if defects.spoils index count then .error .badSector
    else checkedRead (image.size / blockSize : Nat)
      (fun index count => defects.tear index (imageBytes image index count)) index count
  size_read index count bytes h := by
    split at h
    · exact nomatch h
    · exact size_of_checkedRead h

end BlockSource

end RegionSalvage
