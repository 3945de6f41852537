import RegionSalvage.Block.Basic
import RegionSalvage.Region.OffsetEntry

/-! # Signatures of region-file sectors

A region file is made of three kinds of sector: a table of modification times, a table of chunk
offsets, and the first sector of a compressed chunk.  Each has a test here that is total on all
byte strings.  The tests are independent: a sector may pass several of them, and `SectorKinds`
holds all that it passes, beside the test for sectors with next to nothing in them.

The tables are tested on the first 4096 bytes (or on the whole words there are, if fewer),
sparseness on all bytes, the chunk header on the first eight.
-/

namespace RegionSalvage

/-- The fields of the table that a byte string starts with. -/
def tableFields (b : ByteArray) : List Nat := words (slice b 0 blockSize)

/-! ## Sparse sectors -/

/-- Fewer nonzero units than this make a sector sparse by default. -/
def defaultSparseThreshold : Int := 10

/-- Whether fewer than `threshold` units are not zero. -/
def isSparse (b : ByteArray) (threshold : Int) (unit : CountUnit) : Bool :=
  nonzeroCount b unit < threshold

/-! ## Timestamp tables -/

/-- Whether every nonzero field is a time in `[minTime, maxTime]` and some field is nonzero. -/
def isTimestampTable (b : ByteArray) (minTime maxTime : Int) : Bool :=
  let times := (tableFields b).filter (· != 0)
  !times.isEmpty && times.all fun t => minTime ≤ t && t ≤ maxTime

/-! ## Offset tables -/

/-- The largest offset taken seriously: beyond it a region file exceeds 256 MB. -/
def maxOffset : Nat := 0xFFFF

/-- Sectors taken by the two tables at the start of a region file. -/
def tableSectors : Nat := 2

/-- Fewer populated slots than this cannot be told from noise. -/
def minPopulatedSlots : Nat := 4

namespace OffsetEntry

/-- Enters a slot into a list of claims that ascends by offset.  An offset that is already claimed
keeps its claim. -/
def insertClaim (e : OffsetEntry) : List OffsetEntry → List OffsetEntry
  | [] => [e]
  | f :: rest =>
    if e.offset < f.offset then e :: f :: rest
    else if e.offset = f.offset then f :: rest
    else f :: insertClaim e rest

/-- The claims of the populated slots, ascending by offset; of several slots with one offset the
last one counts. -/
def claims (slots : List OffsetEntry) : List OffsetEntry := slots.foldr insertClaim []

/-- Whether claims that ascend by offset each start at or after the sectors handed out so far, of
which there are `used`. -/
def fit (used : Nat) : List OffsetEntry → Bool
  | [] => true
  | e :: rest => used ≤ e.offset && fit (used + e.length) rest

end OffsetEntry

/-- Whether a sector can be an offset table: no offset is implausible, at least four slots are
populated, no two of them share an offset (unless duplicates are tolerated), and the chunks, in the
order of their offsets, fit behind the tables and behind each other's lengths. -/
def isOffsetTable (b : ByteArray) (rejectDuplicates : Bool) : Bool :=
  let slots := (tableFields b).map fun (field : Nat) => OffsetEntry.ofField field
  slots.all (fun e => e.offset ≤ maxOffset) &&
    let populated := slots.filter OffsetEntry.isPopulated
    let claims := OffsetEntry.claims populated
    minPopulatedSlots ≤ populated.length &&
      (!rejectDuplicates || claims.length == populated.length) &&
      OffsetEntry.fit tableSectors claims

/-! ## Chunk headers -/

/-- The largest declared length of a compressed chunk. -/
def maxRecordLength : Nat := 0x100000

/-- Compression type 2, then the two bytes that open a zlib stream with a 32K window at the default
level. -/
def chunkHeaderMark : Nat := 0x02789C

/-- Whether a sector can be the start of a compressed chunk: a length of at most `maxRecordLength`,
then `chunkHeaderMark`. -/
def startsChunk (b : ByteArray) : Bool :=
  8 ≤ b.size && be32 b 0 ≤ maxRecordLength && be32 b 4 / 256 == chunkHeaderMark

/-! ## All of them -/

/-- What a sector can be. -/
structure SectorKinds where
  sparse : Bool
  timestamps : Bool
  offsets : Bool
  chunkHeader : Bool
deriving DecidableEq, Repr

/-- The kinds as a number: 1, 2, 4 and 8 in the order of the fields. -/
def SectorKinds.code (k : SectorKinds) : Nat :=
  k.sparse.toNat + 2 * k.timestamps.toNat + 4 * k.offsets.toNat + 8 * k.chunkHeader.toNat

/-- Every kind a byte string satisfies. -/
def SectorKinds.ofBytes (b : ByteArray) (minTime maxTime threshold : Int) (unit : CountUnit)
    (rejectDuplicates : Bool) : SectorKinds where
  sparse := isSparse b threshold unit
  timestamps := isTimestampTable b minTime maxTime
  offsets := isOffsetTable b rejectDuplicates
  chunkHeader := startsChunk b

end RegionSalvage
