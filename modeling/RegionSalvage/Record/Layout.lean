import RegionSalvage.Block.Basic

/-! # Layout of a chunk record

A chunk record is a big-endian 32-bit length, one byte that names the compression, and a zlib
stream of that length.  It starts at a sector boundary and takes whole sectors.
-/

namespace RegionSalvage

/-- Bytes in front of the compressed stream. -/
def recordHeaderSize : Nat := 5

/-- Sectors taken by a record with this declared length. -/
def recordBlocks (dataLength : Int) : Int :=
  (recordHeaderSize + dataLength + blockSize - 1) / blockSize

end RegionSalvage
