import RegionSalvage.Bytes

/-! # Blocks

Every source is read in blocks of 4096 bytes, which is also the sector size of a region file.  A
block of zeros was never written or has been wiped, and holds nothing to recover.
-/

namespace RegionSalvage

/-- Bytes in one block. -/
def blockSize : Nat := 4096

/-- Whether a byte string holds zero bytes only; the empty one does.  A whole block is compared with
a block of zeros at once, and for anything else a look at its ends may save the comparison. -/
def isZeroBlock (b : ByteArray) : Bool :=
  if b.size = 0 then true
  else if b.size = blockSize then b.data == (zeros blockSize).data
  else if octet b 0 != 0 || octet b (b.size - 1) != 0 then false
  else b.data == (zeros b.size).data

end RegionSalvage
