/-! # Slots of a region offset table

A region file starts with a table of 1024 slots.  A slot is one 32-bit field: the sector at which
a chunk starts in its upper 24 bits, and the number of sectors it takes in the lower eight.
-/

namespace RegionSalvage

/-- One slot of an offset table. -/
structure OffsetEntry where
  /-- The sector at which the chunk starts. -/
  offset : Nat
  /-- How many sectors the chunk takes; zero marks an unused slot. -/
  length : Nat
deriving DecidableEq, Repr

namespace OffsetEntry

/-- The slot that a field encodes.  A field outside the 32-bit range counts by its value modulo
`2 ^ 32`, as in two's complement. -/
def ofField (value : Int) : OffsetEntry where
  offset := (value / 256 % 16777216).toNat
  length := (value % 256).toNat

/-- Whether a chunk sits in the slot. -/
def isPopulated (e : OffsetEntry) : Bool := e.length != 0

end OffsetEntry

end RegionSalvage
