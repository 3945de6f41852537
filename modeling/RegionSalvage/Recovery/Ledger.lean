/-! # What a recovery has found

The chunks that were recovered, and how every candidate was disposed of.
-/

namespace RegionSalvage

/-- What is known about the content of a chunk as a document. -/
inductive DocumentCheck where
  | skipped
  /-- The bytes are no document. -/
  | refuted
  /-- The bytes are a document, which may tell the coordinates of the chunk. -/
  | confirmed (position : Option (Int × Int))
deriving DecidableEq, Repr

namespace DocumentCheck

def isDocument? : DocumentCheck → Option Bool
  | .skipped => none
  | .refuted => some false
  | .confirmed _ => some true

def position? : DocumentCheck → Option (Int × Int)
  | .confirmed position => position
  | _ => none

end DocumentCheck

/-- A chunk that was recovered. -/
structure SalvagedChunk where
  block : Int
  /-- All of its blocks. -/
  blocks : List Int
  /-- The declared length of its stream. -/
  dataLength : Nat
  size : Nat
  /-- The MD5 digest of its content, in hexadecimal. -/
  md5 : String
  check : DocumentCheck := .skipped
  /-- The file with its content; empty if there is none. -/
  savedTo : String := ""
deriving DecidableEq, Repr

/-- How the candidates were disposed of. -/
structure RecoveryTally where
  candidates : Nat := 0
  recovered : Nat := 0
  assemblyFailures : Nat := 0
  decompressionFailures : Nat := 0
  nbtFailures : Nat := 0
  duplicates : Nat := 0
deriving DecidableEq, Repr

end RegionSalvage
