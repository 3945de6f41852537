import RegionSalvage.Block.Basic

/-! # Block sources

A block source answers four questions: where scanning starts (`firstIndex`), where the blocks end
(`blockCount`), whether the file system holds a block in use (`isAllocated`), and what bytes a run
of consecutive blocks has (`read`).  A read that succeeds yields whole blocks; that promise is the
field `size_read`, so nothing built on a source has to check it again.

`checkedRead` is the rule by which every source of this library turns raw bytes into an answer:
the count first, then the range, then the number of bytes that came back.
-/

namespace RegionSalvage

inductive ReadError where
  | invalidCount (count : Int)
  /-- The run starts before block zero or ends past the last block. -/
  | outOfRange (index count : Int)
  /-- The device returned fewer bytes than the run has. -/
  | short (index : Int) (got : Nat) (expected : Int)
  /-- The device refuses the run that starts here. -/
  | device (index : Int) (reason : String)
  /-- The run holds a defect. -/
  | badSector
deriving DecidableEq, Repr

def ReadError.message : ReadError → String
  | .invalidCount count => s!"Invalid block count: {count}"
  | .outOfRange index count =>
    let extent := if count > 1 then s!" (+{count - 1})" else ""
    s!"Block number out of range: {index}" ++ extent
  | .short index got expected =>
    s!"Short read at block {index}: got {got} bytes, expected {expected}"
  | .device index reason => s!"Could not read block {index}: {reason}"
  | .badSector => "bad sector"

structure BlockSource where
  firstIndex : Int
  /-- One past the last block. -/
  blockCount : Int
  /-- Whether the file system on the source has the block in use. -/
  isAllocated : Int → Bool
  /-- The bytes of `count` consecutive blocks from `index` on. -/
  read : (index count : Int) → Except ReadError ByteArray
  /-- A read that succeeds yields that many whole blocks, and at least one. -/
  size_read : ∀ index count bytes, read index count = .ok bytes →
    1 ≤ count ∧ (bytes.size : Int) = 4096 * count

/-- Reads a run of blocks out of `fetch`, which answers with the bytes it has.  The count is
checked first, then the range, then the number of bytes fetched. -/
def checkedRead (blockCount : Int) (fetch : (index count : Int) → ByteArray) (index count : Int) :
    Except ReadError ByteArray :=
  if count < 1 then
    .error (.invalidCount count)
  else if index < 0 ∨ blockCount < index + count then
    .error (.outOfRange index count)
  else
    let bytes := fetch index count
    if (bytes.size : Int) = 4096 * count then .ok bytes
    else .error (.short index bytes.size (4096 * count))

theorem size_of_checkedRead {blockCount : Int} {fetch : Int → Int → ByteArray} {index count : Int}
    {bytes : ByteArray} (h : checkedRead blockCount fetch index count = .ok bytes) :
    1 ≤ count ∧ (bytes.size : Int) = 4096 * count := by
  unfold checkedRead at h
  split at h
  · exact nomatch h
  · next hcount =>
    split at h
    · exact nomatch h
    · simp only at h
      split at h
      · next hsize =>
        cases h
        exact ⟨by omega, hsize⟩
      · exact nomatch h

namespace BlockSource

def readBlock (source : BlockSource) (index : Int) : Except ReadError ByteArray :=
  source.read index 1

/-- The blocks of a list, one after the other; the first that cannot be read decides the error. -/
def readBlocks (source : BlockSource) (indices : List Int) : Except ReadError ByteArray :=
  indices.foldlM (fun out index => return out ++ (← source.readBlock index)) .empty

theorem size_readBlock {source : BlockSource} {index : Int} {bytes : ByteArray}
    (h : source.readBlock index = .ok bytes) : bytes.size = blockSize := by
  have hsize := (source.size_read index 1 bytes h).2
  unfold blockSize
  omega

theorem size_readBlocks {source : BlockSource} {indices : List Int} {bytes : ByteArray}
    (h : source.readBlocks indices = .ok bytes) : bytes.size = blockSize * indices.length := by
  have key : ∀ (indices : List Int) (start : ByteArray),
      indices.foldlM (m := Except ReadError)
        (fun out index => return out ++ (← source.readBlock index)) start = .ok bytes →
      bytes.size = start.size + blockSize * indices.length := by
    intro indices
    induction indices with
    | nil =>
      intro start h
      cases h
      simp
    | cons index rest ih =>
      intro start h
      rw [List.foldlM_cons] at h
      cases hread : source.readBlock index with
      | error e =>
        rw [hread] at h
        exact nomatch h
      | ok block =>
        rw [hread] at h
        have hrest := ih (start ++ block) h
        have hblock := size_readBlock hread
        rw [hrest, ByteArray.size_append, hblock, List.length_cons]
        unfold blockSize
        omega
  simpa using key indices .empty h

end BlockSource

end RegionSalvage
