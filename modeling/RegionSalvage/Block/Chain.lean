import RegionSalvage.Block.Image

/-! # Sector chains

A sector chain holds the bytes of a list of blocks, in the order in which they were gathered, with
the block numbers beside them.  It only ever grows at its end.

* `SectorChain.size_eq`: the bytes are exactly as many as the blocks have.
* `blocks_appendRun`: the numbers of a run go behind those that are there.
-/

namespace RegionSalvage

/-- Blocks gathered one after the other, and where they came from. -/
structure SectorChain where
  bytes : ByteArray
  /-- The block numbers, in the order of the bytes. -/
  blocks : List Int
  /-- Every block contributes its 4096 bytes. -/
  size_eq : bytes.size = blockSize * blocks.length

/-- Bytes and block numbers that do not fit together. -/
structure ChainMismatch where
  byteCount : Nat
  blockCount : Nat
deriving DecidableEq, Repr

def ChainMismatch.message (e : ChainMismatch) : String :=
  let expected := blockSize * e.blockCount
  s!"SectorBuffer holds {e.byteCount} bytes for {e.blockCount} block(s); expected {expected}"

/-- The numbers of `count` consecutive blocks from `index` on. -/
def consecutive (index : Int) (count : Nat) : List Int :=
  (List.range count).map fun (i : Nat) => index + i

@[simp] theorem length_consecutive (index : Int) (count : Nat) :
    (consecutive index count).length = count := by
  simp [consecutive]

namespace SectorChain

def empty : SectorChain := ⟨.empty, [], rfl⟩

/-- A chain made of given bytes and block numbers, if their sizes agree. -/
def ofParts (bytes : ByteArray) (blocks : List Int) : Except ChainMismatch SectorChain :=
  if h : bytes.size = blockSize * blocks.length then .ok ⟨bytes, blocks, h⟩
  else .error ⟨bytes.size, blocks.length⟩

/-- Appends `count` consecutive blocks from `index` on. -/
def appendRun (chain : SectorChain) (source : BlockSource) (index count : Int) :
    Except ReadError SectorChain :=
  match h : source.read index count with
  | .error e => .error e
  | .ok bytes => .ok
    { bytes := chain.bytes ++ bytes
      blocks := chain.blocks ++ consecutive index count.toNat
      size_eq := by
        have hsize := source.size_read index count bytes h
        rw [ByteArray.size_append, chain.size_eq, List.length_append, length_consecutive]
        unfold blockSize
        omega }

/-- Appends an explicit list of blocks, in the order given. -/
def appendBlocks (chain : SectorChain) (source : BlockSource) (indices : List Int) :
    Except ReadError SectorChain :=
  match h : source.readBlocks indices with
  | .error e => .error e
  | .ok bytes => .ok
    { bytes := chain.bytes ++ bytes
      blocks := chain.blocks ++ indices
      size_eq := by
        rw [ByteArray.size_append, chain.size_eq, List.length_append,
          BlockSource.size_readBlocks h]
        unfold blockSize
        omega }

def ofRun (source : BlockSource) (index count : Int) : Except ReadError SectorChain :=
  empty.appendRun source index count

def ofBlocks (source : BlockSource) (indices : List Int) : Except ReadError SectorChain :=
  empty.appendBlocks source indices

def blockCount (chain : SectorChain) : Nat := chain.blocks.length

def firstBlock (chain : SectorChain) : ByteArray := slice chain.bytes 0 blockSize

/-- Word number `index` of the chain. -/
def field (chain : SectorChain) (index : Int) : Except WordFault Nat := wordAt chain.bytes index

def description (chain : SectorChain) : String :=
  "SectorBuffer(blocks=[" ++ String.intercalate ", " (chain.blocks.map toString) ++ "])"

def fields (chain : SectorChain) : List Nat := words chain.firstBlock

/-- The declared length of the record that starts the chain. -/
def declaredLength (chain : SectorChain) : Except WordFault Nat := chain.field 0

theorem blocks_appendRun {chain grown : SectorChain} {source : BlockSource} {index count : Int}
    (h : chain.appendRun source index count = .ok grown) :
    grown.blocks = chain.blocks ++ consecutive index count.toNat := by
  unfold appendRun at h
  split at h
  · exact nomatch h
  · cases h
    rfl

end SectorChain

end RegionSalvage
