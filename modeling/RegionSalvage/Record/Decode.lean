import RegionSalvage.Record.Assembly
import RegionSalvage.Zlib.Inflate

/-! # Decoding a chunk record

A candidate is decoded in two stages, assembly and inflation, and either can fail; most candidates
on a raw disk do.  Only a header block that cannot be read is an error of its own.
-/

namespace RegionSalvage

/-- Why a candidate holds no chunk. -/
inductive DecodeFailure where
  | assembly (e : AssemblyFailure)
  | decompression (e : Zlib.InflateError)
deriving DecidableEq, Repr

def DecodeFailure.message : DecodeFailure → String
  | .assembly e => "assembly: " ++ e.message
  | .decompression e => "decompression: " ++ e.message

/-- What became of a candidate. -/
structure DecodedRecord where
  block : Int
  /-- The declared length of the stream. -/
  dataLength : Nat
  /-- The blocks that were gathered. -/
  blocks : List Int
  /-- The inflated bytes, or why there are none. -/
  outcome : Except DecodeFailure ByteArray

/-- The text of the error, which is empty for a candidate that inflated. -/
def DecodedRecord.errorText (decoded : DecodedRecord) : String :=
  match decoded.outcome with
  | .ok _ => ""
  | .error e => e.message

/-- Reads, assembles and inflates the record whose header is at `block`. -/
def decodeRecord (source : BlockSource) (block : Int) (extra : Option (List Int)) :
    Except ReadError DecodedRecord :=
  match SectorChain.ofRun source block 1 with
  | .error e => .error e
  | .ok chain =>
    let dataLength := be32 chain.bytes 0
    match chain.assemble source extra with
    | .error e => .ok ⟨block, dataLength, chain.blocks, .error (.assembly e)⟩
    | .ok (payload, grown) =>
      let outcome := match Zlib.inflate payload Zlib.defaultWindow with
        | .error e => .error (.decompression e)
        | .ok data => .ok data
      .ok ⟨block, dataLength, grown.blocks, outcome⟩

end RegionSalvage
