/-! # What can be wrong with a zlib stream

A stream that is not valid has a `Fault`, the first one met on the way through it.  A stream may
also end before it says so; then all the output that its bytes determine counts.
-/

namespace RegionSalvage.Zlib

/-- The ways in which a stream is invalid. -/
inductive Fault where
  /-- The two header bytes are no multiple of 31. -/
  | headerCheck
  | compressionMethod
  | windowSize
  | presetDictionary
  | blockType
  /-- The length of a stored block and its complement disagree. -/
  | storedLengths
  | tooManySymbols
  /-- The code that code lengths are written in is no prefix code. -/
  | codeLengths
  /-- A repetition of code lengths has nothing to repeat or goes too far. -/
  | bitLengthRepeat
  | missingEndOfBlock
  | literalLengths
  | distances
  | literalCode
  | distanceCode
  | distanceTooFar
  | dataCheck
deriving DecidableEq, Repr

def Fault.text : Fault → String
  | .headerCheck => "Error -3 while decompressing data: incorrect header check"
  | .compressionMethod => "Error -3 while decompressing data: unknown compression method"
  | .windowSize => "Error -3 while decompressing data: invalid window size"
  | .presetDictionary => "Error 2 while decompressing data"
  | .blockType => "Error -3 while decompressing data: invalid block type"
  | .storedLengths => "Error -3 while decompressing data: invalid stored block lengths"
  | .tooManySymbols => "Error -3 while decompressing data: too many length or distance symbols"
  | .codeLengths => "Error -3 while decompressing data: invalid code lengths set"
  | .bitLengthRepeat => "Error -3 while decompressing data: invalid bit length repeat"
  | .missingEndOfBlock => "Error -3 while decompressing data: invalid code -- missing end-of-block"
  | .literalLengths => "Error -3 while decompressing data: invalid literal/lengths set"
  | .distances => "Error -3 while decompressing data: invalid distances set"
  | .literalCode => "Error -3 while decompressing data: invalid literal/length code"
  | .distanceCode => "Error -3 while decompressing data: invalid distance code"
  | .distanceTooFar => "Error -3 while decompressing data: invalid distance too far back"
  | .dataCheck => "Error -3 while decompressing data: incorrect data check"

/-- Why the reading of a stream stops. -/
inductive Stop where
  /-- The input ends here. -/
  | starved
  | fault (f : Fault)
deriving DecidableEq, Repr

end RegionSalvage.Zlib
