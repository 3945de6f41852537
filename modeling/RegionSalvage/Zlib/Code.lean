import RegionSalvage.Zlib.Bits

/-! # Canonical prefix codes

A prefix code is given by the length of each symbol's code word.  Code words of one length are
consecutive numbers in the order of their symbols, and follow on from the shorter ones; so a code
word is found by comparing it, bit by bit, with the first one of each length.

* `Code.room` tells complete codes (zero) from those with code words to spare (positive) and those
  that promise more than there are (negative).
* `Code.decode` reads one symbol; it gives up after the longest code word, and after one bit when
  the code has no words at all.
-/

namespace RegionSalvage.Zlib

structure Code where
  /-- How many symbols have a word of one bit, two bits and so on, up to the longest word; at least
  one entry. -/
  counts : List Nat
  /-- The symbols by the length of their words, and in order within a length. -/
  symbols : Array Nat

namespace Code

def longest (lengths : List Nat) : Nat := lengths.foldl max 0

def symbolsOfLength (lengths : List Nat) (length : Nat) : List Nat :=
  lengths.zipIdx.filterMap fun (l, symbol) => if l = length then some symbol else none

/-- The code with the given lengths; length zero means that a symbol has no word. -/
def ofLengths (lengths : List Nat) : Code where
  counts := (List.range (max 1 (longest lengths))).map fun i => lengths.count (i + 1)
  symbols := ((List.range (longest lengths)).flatMap fun i =>
    symbolsOfLength lengths (i + 1)).toArray

def maxLength : Nat := 15

/-- How many words of fifteen bits no code word starts, less those that several would have to. -/
def room (lengths : List Nat) : Int :=
  (List.range maxLength).foldl (fun left i => 2 * left - lengths.count (i + 1)) 1

/-- Whether a code for literals or distances is accepted: without words, complete, or with a single
word of one bit. -/
def isAcceptable (lengths : List Nat) : Bool :=
  longest lengths == 0 || room lengths == 0 || (0 < room lengths && longest lengths == 1)

/-- Whether a code for code lengths is accepted: without words, or complete. -/
def isAcceptableForLengths (lengths : List Nat) : Bool :=
  longest lengths == 0 || room lengths == 0

/-- Follows a code word that starts with `code`: `first` is the first word of the length reached and
`index` the place of its symbol, and `counts` are the numbers of longer words. -/
def follow (input : ByteArray) (symbols : Array Nat) :
    (counts : List Nat) → (code first index pos : Nat) → Except Stop (Option Nat × Nat)
  | [], _, _, _, pos => .ok (none, pos)
  | n :: counts, code, first, index, pos =>
    if pos < 8 * input.size then
      let code := 2 * code + (bitAt input pos).toNat
      let first := 2 * first
      if code < first + n then .ok (some (symbols.getD (index + (code - first)) 0), pos + 1)
      else follow input symbols counts code (first + n) (index + n) (pos + 1)
    else .error .starved

/-- Reads a symbol at `pos`: the symbol, if the bits are a code word, and the position behind it. -/
def decode (c : Code) (input : ByteArray) (pos : Nat) : Except Stop (Option Nat × Nat) :=
  follow input c.symbols c.counts 0 0 0 pos

end Code

/-! ## The fixed codes -/

/-- The lengths of the fixed code for literals and lengths. -/
def fixedLiteralLengths : List Nat :=
  List.replicate 144 8 ++ List.replicate 112 9 ++ List.replicate 24 7 ++ List.replicate 8 8

def fixedLiterals : Code := .ofLengths fixedLiteralLengths

def fixedDistances : Code := .ofLengths (List.replicate 32 5)

end RegionSalvage.Zlib
