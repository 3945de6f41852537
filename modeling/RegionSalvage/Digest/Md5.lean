import RegionSalvage.Bytes
import RegionSalvage.Text.Hex

/-! # MD5

Recovered chunks are told apart by their MD5 digest.  The message is padded with a one bit, zeros
and its length in bits, and taken in blocks of sixteen little-endian words; each block drives the
four words of the state through 64 steps.
-/

namespace RegionSalvage.Md5

structure State where
  a : UInt32
  b : UInt32
  c : UInt32
  d : UInt32
deriving DecidableEq, Repr

def initial : State := ⟨0x67452301, 0xEFCDAB89, 0x98BADCFE, 0x10325476⟩

def rotations : Array UInt32 := #[
  7, 12, 17, 22, 7, 12, 17, 22, 7, 12, 17, 22, 7, 12, 17, 22,
  5, 9, 14, 20, 5, 9, 14, 20, 5, 9, 14, 20, 5, 9, 14, 20,
  4, 11, 16, 23, 4, 11, 16, 23, 4, 11, 16, 23, 4, 11, 16, 23,
  6, 10, 15, 21, 6, 10, 15, 21, 6, 10, 15, 21, 6, 10, 15, 21]

/-- The constants of the 64 steps: the integer parts of `2 ^ 32 * |sin (i + 1)|`. -/
def constants : Array UInt32 := #[
  0xd76aa478, 0xe8c7b756, 0x242070db, 0xc1bdceee, 0xf57c0faf, 0x4787c62a, 0xa8304613, 0xfd469501,
  0x698098d8, 0x8b44f7af, 0xffff5bb1, 0x895cd7be, 0x6b901122, 0xfd987193, 0xa679438e, 0x49b40821,
  0xf61e2562, 0xc040b340, 0x265e5a51, 0xe9b6c7aa, 0xd62f105d, 0x02441453, 0xd8a1e681, 0xe7d3fbc8,
  0x21e1cde6, 0xc33707d6, 0xf4d50d87, 0x455a14ed, 0xa9e3e905, 0xfcefa3f8, 0x676f02d9, 0x8d2a4c8a,
  0xfffa3942, 0x8771f681, 0x6d9d6122, 0xfde5380c, 0xa4beea44, 0x4bdecfa9, 0xf6bb4b60, 0xbebfbc70,
  0x289b7ec6, 0xeaa127fa, 0xd4ef3085, 0x04881d05, 0xd9d4d039, 0xe6db99e5, 0x1fa27cf8, 0xc4ac5665,
  0xf4292244, 0x432aff97, 0xab9423a7, 0xfc93a039, 0x655b59c3, 0x8f0ccc92, 0xffeff47d, 0x85845dd1,
  0x6fa87e4f, 0xfe2ce6e0, 0xa3014314, 0x4e0811a1, 0xf7537e82, 0xbd3af235, 0x2ad7d2bb, 0xeb86d391]

/-- A byte of a message as a word, zero past the end. -/
def byteAt (b : ByteArray) (i : Nat) : UInt32 :=
  if h : i < b.size then b[i].toUInt32 else 0

def wordAt (b : ByteArray) (i : Nat) : UInt32 :=
  byteAt b i ||| (byteAt b (i + 1) <<< 8) ||| (byteAt b (i + 2) <<< 16) |||
    (byteAt b (i + 3) <<< 24)

/-- A rotation to the left by less than 32 places. -/
def rotateLeft (x n : UInt32) : UInt32 := (x <<< n) ||| (x >>> (32 - n))

/-- Step `i` on the block that starts at `base`. -/
def step (message : ByteArray) (base i : Nat) (s : State) : State :=
  let (mix, word) :=
    if i < 16 then ((s.b &&& s.c) ||| (~~~s.b &&& s.d), i)
    else if i < 32 then ((s.d &&& s.b) ||| (~~~s.d &&& s.c), (5 * i + 1) % 16)
    else if i < 48 then (s.b ^^^ s.c ^^^ s.d, (3 * i + 5) % 16)
    else (s.c ^^^ (s.b ||| ~~~s.d), 7 * i % 16)
  let sum := mix + s.a + constants.getD i 0 + wordAt message (base + 4 * word)
  ⟨s.d, s.b + rotateLeft sum (rotations.getD i 0), s.b, s.c⟩

/-- The last `left` steps on the block that starts at `base`. -/
def steps (message : ByteArray) (base : Nat) : (left : Nat) → State → State
  | 0, s => s
  | left + 1, s => steps message base left (step message base (63 - left) s)

/-- Takes `left` blocks from `base` on into the state. -/
def absorb (message : ByteArray) : (left base : Nat) → State → State
  | 0, _, s => s
  | left + 1, base, s =>
    let t := steps message base 64 s
    absorb message left (base + 64) ⟨s.a + t.a, s.b + t.b, s.c + t.c, s.d + t.d⟩

/-- The message with its padding, a multiple of 64 bytes. -/
def padded (message : ByteArray) : ByteArray :=
  let fill := (119 - message.size % 64) % 64
  leBytes 8 (8 * message.size) (padZeros fill (message.push 0x80))

def digest (message : ByteArray) : ByteArray :=
  let text := padded message
  let s := absorb text (text.size / 64) 0 initial
  [s.a, s.b, s.c, s.d].foldl (fun out w => leBytes 4 w.toNat out) .empty

def hexDigest (message : ByteArray) : String := hexText (digest message)

end RegionSalvage.Md5
