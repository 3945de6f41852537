import RegionSalvage.Zlib.Machine

/-! # Inflating a payload

A payload is inflated in windows: a pull delivers at most so many bytes of output, and what the
machine has put out beyond them waits for the next pull.  A pull that fills its window leaves alone
the input that the machine has not come to, and that rest is what the next pull is fed.  Pulls are
repeated until the stream is complete; a pull that delivers nothing before that, and leaves nothing
alone, means that the input ended early.
-/

namespace RegionSalvage.Zlib

def defaultWindow : Nat := 1024

inductive InflateError where
  | corrupt (f : Fault)
  /-- The input ended after this many bytes of output. -/
  | truncated (size : Nat)
  | negativeWindow
  | unaddressableWindow
deriving DecidableEq, Repr

def InflateError.message : InflateError → String
  | .corrupt f => "Failed to decompress data using zlib: " ++ f.text
  | .truncated size => s!"zlib stream truncated after {size} bytes"
  | .negativeWindow => "max_length must be non-negative"
  | .unaddressableWindow => "max_length must fit 64 bits"

/-- A machine, the input that it has been fed, and how much of its output has been delivered. -/
structure Inflater where
  machine : Machine := {}
  fed : ByteArray := .empty
  delivered : Nat := 0

/-- What a pull delivers, the input that it leaves alone, and the inflater behind it. -/
structure Delivery where
  piece : ByteArray
  tail : ByteArray
  next : Inflater

namespace Inflater

/-- More steps than a machine can take through its input: each of them takes a bit. -/
def stepBudget (input : ByteArray) : Nat := 8 * input.size + 1

/-- Whether all of a complete stream has been delivered. -/
def isDone (s : Inflater) : Bool :=
  s.machine.isFinished && s.delivered == s.machine.output.size

/-- Delivers the next bytes of output, at most `window` of them, or all when `window` is zero.  The
machine goes on with what it was fed before and what is `pending` now. -/
def pull (pending : ByteArray) (window : Nat) (s : Inflater) : Except Fault Delivery := do
  let input := s.fed ++ pending
  let target := if window = 0 then none else some (s.delivered + window)
  let machine ← s.machine.run input target (stepBudget input)
  let stop := match target with
    | none => machine.output.size
    | some size => min size machine.output.size
  -- A machine that stops for want of input has used up all of it.
  let used :=
    if machine.hasReached target then (machine.pos + 7) / 8 - s.fed.size else pending.size
  return {
    piece := machine.output.extract s.delivered stop
    tail := slice pending used pending.size
    next := { machine, fed := s.fed ++ slice pending 0 used, delivered := stop } }

/-- More pulls than deliver anything: a step puts out at most 258 bytes, or as many as it takes. -/
def pullBudget (input : ByteArray) : Nat := 258 * stepBudget input + input.size + 2

/-- Pulls, at most `fuel` times, until the stream is complete, behind the output so far.  Each pull
is fed what the one before has left alone. -/
def drain (window : Nat) :
    (fuel : Nat) → (out pending : ByteArray) → Inflater → Except InflateError ByteArray
  | 0, out, _, _ => .error (.truncated out.size)
  | fuel + 1, out, pending, s =>
    match s.pull pending window with
    | .error f => .error (.corrupt f)
    | .ok ⟨piece, tail, next⟩ =>
      let out := out ++ piece
      if next.isDone then .ok out
      else if piece.isEmpty && tail.isEmpty then .error (.truncated out.size)
      else drain window fuel out tail next

end Inflater

/-- The inflated form of a payload, made `window` bytes at a time; zero stands for no limit. -/
def inflate (payload : ByteArray) (window : Int) : Except InflateError ByteArray :=
  if !isSigned64 window then .error .unaddressableWindow
  else if window < 0 then .error .negativeWindow
  else Inflater.drain window.toNat (Inflater.pullBudget payload) .empty payload {}

end RegionSalvage.Zlib
