/-! # Splitting a range of blocks among workers

How many workers a scan deserves, and which part of the range each of them takes.  The parts follow
one another without gaps; all have the same size except the last, which takes the remainder.
-/

namespace RegionSalvage

/-- Blocks below which a range is not worth a worker of its own: 64 MB. -/
def worthwhileShard : Int := 16384

/-- No scan uses more workers than this. -/
def workerLimit : Int := 8

/-- How many workers scan `total` blocks.  A positive request is granted up to `workerLimit`;
otherwise the size of the range and the number of processors decide (two, if that is unknown). -/
def workersFor (total requested : Int) (processors : Option Int) : Int :=
  if 0 < requested then min requested workerLimit
  else
    let processors := match processors with
      | none => 2
      | some n => if n = 0 then 2 else n
    min (min (max 1 (total / worthwhileShard)) processors) workerLimit

/-- Splits `[start, stop)` into at most `workers` parts of at least `minBlocks` blocks each, where
the range is large enough for that. -/
def shards (start stop workers minBlocks : Int) : List (Int × Int) :=
  let total := stop - start
  if total ≤ 0 then []
  else
    let parts := max 1 (min workers (total / max 1 minBlocks))
    let size := total / parts
    (List.range parts.toNat).map fun (i : Nat) =>
      let lo := start + i * size
      (lo, if (i : Int) = parts - 1 then stop else lo + size)

end RegionSalvage
