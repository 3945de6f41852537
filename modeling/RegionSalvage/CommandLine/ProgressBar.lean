import RegionSalvage.Scan.Status

/-! # The progress bar

While an image is scanned, one line on the terminal shows how far the scan is.  Every notice draws
the line anew over the one before; blanks cover what a longer line would leave behind.
-/

namespace RegionSalvage

/-- Puts commas between groups of three digits, given from the last digit to the first. -/
def groupThousands : List Char → List Char
  | a :: b :: c :: d :: rest => a :: b :: c :: ',' :: groupThousands (d :: rest)
  | digits => digits

/-- An integer with commas between groups of three digits. -/
def groupedInteger (n : Int) : String :=
  let digits := groupThousands (toString n.natAbs).toList.reverse
  (if n < 0 then "-" else "") ++ String.ofList digits.reverse

/-- Fills a text up to `width` characters with blanks in front. -/
def padLeft (width : Nat) (s : String) : String :=
  String.ofList (List.replicate (width - s.length) ' ') ++ s

namespace ProgressBar

def width : Nat := 30

/-- How many characters of the bar are filled at a percentage. -/
def filled (percent : Binary64) : Nat :=
  (((percent.scale width 1).scale 1 100).truncate?.getD 0).toNat

def bar (percent : Binary64) : String :=
  String.ofList
    (List.replicate (filled percent) '█' ++ List.replicate (width - filled percent) '░')

/-- The line for a progress that has the given percentage. -/
def line (p : ScanStatus) (percent : Binary64) : String :=
  let blockText := groupedInteger p.currentBlock
  let percentText := padLeft 5 percent.toTenths
  let barText := bar percent
  let hits := p.hits
  s!"\r  [{barText}] {percentText}%  block {blockText}  hits: {hits}"

/-- What notices draw after a line of `previous` characters. -/
def drawAfter (previous : Nat) : List ScanStatus → String
  | [] => ""
  | notice :: rest =>
    match notice.percent? with
    | none => drawAfter previous rest
    | some percent =>
      let text := line notice percent
      text ++ String.ofList (List.replicate (previous - text.length) ' ') ++
        drawAfter text.length rest

def draw (notices : List ScanStatus) : String := drawAfter 0 notices

end ProgressBar

end RegionSalvage
