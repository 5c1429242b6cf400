import PolySampler.Screen.Row

/-!
The axes of the spectrum: levels up the left side, frequencies along the bottom.
-/

namespace PolySampler.Screen

inductive Alignment where
  | left
  | center
  | right
  deriving DecidableEq, Repr

def Alignment.indent (alignment : Alignment) (width length : Nat) : Nat :=
  match alignment with
  | .left => 0
  | .center => (width - length) / 2
  | .right => width - length

/-- How much of a text is cut off at its beginning because the field is too
narrow. -/
def Alignment.cut (alignment : Alignment) (width length : Nat) : Nat :=
  match alignment with
  | .left => 0
  | .center => (length - width) / 2
  | .right => length - width

def field (width : Nat) (alignment : Alignment) (label : String) : Row :=
  let shown := label.toList.drop (alignment.cut width label.length)
  blanks (alignment.indent width label.length) ++
    textRow (width - alignment.indent width label.length) [⟨String.ofList shown, .reset⟩]

def levelLabels : List String :=
  ["-100", "-60", "-20", "0"]

/-- The columns of the level labels: four, but at most a third of the width. -/
def labelWidth (width : Nat) : Nat :=
  min 4 (width / 3)

/-- The columns of the axis beside the level labels. A very narrow chart has
none. -/
def axisWidth (width : Nat) : Nat :=
  if labelWidth width + 1 < width then 1 else 0

def plotWidth (width : Nat) : Nat :=
  width - labelWidth width - axisWidth width

/-- The label beside the row that is `height` rows above the lowest of the
plot's `rows`: the first label stands beside the lowest row, the last beside the
highest, and the others at thirds between them. -/
def levelLabelAt (rows height : Nat) : String :=
  let placed := levelLabels.zipIdx.filter fun (_, index) =>
    index * (rows - 1) / (levelLabels.length - 1) = height
  (placed.getLast?.map Prod.fst).getD ""

def plotRow (width rows height : Nat) : Row :=
  let label := field (labelWidth width - (1 - axisWidth width)) .left (levelLabelAt rows height)
  let gap := blanks (1 - axisWidth width)
  label ++ gap ++ rule (axisWidth width) '│' .darkGray ++ blanks (plotWidth width)

def axisRow (width : Nat) : Row :=
  blanks (labelWidth width) ++ rule (axisWidth width) '└' .darkGray ++
    rule (plotWidth width) '─' .darkGray

/-- The row of the frequency labels: the first ends under the axis, the others
mark quarters of the plot. -/
def frequencyRow (width : Nat) : Row :=
  let plot := plotWidth width
  let quarter := plot / 4
  let row := field (labelWidth width + axisWidth width) .right "20" ++ blanks (quarter + 1) ++
    field (quarter - 1) .center "200" ++ blanks 1 ++ field (quarter - 1) .center "2k" ++
    blanks (plot - 4 * quarter) ++ field quarter .right "20k"
  row.take width

/-- The chart inside its panel: the plot, and below it the axis and the labels
as far as there is room. -/
def chart (width height : Nat) : List Row :=
  let below :=
    if height < 2 then []
    else if height < 3 then [frequencyRow width]
    else [axisRow width, frequencyRow width]
  let rows := height - below.length
  ((List.range rows).map fun row => plotRow width rows (rows - 1 - row)) ++ below

end PolySampler.Screen
