import PolySampler.Screen.Columns

/-!
What is drawn on a terminal: rows of coloured cells, one cell for each column.
A screen is put together from rows of the same width.
-/

namespace PolySampler.Screen

/-- The colour of text; `reset` is the terminal's own. -/
inductive Color where
  | reset
  | red
  | green
  | yellow
  | magenta
  | cyan
  | white
  | darkGray
  deriving DecidableEq, Repr, Inhabited

structure Cell where
  text : String := " "
  color : Color := .reset
  deriving DecidableEq, Repr, Inhabited

structure Span where
  text : String
  color : Color := .reset
  deriving DecidableEq, Repr, Inhabited

abbrev Row := List Cell

def blanks (count : Nat) : Row :=
  List.replicate count {}

/-- Places what is shown together into a row of `width` cells, of which `used`
are taken. What is wider than the row is left out, and the first thing that
does not fit ends the text. A wide character leaves its second cell empty. -/
def placeFrom (width : Nat) : Nat → List (Cluster × Color) → Row
  | used, [] => blanks (width - used)
  | used, (cluster, color) :: rest =>
    if width < cluster.columns ∨ cluster.columns = 0 then placeFrom width used rest
    else if width < used + cluster.columns then blanks (width - used)
    else
      { text := String.ofList cluster.text, color } ::
        (blanks (cluster.columns - 1) ++ placeFrom width (used + cluster.columns) rest)

def textRow (width : Nat) (spans : List Span) : Row :=
  placeFrom width 0 <| spans.flatMap fun span =>
    (clusters span.text.toList).map fun cluster => (cluster, span.color)

@[simp] theorem length_blanks (count : Nat) : (blanks count).length = count := by
  simp [blanks]

theorem length_placeFrom (width used : Nat) (text : List (Cluster × Color))
    (h : used ≤ width) : (placeFrom width used text).length = width - used := by
  induction text generalizing used with
  | nil => simp [placeFrom, length_blanks]
  | cons head rest ih =>
    obtain ⟨cluster, color⟩ := head
    unfold placeFrom
    split
    · exact ih used h
    · split
      · exact length_blanks _
      · rename_i shown fits
        simp only [List.length_cons, List.length_append, length_blanks,
          ih (used + cluster.columns) (by omega)]
        omega

@[simp] theorem length_textRow (width : Nat) (spans : List Span) :
    (textRow width spans).length = width := by
  simp [textRow, length_placeFrom]

def rule (count : Nat) (mark : Char) (color : Color) : Row :=
  List.replicate count { text := mark.toString, color }

def Row.text (row : Row) : String :=
  String.join (row.map Cell.text)

def Row.spans : Row → List Span
  | [] => []
  | cell :: rest =>
    match Row.spans rest with
    | [] => [⟨cell.text, cell.color⟩]
    | span :: others =>
      if cell.color = span.color then ⟨cell.text ++ span.text, cell.color⟩ :: others
      else ⟨cell.text, cell.color⟩ :: span :: others

def upperBorder (width : Nat) (title : String) : Row :=
  let inner := textRow (width - 2) [⟨title, .reset⟩]
  let shown := min title.length (width - 2)
  if width < 2 then rule width '┌' .reset
  else rule 1 '┌' .reset ++ inner.take shown ++ rule (width - 2 - shown) '─' .reset ++
    rule 1 '┐' .reset

def lowerBorder (width : Nat) : Row :=
  if width < 2 then rule width '└' .reset
  else rule 1 '└' .reset ++ rule (width - 2) '─' .reset ++ rule 1 '┘' .reset

def sided (width : Nat) (row : Row) : Row :=
  if width < 2 then rule width '│' .reset
  else rule 1 '│' .reset ++ row ++ rule 1 '│' .reset

def panel (width : Nat) (title : String) (rows : List Row) : List Row :=
  upperBorder width title :: (rows.map (sided width) ++ [lowerBorder width])

end PolySampler.Screen
