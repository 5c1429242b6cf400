/-!
White space in the sense of the Unicode property `White_Space`, trimming by
it, and cutting a text into its lines.
-/

namespace PolySampler.Text

/-- The code points with the property, as closed ranges, ascending and apart. -/
def blankRanges : List (Nat × Nat) :=
  [(0x09, 0x0D), (0x20, 0x20), (0x85, 0x85), (0xA0, 0xA0), (0x1680, 0x1680),
    (0x2000, 0x200A), (0x2028, 0x2029), (0x202F, 0x202F), (0x205F, 0x205F),
    (0x3000, 0x3000)]

def isBlank (c : Char) : Bool :=
  blankRanges.any fun r => r.1 ≤ c.toNat && c.toNat ≤ r.2

@[simp] theorem isBlank_quote : isBlank '"' = false := by decide

def trim (text : List Char) : List Char :=
  ((text.dropWhile isBlank).reverse.dropWhile isBlank).reverse

def lowerAscii (text : String) : String :=
  text.map fun c => if 'A' ≤ c ∧ c ≤ 'Z' then Char.ofNat (c.toNat + 32) else c

/-- Splits a sequence into its lines. A line ends at a line feed, and one
carriage return before the line feed belongs to the ending. What stands after
the last line feed is a line only if there is any of it. -/
def splitLines {α : Type} [DecidableEq α] (feed carriage : α) : List α → List (List α)
  | [] => []
  | c :: rest =>
    if c = feed then [] :: splitLines feed carriage rest
    else if c = carriage ∧ rest.head? = some feed then splitLines feed carriage rest
    else
      match rest, splitLines feed carriage rest with
      | _ :: _, line :: lines => (c :: line) :: lines
      | _, _ => [[c]]

def lines (text : String) : List String :=
  (splitLines '\n' '\r' text.toList).map String.ofList

end PolySampler.Text
