import PolySampler.Json.Value

/-!
Reading the text of a data file. The grammar is strict: no comments, no
trailing commas, no leading zeros, no byte order mark, nothing but blanks after
the value.
-/

namespace PolySampler.Json

def isSpace (c : Char) : Bool :=
  c = ' ' || c = '\n' || c = '\t' || c = '\r'

def skipSpace (text : List Char) : List Char :=
  text.dropWhile isSpace

/-- A part of quoted text: a character, or a 16-bit unit given by its number. -/
inductive Piece where
  | char (c : Char)
  | unit (code : Nat)

def hexDigit? (c : Char) : Option Nat :=
  if '0' ≤ c ∧ c ≤ '9' then some (c.toNat - 48)
  else if 'a' ≤ c ∧ c ≤ 'f' then some (c.toNat - 87)
  else if 'A' ≤ c ∧ c ≤ 'F' then some (c.toNat - 55)
  else none

/-- The characters with an escape of one letter. -/
def escape? : Char → Option Char
  | '"' => some '"'
  | '\\' => some '\\'
  | '/' => some '/'
  | 'b' => some '\x08'
  | 'f' => some '\x0c'
  | 'n' => some '\n'
  | 'r' => some '\r'
  | 't' => some '\t'
  | _ => none

def readPieces : List Char → Option (List Piece × List Char)
  | [] => none
  | '"' :: rest => some ([], rest)
  | '\\' :: 'u' :: a :: b :: c :: d :: rest => do
    let code ← [a, b, c, d].foldlM (fun value h => (hexDigit? h).map (value * 16 + ·)) 0
    let (pieces, rest) ← readPieces rest
    return (.unit code :: pieces, rest)
  | '\\' :: c :: rest => do
    let c ← escape? c
    let (pieces, rest) ← readPieces rest
    return (.char c :: pieces, rest)
  | c :: rest =>
    if c.toNat < 0x20 ∨ c = '\\' then none
    else do
      let (pieces, rest) ← readPieces rest
      return (.char c :: pieces, rest)

/-- The characters of quoted text. Two units that form a surrogate pair are one
character; a half without its partner is none. -/
def joinPieces : List Piece → Option (List Char)
  | [] => some []
  | .char c :: rest => (joinPieces rest).map (c :: ·)
  | .unit high :: .unit low :: rest =>
    if 0xD800 ≤ high ∧ high < 0xDC00 then
      if 0xDC00 ≤ low ∧ low < 0xE000 then
        (joinPieces rest).map
          (Char.ofNat (0x10000 + (high - 0xD800) * 0x400 + (low - 0xDC00)) :: ·)
      else none
    else if 0xDC00 ≤ high ∧ high < 0xE000 then none
    else (joinPieces (.unit low :: rest)).map (Char.ofNat high :: ·)
  | .unit code :: rest =>
    if 0xD800 ≤ code ∧ code < 0xE000 then none
    else (joinPieces rest).map (Char.ofNat code :: ·)

def readText (text : List Char) : Option (Option String × List Char) :=
  (readPieces text).map fun (pieces, rest) =>
    ((joinPieces pieces).map String.ofList, rest)

/-- Splits off leading digits; there must be one at least. -/
def readDigitRun (text : List Char) : Option (List Char × List Char) :=
  let isDigit (c : Char) : Bool := (Text.digit? c).isSome
  let digits := text.takeWhile isDigit
  if digits.isEmpty then none else some (digits, text.dropWhile isDigit)

def readNumeral (source : List Char) : Option (Numeral × List Char) := do
  let (negative, source) := match source with
    | '-' :: rest => (true, rest)
    | rest => (false, rest)
  let (whole, source) ← readDigitRun source
  if whole.head? = some '0' ∧ 1 < whole.length then none
  let (places, source) ← match source with
    | '.' :: rest => (readDigitRun rest).map fun (digits, rest) => (some digits, rest)
    | rest => some (none, rest)
  let (exponent, source) ← match source with
    | mark :: rest =>
      if mark = 'e' ∨ mark = 'E' then
        let (minus, rest) := match rest with
          | '+' :: rest => (false, rest)
          | '-' :: rest => (true, rest)
          | rest => (false, rest)
        (readDigitRun rest).map fun (digits, rest) => (some (minus, digits), rest)
      else some (none, mark :: rest)
    | [] => some (none, [])
  return ({ negative, whole, places, exponent }, source)

mutual

/-- Reads one value. Every level of nesting takes a character, so twice the
length of the text is fuel enough. -/
def readValue : Nat → List Char → Option (Json × List Char)
  | 0, _ => none
  | fuel + 1, source =>
    match skipSpace source with
    | '"' :: rest => (readText rest).map fun (value, rest) => (.text value, rest)
    | '[' :: rest =>
      match skipSpace rest with
      | ']' :: rest => some (.array [], rest)
      | rest => (readItems fuel rest).map fun (items, rest) => (.array items, rest)
    | '{' :: rest =>
      match skipSpace rest with
      | '}' :: rest => some (.object [], rest)
      | rest => (readMembers fuel rest).map fun (members, rest) => (.object members, rest)
    | 't' :: 'r' :: 'u' :: 'e' :: rest => some (.bool true, rest)
    | 'f' :: 'a' :: 'l' :: 's' :: 'e' :: rest => some (.bool false, rest)
    | 'n' :: 'u' :: 'l' :: 'l' :: rest => some (.null, rest)
    | rest => (readNumeral rest).map fun (numeral, rest) => (.number numeral, rest)

def readItems : Nat → List Char → Option (List Json × List Char)
  | 0, _ => none
  | fuel + 1, source => do
    let (item, rest) ← readValue fuel source
    match skipSpace rest with
    | ',' :: rest =>
      let (items, rest) ← readItems fuel rest
      return (item :: items, rest)
    | ']' :: rest => return ([item], rest)
    | _ => none

def readMembers : Nat → List Char → Option (List (Option String × Json) × List Char)
  | 0, _ => none
  | fuel + 1, source =>
    match skipSpace source with
    | '"' :: rest => do
      let (key, rest) ← readText rest
      match skipSpace rest with
      | ':' :: rest =>
        let (value, rest) ← readValue fuel rest
        match skipSpace rest with
        | ',' :: rest =>
          let (members, rest) ← readMembers fuel rest
          return ((key, value) :: members, rest)
        | '}' :: rest => return ([(key, value)], rest)
        | _ => none
      | _ => none
    | _ => none

end

def read? (source : String) : Option Json :=
  let chars := source.toList
  match readValue (2 * chars.length + 2) chars with
  | some (value, rest) => if (skipSpace rest).isEmpty then some value else none
  | none => none

end PolySampler.Json
