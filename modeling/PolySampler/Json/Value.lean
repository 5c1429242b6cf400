import PolySampler.Json.Number

/-!
Data files as trees of values. Reading a tree checks the grammar only; ranges of
numbers and well-formedness of escaped text are checked where a value is used.
-/

namespace PolySampler

/-- A value of a data file. Text is absent where its escapes name half of a
surrogate pair, which is no character. -/
inductive Json where
  | null
  | bool (value : Bool)
  | number (numeral : Json.Numeral)
  | text (value : Option String)
  | array (items : List Json)
  | object (members : List (Option String × Json))

namespace Json

mutual

def depth : Json → Nat
  | .array items => depthItems items + 1
  | .object members => depthMembers members + 1
  | _ => 0

def depthItems : List Json → Nat
  | [] => 0
  | item :: rest => max (depth item) (depthItems rest)

def depthMembers : List (Option String × Json) → Nat
  | [] => 0
  | (_, item) :: rest => max (depth item) (depthMembers rest)

end

mutual

/-- Every number in the value is in range and every text is well formed. -/
def isSound : Json → Bool
  | .number numeral => numeral.value?.isSome
  | .text value => value.isSome
  | .array items => soundItems items
  | .object members => soundMembers members
  | _ => true

def soundItems : List Json → Bool
  | [] => true
  | item :: rest => isSound item && soundItems rest

def soundMembers : List (Option String × Json) → Bool
  | [] => true
  | (key, item) :: rest => key.isSome && isSound item && soundMembers rest

end

/-- Arrays and objects may nest this deep. -/
def maxDepth : Nat := 127

/-- A value whose kind is decided only after all of it has been taken in must
be sound throughout and must not nest too deep below what encloses it. -/
def canBuffer (enclosing : Nat) (value : Json) : Bool :=
  value.isSound && value.depth + enclosing ≤ maxDepth

/-- The fields of a record with the given names. A record is an object, in which
unknown members are skipped and a known one may not be repeated, or an array
that lists the fields in order and may stop early. -/
def fields? (names : List String) : Json → Option (List (Option Json))
  | .object members =>
    if members.any (fun m => m.1.isNone) then none
    else
      names.mapM fun name =>
        match members.filter (fun m => m.1 = some name) with
        | [] => some none
        | [(_, value)] => some (some value)
        | _ => none
  | .array items =>
    if names.length < items.length then none
    else some (items.map some ++ List.replicate (names.length - items.length) none)
  | _ => none

def text? : Json → Option String
  | .text value => value
  | _ => none

def items? : Json → Option (List Json)
  | .array items => some items
  | _ => none

/-- A natural number up to `limit`, written as an integer. -/
def natural? (limit : Nat) : Json → Option Nat
  | .number numeral =>
    match numeral.value? with
    | some (.natural value) => if value ≤ limit then some value else none
    | _ => none
  | _ => none

/-- A real number in single precision; integers are welcome. -/
def single? : Json → Option Float32
  | .number numeral =>
    numeral.value?.map fun
      | .natural value => Float32.ofNat value
      | .negative magnitude => -(Float32.ofNat magnitude)
      | .real value => value.toFloat32
  | _ => none

/-- A field that must be there. -/
def required {α : Type} (read : Json → Option α) : Option Json → Option α
  | none => none
  | some value => read value

/-- A field that may be left out, but not be `null`. -/
def withDefault {α : Type} (default : α) (read : Json → Option α) : Option Json → Option α
  | none => some default
  | some value => read value

end Json

end PolySampler
