import PolySampler.Text.Blank

/-!
File paths as text. A path is compared by its components: repeated slashes and
dots in the middle do not count, a dot at the very front and pairs of dots do.
-/

namespace PolySampler.FilePath

inductive Component where
  | root
  | here
  | up
  | name (text : String)
  deriving DecidableEq, Repr

def splitSlash : List Char → List (List Char)
  | [] => [[]]
  | c :: rest =>
    if c = '/' then [] :: splitSlash rest
    else
      match splitSlash rest with
      | piece :: pieces => (c :: piece) :: pieces
      | [] => [[c]]

/-- The component a piece stands for behind the front of a path. -/
def inner? (piece : List Char) : Option Component :=
  if piece = [] ∨ piece = ['.'] then none
  else if piece = ['.', '.'] then some .up
  else some (.name (String.ofList piece))

def components (path : String) : List Component :=
  let pieces := splitSlash path.toList
  let front :=
    if path.toList.head? = some '/' then [Component.root]
    else if pieces.head? = some ['.'] then [.here]
    else []
  front ++ pieces.filterMap inner?

def same (a b : String) : Bool :=
  components a = components b

def fileName? (path : String) : Option String :=
  match (components path).getLast? with
  | some (.name text) => some text
  | _ => none

/-- Splits a file name at its last dot. A dot at the front does not count. -/
def splitName (name : String) : String × Option String :=
  let chars := name.toList
  let extension := (chars.reverse.takeWhile (· ≠ '.')).reverse
  let stem := chars.take (chars.length - extension.length - 1)
  if extension.length = chars.length ∨ stem = [] then (name, none)
  else (String.ofList stem, some (String.ofList extension))

def extension? (path : String) : Option String :=
  (fileName? path).bind fun name => (splitName name).2

def stem? (path : String) : Option String :=
  (fileName? path).map fun name => (splitName name).1

/-- Takes trailing slashes and pieces that are a single dot off the end of a
path, as long as something is left in front of them. The text is reversed. -/
def trimEnd : List Char → List Char
  | '/' :: c :: rest => trimEnd (c :: rest)
  | '.' :: '/' :: c :: rest => trimEnd ('/' :: c :: rest)
  | ['.', '/'] => ['/']
  | text => text

/-- The path without its last component; absent for the root and for no path at
all. -/
def parent? (path : String) : Option String :=
  match (components path).getLast? with
  | none | some .root => none
  | some _ =>
    let shortened := (trimEnd path.toList.reverse).dropWhile (· ≠ '/')
    some (String.ofList (trimEnd shortened).reverse)

def join (base path : String) : String :=
  if path.toList.head? = some '/' then path
  else if base.isEmpty ∨ base.toList.getLast? = some '/' then base ++ path
  else base ++ "/" ++ path

end PolySampler.FilePath
