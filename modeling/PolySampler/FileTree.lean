import PolySampler.FilePath

/-!
Files kept in memory, and how a path finds its way among them.
-/

namespace PolySampler

/-- The readable files: their contents by path. -/
abbrev Files := String → Option ByteArray

/-- Files and directories under a working directory, each with the names that
lead to it. What was added last comes first. -/
structure FileTree where
  files : List (List String × ByteArray) := []
  directories : List (List String) := []

namespace FileTree

/-- The names of a path, without regard to what it begins at. -/
def namesOf (path : String) : List String :=
  (FilePath.components path).filterMap fun
    | .name text => some text
    | _ => none

def addFile (t : FileTree) (path : String) (contents : ByteArray) : FileTree :=
  { t with files := (namesOf path, contents) :: t.files }

def addDirectory (t : FileTree) (path : String) : FileTree :=
  { t with directories := namesOf path :: t.directories }

def isDirectory (t : FileTree) (names : List String) : Bool :=
  names.isEmpty || t.directories.any names.isPrefixOf ||
    t.files.any fun file => names.length < file.1.length && names.isPrefixOf file.1

/-- Follows the components of a path from the names that lead to a place; every
step is taken from a directory. What lies outside cannot be reached. -/
def walk (t : FileTree) (names : List String) : List FilePath.Component → Option (List String)
  | [] => some names
  | step :: rest =>
    if t.isDirectory names then
      match step with
      | .root => none
      | .here => t.walk names rest
      | .up => if names.isEmpty then none else t.walk names.dropLast rest
      | .name text => t.walk (names ++ [text]) rest
    else none

/-- The path can only be meant for a directory. -/
def endsInDirectory (path : String) : Bool :=
  match (FilePath.splitSlash path.toList).getLast? with
  | some piece => piece = [] || piece = ['.']
  | none => true

def read? (t : FileTree) (path : String) : Option ByteArray :=
  if endsInDirectory path then none
  else
    (t.walk [] (FilePath.components path)).bind fun names =>
      (t.files.find? fun file => file.1 = names).map Prod.snd

end FileTree

end PolySampler
