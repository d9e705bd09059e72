/-!
# File trees

A directory with everything below it, and the lookup of files in it by their paths.  Paths are read
from the directory itself, which has nothing above it; names are separated by slashes.
-/

namespace InlineExpect

/-- The reasons for which a file cannot be read. -/
inductive FileError where
  | notFound
  /-- A path leads on below something that is no directory. -/
  | notDirectory
  | isDirectory
  /-- The bytes of a file are not valid UTF-8. -/
  | invalidText
deriving DecidableEq, Repr

/-- The wording of a failed access. -/
def FileError.message : FileError → String
  | .notFound => "No such file or directory (os error 2)"
  | .notDirectory => "Not a directory (os error 20)"
  | .isDirectory => "Is a directory (os error 21)"
  | .invalidText => "stream did not contain valid UTF-8"

/-- A file or a directory with its entries. -/
inductive FileTree where
  | file (bytes : List UInt8)
  | directory (entries : List (String × FileTree))
deriving Repr, Inhabited

namespace Path

/-- A path followed from a directory.  An absolute path does not depend on the directory. -/
def join (directory path : String) : String :=
  if directory.isEmpty || path.startsWith "/" then path
  else if directory.endsWith "/" then directory ++ path
  else directory ++ "/" ++ path

/-- The stretches of a text before, between and behind its slashes. -/
def split : List Char → List (List Char)
  | [] => [[]]
  | c :: cs =>
    match split cs with
    | [] => [[]]
    | name :: names => if c = '/' then [] :: name :: names else (c :: name) :: names

/-- The names of a path.  A name is empty where two slashes follow each other. -/
def names (path : String) : List (List Char) := split path.toList

/-- What follows the last point of a file name, unless the point is its first character. -/
def extension? (name : String) : Option (List Char) :=
  match name.toList.reverse.span (· != '.') with
  | (after, '.' :: _ :: _) => some after.reverse
  | _ => none

end Path

namespace FileTree

/-- The entry of a directory with a name. -/
def entry? (t : FileTree) (name : String) : Option FileTree :=
  match t with
  | .directory entries => entries.lookup name
  | .file _ => none

/-- Follows some names from a place in a tree.  The directories above the place are given from the
nearest to the root, above which there is nothing to go to. -/
def follow (here : FileTree) (above : List FileTree) : List (List Char) → Except FileError FileTree
  | [] => .ok here
  | name :: names =>
    match here with
    | .file _ => .error .notDirectory
    | .directory _ =>
      if name = [] || name = ['.'] then follow here above names
      else if name = ['.', '.'] then
        match above with
        | parent :: rest => follow parent rest names
        | [] => follow (.directory []) [] names
      else
        match here.entry? (String.ofList name) with
        | some next => follow next (here :: above) names
        | none => .error .notFound

/-- The place that a path leads to.  Nothing outside the tree can be found. -/
def find (t : FileTree) (path : String) : Except FileError FileTree :=
  if path.isEmpty then .error .notFound
  else follow (if path.startsWith "/" then .directory [] else t) [] (Path.names path)

/-- Whether a path leads to a file. -/
def isFile (t : FileTree) (path : String) : Bool :=
  match t.find path with
  | .ok (.file _) => true
  | _ => false

/-- The text of the file that a path leads to. -/
def readText (t : FileTree) (path : String) : Except FileError String :=
  match t.find path with
  | .error e => .error e
  | .ok (.directory _) => .error .isDirectory
  | .ok (.file bytes) =>
    match String.fromUTF8? ⟨bytes.toArray⟩ with
    | some text => .ok text
    | none => .error .invalidText

/-- The names of the entries of the directory that a path leads to. -/
def entryNames (t : FileTree) (path : String) : Except FileError (List String) :=
  match t.find path with
  | .error e => .error e
  | .ok (.file _) => .error .notDirectory
  | .ok (.directory entries) => .ok (entries.map (·.1))

/-! ### Changing a tree -/

/-- Puts an entry in the place of another one of the same name, or behind all others. -/
def setEntry (name : String) (t : FileTree) : List (String × FileTree) → List (String × FileTree)
  | [] => [(name, t)]
  | (n, u) :: entries =>
    if n = name then (name, t) :: entries else (n, u) :: setEntry name t entries

/-- Changes what is at the place that some names lead to.  What is missing there or on the way is
taken for an empty directory, and a file on the way gives way to one. -/
def updateAt (change : FileTree → FileTree) : List String → FileTree → FileTree
  | [], t => change t
  | name :: names, t =>
    let entries := match t with
      | .directory entries => entries
      | .file _ => []
    let inner := (t.entry? name).getD (.directory [])
    .directory (setEntry name (updateAt change names inner) entries)

/-- Removes what is at the place that some names lead to. -/
def removeAt : List String → FileTree → FileTree
  | name :: names, .directory entries =>
    match names with
    | [] => .directory (entries.filter (·.1 != name))
    | _ :: _ =>
      match entries.lookup name with
      | some t => .directory (setEntry name (removeAt names t) entries)
      | none => .directory entries
  | _, t => t

/-- The place that a name leads to from another place.  A place is given by the names of the
directories around it, from the root on, and its own name. -/
def placeAfter (place : List String) (name : List Char) : List String :=
  if name = [] || name = ['.'] then place
  else if name = ['.', '.'] then place.dropLast
  else place ++ [String.ofList name]

/-- The place at the end of a path. -/
def place (path : String) : List String := (Path.names path).foldl placeAfter []

/-- Makes a directory of every place that some names pass through.  What is there already stays as
it is. -/
def makeDirectories (place : List String) (t : FileTree) : List (List Char) → FileTree
  | [] => t
  | name :: names =>
    let next := placeAfter place name
    makeDirectories next (updateAt id next t) names

/-- Makes a directory at the end of a path, and all directories on the way. -/
def makeDirectory (t : FileTree) (path : String) : FileTree :=
  makeDirectories [] t (Path.names path)

/-- Puts a file at the end of a path, and makes all directories on the way. -/
def writeFile (t : FileTree) (path : String) (bytes : List UInt8) : FileTree :=
  updateAt (fun _ => .file bytes) (place path) (makeDirectories [] t (Path.names path).dropLast)

/-- Removes what is at the end of a path. -/
def remove (t : FileTree) (path : String) : FileTree := removeAt (place path) t

end FileTree

end InlineExpect
