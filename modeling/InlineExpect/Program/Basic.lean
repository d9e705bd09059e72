import InlineExpect.FileTree.Basic
import InlineExpect.Options.Basic

/-!
# Programs

The files that are given to a checker, in a fixed order, and the options to check them with.
-/

namespace InlineExpect

/-- A source file. -/
structure SourceFile where
  name : String
  text : String
deriving DecidableEq, Repr, Inhabited

/-- Whether a file holds nothing but declarations, which its name tells. -/
def SourceFile.isDeclaration (f : SourceFile) : Bool :=
  f.name.endsWith ".d.ts" || f.name.endsWith ".d.mts" || f.name.endsWith ".d.cts"

/-- The files and the options of a check. -/
structure Program where
  files : List SourceFile := []
  options : CompilerOptions := {}
deriving Inhabited

namespace Program

/-- Puts a file in the place of another one of the same name, or behind all others. -/
def putFile (f : SourceFile) : List SourceFile → List SourceFile
  | [] => [f]
  | g :: gs => if g.name = f.name then f :: gs else g :: putFile f gs

/-- Adds a file.  A file of the same name is replaced in its place. -/
def addFile (p : Program) (name text : String) : Program :=
  { p with files := putFile ⟨name, text⟩ p.files }

/-- The file with a name. -/
def file? (p : Program) (name : String) : Option SourceFile := p.files.find? (·.name == name)

/-- Adds files that are read from a directory.  The first that cannot be read ends the reading; the
files before it stay. -/
def loadFiles (p : Program) (tree : FileTree) (directory : String) :
    List String → Program × Except FileError Unit
  | [] => (p, .ok ())
  | name :: names =>
    match tree.readText (Path.join directory name) with
    | .ok text => (p.addFile name text).loadFiles tree directory names
    | .error e => (p, .error e)

end Program

end InlineExpect
