import InlineExpect.Options.File
import InlineExpect.Package.Check

/-!
# Fixtures

A fixture is a directory with everything that the check of a package needs: the options of the run,
the source files, and a directory of snapshots.
-/

namespace InlineExpect

/-- A package that is kept in a directory. -/
structure Fixture where
  package : TestPackage
  options : RunOptions
  /-- The directory of the snapshots. -/
  snapshots : String

namespace Fixture

/-- Whether an entry of a directory is a source file, which its extension tells. -/
def isSource (name : String) : Bool := Path.extension? name == some ['t', 's']

/-- Reads a fixture from a directory below the root of a tree, or from the root itself if the path
is empty.  Its source files are taken in the order of their names. -/
def load (tree : FileTree) (directory : String) : Except ConfigError Fixture := do
  let options ← RunOptions.read tree (Path.join directory "tsexpect.json")
  let entries ← (tree.entryNames (Path.join "." directory)).mapError
    (ConfigError.unreadable directory)
  let names := (entries.filter isSource).mergeSort fun a b => !decide (b < a)
  let (program, loaded) :=
    ({ options := options.compilerOptions } : Program).loadFiles tree directory names
  loaded.mapError (ConfigError.unreadable directory)
  return ⟨{ name := directory, program }, options, Path.join directory "snapshots"⟩

end Fixture

end InlineExpect
