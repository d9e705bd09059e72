import InlineExpect.FileTree.Basic
import InlineExpect.Options.Json

/-!
# Options in a file
-/

namespace InlineExpect

/-- The reasons for which a configuration cannot be read. -/
inductive ConfigError where
  | unreadable (path : String) (cause : FileError)
  /-- The text of a file is not the JSON text of run options. -/
  | json
deriving DecidableEq, Repr

/-- The wording of a configuration that cannot be read. -/
def ConfigError.message : ConfigError → String
  | .unreadable path cause => s!"failed to read {path}: {cause.message}"
  | .json => "invalid configuration"

namespace RunOptions

/-- The options that a JSON text holds. -/
def ofText (text : String) : Except ConfigError RunOptions :=
  match parse? text with
  | some o => .ok o
  | none => .error .json

/-- The options that a file holds. -/
def read (tree : FileTree) (path : String) : Except ConfigError RunOptions :=
  match tree.readText path with
  | .error e => .error (.unreadable path e)
  | .ok text => ofText text

end RunOptions

end InlineExpect
