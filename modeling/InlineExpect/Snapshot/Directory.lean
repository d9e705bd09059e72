import InlineExpect.Environment.Installer
import InlineExpect.Snapshot.Recording

/-!
# Snapshots in a directory

An installer that finds the snapshot of each version in a file of one directory.  It has no source
from which a missing snapshot could be fetched.
-/

namespace InlineExpect.Recording

/-- The path of the snapshot of a version. -/
def path (directory : String) (v : Version) : String := Path.join directory (v.text ++ ".json")

/-- The refusal to install a version. -/
def notFetched (directory : String) (v : Version) : InstallationError :=
  ⟨v, s!"no recorded snapshot at {path directory v}"⟩

/-- Loads the snapshot of a version. -/
def loadFrom (tree : FileTree) (directory : String) (v : Version) :
    Except InstallationError EngineFactory :=
  match read tree (path directory v) with
  | .ok r => .ok r.engineFor
  | .error e => .error ⟨v, e.message⟩

/-- The installer of the snapshots in a directory of the current file tree. -/
def installer {m : Type → Type} [Monad m] [MonadStateOf FileTree m] (directory : String) :
    Installer m where
  isInstalled v := do return .ok ((← getThe FileTree).isFile (path directory v))
  install v := return .error (.failed (notFetched directory v))
  load v := do return (loadFrom (← getThe FileTree) directory v).mapError .failed

end InlineExpect.Recording
