import InlineExpect.Checker.Engine
import InlineExpect.Program.Basic

/-!
# Installers

An installer brings versions of the checker to the machine and loads them.  What is loaded makes
engines, one for each program.
-/

namespace InlineExpect

/-- A version of the checker that could not be installed or loaded. -/
structure InstallationError where
  version : Version
  detail : String
deriving DecidableEq, Repr

/-- The wording of a failed installation. -/
def InstallationError.message (e : InstallationError) : String :=
  s!"failed to install TypeScript@{e.version.text}: {e.detail}"

/-- How the work of an installer can end without a result. -/
inductive InstallFault where
  | failed (e : InstallationError)
  /-- The installer broke off without an answer. -/
  | crashed
deriving DecidableEq, Repr

/-- Makes engines of one version. -/
abbrev EngineFactory : Type := Program → Except OracleError Engine

/-- Installs and loads versions, with the effects of `m`. -/
structure Installer (m : Type → Type) where
  isInstalled : Version → m (Except InstallFault Bool)
  install : Version → m (Except InstallFault Unit)
  load : Version → m (Except InstallFault EngineFactory)

/-- A version that has been installed and loaded. -/
structure Environment where
  version : Version
  /-- Whether the version had to be installed for this environment. -/
  installedHere : Bool
  factory : EngineFactory
  /-- The number of environments of the same cache that were made before. -/
  serial : Nat

namespace Environment

/-- An environment in a few words. -/
def summary (e : Environment) : String :=
  s!"VersionEnvironment \x7b version: {e.version.details}, " ++
    s!"installed_here: {e.installedHere}, .. \x7d"

/-- The oracle for a program under the version of an environment. -/
def oracle (e : Environment) (p : Program) : Except OracleError (Oracle Id) :=
  (e.factory p).map fun engine => engine.oracle e.version

end Environment

/-- An oracle in a few words. -/
def Oracle.summary {m : Type → Type} (o : Oracle m) : String :=
  s!"OracleAdapter \x7b version: {o.version.details}, .. \x7d"

end InlineExpect
