import InlineExpect.Environment.Installer
import InlineExpect.Matching.Match

/-!
# Checks without a result

The reasons for which the check of a package has no result.  An assertion that does not hold is none
of them.
-/

namespace InlineExpect

/-- The reasons for which the check of a package has no result. -/
inductive CheckError where
  | installation (e : InstallationError)
  /-- The installer broke off. -/
  | installerCrashed
  | oracle (version : Version) (e : OracleError)
  | matching (e : MatchError)
  | versions (e : VersionError)
  /-- The search for a boundary is in a state that it cannot get into. -/
  | unreachable (package : String) (detail : String)
deriving DecidableEq, Repr

namespace CheckError

/-- The wording of a check without a result. -/
def message : CheckError → String
  | .installation e => e.message
  | .installerCrashed => "the installer broke off"
  | .oracle version e => s!"TypeScript@{version.text}: {e.message}"
  | .matching e => e.message
  | .versions e => e.message
  | .unreachable package detail => s!"internal error checking {package}: {detail}"

/-- The check fails as the installer does. -/
def ofInstallFault : InstallFault → CheckError
  | .failed e => .installation e
  | .crashed => .installerCrashed

end CheckError

end InlineExpect
