import InlineExpect.Boundary.Search
import InlineExpect.Environment.Cache
import InlineExpect.Version.Selection

/-!
# Checking packages

A package is a program together with the files whose assertions are checked.  It is checked under
one version by checking these files one after the other, and under several versions by a search for
the boundary.  All checks share one cache of environments.
-/

namespace InlineExpect

/-- A program whose assertions are checked. -/
structure TestPackage where
  name : String
  program : Program
  /-- The files to check, all files of the program unless given. -/
  testFileNames : Option (List String) := none

namespace TestPackage

/-- The program file with a name. -/
def testFile (p : TestPackage) (name : String) : Except OracleError SourceFile :=
  match p.program.file? name with
  | some f => .ok f
  | none => .error (.unknownFile name)

/-- The files to check, in order. -/
def testFiles (p : TestPackage) : Except OracleError (List SourceFile) :=
  match p.testFileNames with
  | none => .ok p.program.files
  | some names => names.mapM p.testFile

/-- Checks a package under one version.  The failures of the files follow each other. -/
def checkVersion (p : TestPackage) (e : Environment) : Except CheckError (List Failure) := do
  let oracle ← (e.oracle p.program).mapError (.oracle e.version)
  let files ← p.testFiles.mapError (.oracle e.version)
  let failures ← files.mapM fun f =>
    Except.mapError CheckError.matching (checkFile oracle f).run
  return failures.flatten

variable {m : Type → Type} [Monad m] [MonadStateOf EnvironmentCache m]

/-- Checks a package under one version, the environment of which comes from the cache. -/
def checkCached (i : Installer m) (p : TestPackage) (v : Version) :
    m (Except CheckError (List Failure)) := do
  match ← (EnvironmentCache.get i v).run with
  | .error fault => return .error (.ofInstallFault fault)
  | .ok e => return p.checkVersion e

/-- Checks a package under some versions. -/
def check (i : Installer m) (p : TestPackage) (versions : VersionList) :
    m (Except CheckError Outcome) := do
  let (outcome, _) ← (Search.run (p.checkCached i) p.name versions).run.run {}
  return outcome

/-- Checks a package under the versions that some options select. -/
def checkWith (i : Installer m) (p : TestPackage) (o : RunOptions) :
    m (Except CheckError Outcome) :=
  match VersionList.ofOptions o with
  | .error e => return .error (.versions e)
  | .ok versions => p.check i versions

/-- Checks some packages under the same versions. -/
def checkAll (i : Installer m) (ps : List TestPackage) (versions : VersionList) :
    m (List (Except CheckError Outcome)) :=
  ps.mapM fun p => p.check i versions

end TestPackage

end InlineExpect
