import InlineExpect.Json.Value

/-!
# Run options

The options of one run: the versions of the checker under which a package is checked, and the
compiler options that every version is given unchanged.  Compiler options that are not known here
are carried along.
-/

namespace InlineExpect

/-- The language level of emitted code. -/
inductive ScriptTarget where
  | es3 | es5 | es2015 | es2016 | es2017 | es2018 | es2019 | es2020 | es2021 | es2022 | esNext
deriving DecidableEq, Repr

/-- The module system of emitted code. -/
inductive ModuleFormat where
  | none | commonJS | amd | umd | es2015 | esNext | node16 | nodeNext
deriving DecidableEq, Repr

namespace ScriptTarget

/-- The name under which a target is written. -/
def name : ScriptTarget → String
  | .es3 => "ES3"
  | .es5 => "ES5"
  | .es2015 => "ES2015"
  | .es2016 => "ES2016"
  | .es2017 => "ES2017"
  | .es2018 => "ES2018"
  | .es2019 => "ES2019"
  | .es2020 => "ES2020"
  | .es2021 => "ES2021"
  | .es2022 => "ES2022"
  | .esNext => "ESNext"

/-- The target with a name or an alias. -/
def ofName? : String → Option ScriptTarget
  | "ES3" | "es3" => some .es3
  | "ES5" | "es5" => some .es5
  | "ES2015" | "es2015" | "ES6" | "es6" => some .es2015
  | "ES2016" | "es2016" => some .es2016
  | "ES2017" | "es2017" => some .es2017
  | "ES2018" | "es2018" => some .es2018
  | "ES2019" | "es2019" => some .es2019
  | "ES2020" | "es2020" => some .es2020
  | "ES2021" | "es2021" => some .es2021
  | "ES2022" | "es2022" => some .es2022
  | "ESNext" | "esnext" => some .esNext
  | _ => none

theorem ofName?_name (t : ScriptTarget) : ofName? t.name = some t := by cases t <;> rfl

end ScriptTarget

namespace ModuleFormat

/-- The name under which a module format is written. -/
def name : ModuleFormat → String
  | .none => "None"
  | .commonJS => "CommonJS"
  | .amd => "AMD"
  | .umd => "UMD"
  | .es2015 => "ES2015"
  | .esNext => "ESNext"
  | .node16 => "Node16"
  | .nodeNext => "NodeNext"

/-- The module format with a name or an alias. -/
def ofName? : String → Option ModuleFormat
  | "None" | "none" => some .none
  | "CommonJS" | "commonjs" => some .commonJS
  | "AMD" | "amd" => some .amd
  | "UMD" | "umd" => some .umd
  | "ES2015" | "es2015" | "es6" => some .es2015
  | "ESNext" | "esnext" => some .esNext
  | "Node16" | "node16" => some .node16
  | "NodeNext" | "nodenext" => some .nodeNext
  | _ => Option.none

theorem ofName?_name (m : ModuleFormat) : ofName? m.name = some m := by cases m <;> rfl

end ModuleFormat

/-- The options of a checker.  An option that is not set is absent. -/
structure CompilerOptions where
  target : Option ScriptTarget := none
  moduleFormat : Option ModuleFormat := none
  lib : Option (List String) := none
  declaration : Option Bool := none
  noEmit : Option Bool := none
  strict : Option Bool := none
  noImplicitAny : Option Bool := none
  strictNullChecks : Option Bool := none
  strictFunctionTypes : Option Bool := none
  noImplicitThis : Option Bool := none
  exactOptionalPropertyTypes : Option Bool := none
  moduleResolution : Option String := none
  baseUrl : Option String := none
  /-- Lists of paths by name, in ascending order of the names. -/
  paths : Option (List (String × List String)) := none
  typeRoots : Option (List String) := none
  types : Option (List String) := none
  esModuleInterop : Option Bool := none
  skipLibCheck : Option Bool := none
  forceConsistentCasingInFileNames : Option Bool := none
  /-- All other options, in ascending order of their names. -/
  extra : List (String × Json.Value) := []
deriving BEq, Repr, Inhabited

/-- The options of one run. -/
structure RunOptions where
  /-- The declared versions, oldest first. -/
  versions : List String := []
  /-- Whether the unreleased version is checked as well. -/
  includeNext : Bool := false
  /-- Whether the unreleased version is the only one to be checked. -/
  onlyTestNext : Bool := false
  /-- The newest version that the package supports. -/
  maxVersion : Option String := none
  compilerOptions : CompilerOptions := {}
deriving BEq, Repr, Inhabited

/-- Whether nothing is set. -/
def RunOptions.isDefault (o : RunOptions) : Bool := o == {}

end InlineExpect
