import InlineExpect.Json.Decode
import InlineExpect.Options.Basic

/-!
# Run options as JSON

Options are read from objects with the names that configuration files use.  An option that is absent
is written as `null`, and options that are not known are written beside the known ones.
-/

namespace InlineExpect

open Json

namespace CompilerOptions

/-- The names of the known options. -/
def names : List String :=
  ["target", "module", "lib", "declaration", "noEmit", "strict", "noImplicitAny",
    "strictNullChecks", "strictFunctionTypes", "noImplicitThis", "exactOptionalPropertyTypes",
    "moduleResolution", "baseUrl", "paths", "typeRoots", "types", "esModuleInterop",
    "skipLibCheck", "forceConsistentCasingInFileNames"]

/-- A list of strings as a value. -/
def stringsValue (ss : List String) : Value := .array (ss.map .string)

/-- An option as a value, `null` if it is absent. -/
def optionValue {α : Type} (write : α → Value) : Option α → Value
  | none => .null
  | some a => write a

/-- The known options as members of an object. -/
def knownMembers (o : CompilerOptions) : List (String × Value) :=
  [("target", optionValue (fun t => .string t.name) o.target),
    ("module", optionValue (fun m => .string m.name) o.moduleFormat),
    ("lib", optionValue stringsValue o.lib),
    ("declaration", optionValue .bool o.declaration),
    ("noEmit", optionValue .bool o.noEmit),
    ("strict", optionValue .bool o.strict),
    ("noImplicitAny", optionValue .bool o.noImplicitAny),
    ("strictNullChecks", optionValue .bool o.strictNullChecks),
    ("strictFunctionTypes", optionValue .bool o.strictFunctionTypes),
    ("noImplicitThis", optionValue .bool o.noImplicitThis),
    ("exactOptionalPropertyTypes", optionValue .bool o.exactOptionalPropertyTypes),
    ("moduleResolution", optionValue .string o.moduleResolution),
    ("baseUrl", optionValue .string o.baseUrl),
    ("paths", optionValue (fun ps => .object (ps.map fun p => (p.1, stringsValue p.2))) o.paths),
    ("typeRoots", optionValue stringsValue o.typeRoots),
    ("types", optionValue stringsValue o.types),
    ("esModuleInterop", optionValue .bool o.esModuleInterop),
    ("skipLibCheck", optionValue .bool o.skipLibCheck),
    ("forceConsistentCasingInFileNames",
      optionValue .bool o.forceConsistentCasingInFileNames)]

/-- Options as an object. -/
def toValue (o : CompilerOptions) : Value := .object (o.knownMembers ++ o.extra)

/-- Reads the known options from the members of an object. -/
def ofKnown? (fields : List (String × Value)) (extra : List (String × Value)) :
    Option CompilerOptions := do
  let flag := fun name => optional? fields name Value.bool?
  let strings := fun name => optional? fields name (Value.list? Value.string?)
  let text := fun name => optional? fields name Value.string?
  return {
    target := ← optional? fields "target" (Value.name? ScriptTarget.ofName?)
    moduleFormat := ← optional? fields "module" (Value.name? ModuleFormat.ofName?)
    lib := ← strings "lib"
    declaration := ← flag "declaration"
    noEmit := ← flag "noEmit"
    strict := ← flag "strict"
    noImplicitAny := ← flag "noImplicitAny"
    strictNullChecks := ← flag "strictNullChecks"
    strictFunctionTypes := ← flag "strictFunctionTypes"
    noImplicitThis := ← flag "noImplicitThis"
    exactOptionalPropertyTypes := ← flag "exactOptionalPropertyTypes"
    moduleResolution := ← text "moduleResolution"
    baseUrl := ← text "baseUrl"
    paths := ← optional? fields "paths" (Value.map? (Value.list? Value.string?))
    typeRoots := ← strings "typeRoots"
    types := ← strings "types"
    esModuleInterop := ← flag "esModuleInterop"
    skipLibCheck := ← flag "skipLibCheck"
    forceConsistentCasingInFileNames := ← flag "forceConsistentCasingInFileNames"
    extra }

/-- Reads options from an object that may be nested `depth` deep.  Members with unknown names are
kept. -/
def ofValue? (depth : Nat) : Value → Option CompilerOptions
  | .object members => do
    let known ← Value.fields? names (.object members)
    let extra ← Value.keepMembers? (depth - 1) (members.filter fun m => !names.contains m.1)
    ofKnown? known (distinctMembers extra)
  | _ => none

end CompilerOptions

namespace RunOptions

/-- The names of the options of a run. -/
def names : List String :=
  ["versions", "includeNext", "onlyTestNext", "maxVersion", "compilerOptions"]

/-- Options as an object. -/
def toValue (o : RunOptions) : Value :=
  .object
    [("versions", CompilerOptions.stringsValue o.versions),
      ("includeNext", .bool o.includeNext),
      ("onlyTestNext", .bool o.onlyTestNext),
      ("maxVersion", CompilerOptions.optionValue .string o.maxVersion),
      ("compilerOptions", o.compilerOptions.toValue)]

/-- Reads options from a record that may be nested `depth` deep.  All of its fields have
defaults. -/
def ofValue? (depth : Nat) (v : Value) : Option RunOptions := do
  let fields ← v.fields? names
  return {
    versions := ← defaulted? fields "versions" [] (Value.list? Value.string?)
    includeNext := ← defaulted? fields "includeNext" false Value.bool?
    onlyTestNext := ← defaulted? fields "onlyTestNext" false Value.bool?
    maxVersion := ← optional? fields "maxVersion" Value.string?
    compilerOptions := ←
      defaulted? fields "compilerOptions" {} (CompilerOptions.ofValue? (depth - 1)) }

/-- Reads options from a JSON text. -/
def parse? (text : String) : Option RunOptions := do
  ofValue? maxDepth (← Json.parse? text)

end RunOptions

end InlineExpect
