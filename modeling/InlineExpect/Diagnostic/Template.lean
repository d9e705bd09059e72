/-!
# Message templates

The wordings of everything that this library reports.  A template has numbered places, which are
filled one after the other: what an argument brings in is text like any other when the next place is
filled.
-/

namespace InlineExpect

/-- How serious a diagnostic is. -/
inductive Category where
  | warning | error | suggestion | message
deriving DecidableEq, Repr

/-- The name of a category. -/
def Category.name : Category → String
  | .warning => "warning"
  | .error => "error"
  | .suggestion => "suggestion"
  | .message => "message"

/-- The category with a name. -/
def Category.ofName? : String → Option Category
  | "warning" => some .warning
  | "error" => some .error
  | "suggestion" => some .suggestion
  | "message" => some .message
  | _ => none

namespace Template

/-- Replaces every occurrence of a pattern that is not empty, from left to right. -/
def replaceAll (pattern replacement : List Char) : List Char → List Char
  | [] => []
  | c :: cs =>
    if pattern.isPrefixOf (c :: cs) then
      replacement ++ replaceAll pattern replacement (cs.drop (pattern.length - 1))
    else c :: replaceAll pattern replacement cs
termination_by cs => cs.length
decreasing_by all_goals (simp only [List.length_cons, List.length_drop]; omega)

/-- The place with a number, as it is written in a template. -/
def place (i : Nat) : List Char := '\x7b' :: (toString i).toList ++ ['\x7d']

/-- Fills the places from number `i` on. -/
def fillFrom (i : Nat) (text : List Char) : List (List Char) → List Char
  | [] => text
  | arg :: args => fillFrom (i + 1) (replaceAll (place i) arg text) args

/-- A template with its places filled. -/
def fill (text : String) (args : List String) : String :=
  String.ofList (fillFrom 0 text.toList (args.map String.toList))

@[simp] theorem replaceAll_nil (pattern replacement : List Char) :
    replaceAll pattern replacement [] = [] := by simp [replaceAll]

end Template

/-- A wording with its code and its category. -/
structure Template where
  code : Nat
  category : Category
  text : String
deriving DecidableEq, Repr

namespace Template

/-- The wording with its places filled. -/
def format (t : Template) (args : List String) : String := fill t.text args

/-- An expression has another type than expected. -/
def expectedType : Template :=
  ⟨9001, .error, "Expected type to be:\n  \x7b0\x7d\ngot:\n  \x7b1\x7d"⟩

/-- No expression starts on the line that an assertion is about. -/
def unmatchedAssertion : Template :=
  ⟨9002, .error, "Can not match a node to this assertion."⟩

/-- Two assertions of one kind are about the same line. -/
def duplicateAssertion : Template :=
  ⟨9003, .error, "This line has 2 \x7b0\x7d assertions."⟩

/-- A line has none of the diagnostics that are expected on it. -/
def missingError : Template :=
  ⟨9004, .error, "Expected an error on this line, but found none."⟩

/-- The checker reports a diagnostic that nothing expects. -/
def compileError : Template :=
  ⟨9005, .error, "TypeScript@\x7b0\x7d compile error: \x7b1\x7d"⟩

/-- A package fails under the newest version. -/
def failsAtNewest : Template :=
  ⟨9101, .message, "Fails at newest version TypeScript@\x7b0\x7d."⟩

/-- A package passes under one version and fails under the one before it. -/
def boundary : Template :=
  ⟨9102, .message,
    "Compiles in TypeScript@\x7b0\x7d but not in TypeScript@\x7b1\x7d. " ++
      "Consider raising the minimum declared version, or fix for \x7b1\x7d."⟩

end Template

end InlineExpect
