import InlineExpect.Json.Token

/-!
# Parsing JSON

A JSON text is the text of exactly one value.  The recursion is bounded by the number of tokens, of
which every value has at least one.
-/

namespace InlineExpect.Json

/-- A string as a value. -/
def stringValue : Option String → Value
  | some s => .string s
  | none => .unreadable

/-- An object as a value. -/
def objectValue (members : List (Option String × Value)) : Value :=
  match members.mapM fun m => m.1.map fun name => (name, m.2) with
  | some members => .object members
  | none => .unreadable

mutual

/-- Reads a value from the start of some tokens, and gives the tokens after it. -/
def value? : Nat → List Token → Option (Value × List Token)
  | 0, _ => none
  | _ + 1, .leaf v :: ts => some (v, ts)
  | _ + 1, .string s :: ts => some (stringValue s, ts)
  | _ + 1, .openArray :: .closeArray :: ts => some (.array [], ts)
  | n + 1, .openArray :: ts => (items? n ts).map fun (vs, rest) => (.array vs, rest)
  | _ + 1, .openObject :: .closeObject :: ts => some (.object [], ts)
  | n + 1, .openObject :: ts => (members? n ts).map fun (ms, rest) => (objectValue ms, rest)
  | _ + 1, _ => none

/-- Reads the items of an array, the closing bracket included. -/
def items? : Nat → List Token → Option (List Value × List Token)
  | 0, _ => none
  | n + 1, ts =>
    match value? n ts with
    | some (v, .comma :: rest) => (items? n rest).map fun (vs, rest) => (v :: vs, rest)
    | some (v, .closeArray :: rest) => some ([v], rest)
    | _ => none

/-- Reads the members of an object, the closing brace included. -/
def members? : Nat → List Token → Option (List (Option String × Value) × List Token)
  | 0, _ => none
  | n + 1, .string name :: .colon :: ts =>
    match value? n ts with
    | some (v, .comma :: rest) => (members? n rest).map fun (ms, rest) => ((name, v) :: ms, rest)
    | some (v, .closeObject :: rest) => some ([(name, v)], rest)
    | _ => none
  | _ + 1, _ => none

end

/-- The value of a JSON text. -/
def parse? (text : String) : Option Value := do
  let tokens ← Token.ofText? text.toList
  match value? tokens.length tokens with
  | some (v, []) => some v
  | _ => none

end InlineExpect.Json
