import InlineExpect.Json.Parser

/-!
# Reading values

How typed data is read from JSON values.  A record is an object with the names of its fields, each
at most once and beside any other names, or an array with the fields in their order.  A map is an
object in which the last member of a name counts.  Values that are read without knowing their type
are kept in a normal form.
-/

namespace InlineExpect.Json

/-- The greatest depth to which arrays and objects may be nested. -/
def maxDepth : Nat := 127

variable {α : Type}

namespace Value

/-- Reads a string. -/
def string? : Value → Option String
  | .string s => some s
  | _ => none

/-- Reads a truth value. -/
def bool? : Value → Option Bool
  | .bool b => some b
  | _ => none

/-- Reads an integer of 32 bits without a sign. -/
def word? : Value → Option Nat
  | .number (.integer n) => if 0 ≤ n ∧ n < UInt32.size then some n.toNat else none
  | _ => none

/-- Reads a value that may be missing, for which `null` stands. -/
def nullable? (read : Value → Option α) : Value → Option (Option α)
  | .null => some none
  | v => (read v).map some

/-- Reads an array of values of one type. -/
def list? (read : Value → Option α) : Value → Option (List α)
  | .array items => items.mapM read
  | _ => none

/-- Reads a map.  Members that a later one replaces have to be readable as well. -/
def map? (read : Value → Option α) : Value → Option (List (String × α))
  | .object members =>
    (members.mapM fun m => (read m.2).map fun a => (m.1, a)).map distinctMembers
  | _ => none

/-- Reads one of several names, written as a string or as the only member of an object. -/
def name? (read : String → Option α) : Value → Option α
  | .string s => read s
  | .object [(s, .null)] => read s
  | _ => none

/-- Reads a record with the given fields: the fields that are there. -/
def fields? (names : List String) : Value → Option (List (String × Value))
  | .object members =>
    let known := members.filter fun m => names.contains m.1
    if (known.map (·.1)).Nodup then some known else none
  | .array items => if items.length ≤ names.length then some (names.zip items) else none
  | _ => none

mutual

/-- The normal form of a value whose arrays and objects are nested at most `depth` deep: every
object lists its names once and in ascending order.  A value that is deeper, or that has an
unreadable part, has none. -/
def keep? : Nat → Value → Option Value
  | _, .unreadable => none
  | 0, .array _ => none
  | 0, .object _ => none
  | depth + 1, .array items => (keepItems? depth items).map .array
  | depth + 1, .object members =>
    (keepMembers? depth members).map fun ms => .object (distinctMembers ms)
  | _, v => some v

/-- The normal forms of some values. -/
def keepItems? : Nat → List Value → Option (List Value)
  | _, [] => some []
  | depth, v :: vs => do return (← keep? depth v) :: (← keepItems? depth vs)

/-- Some members with the normal forms of their values. -/
def keepMembers? : Nat → List (String × Value) → Option (List (String × Value))
  | _, [] => some []
  | depth, (name, v) :: ms => do return (name, ← keep? depth v) :: (← keepMembers? depth ms)

end

end Value

/-- Reads a field that has to be there. -/
def required? (fields : List (String × Value)) (name : String) (read : Value → Option α) :
    Option α :=
  (fields.lookup name).bind read

/-- Reads a field that has a default. -/
def defaulted? (fields : List (String × Value)) (name : String) (default : α)
    (read : Value → Option α) : Option α :=
  match fields.lookup name with
  | some v => read v
  | none => some default

/-- Reads a field that may be missing or `null`. -/
def optional? (fields : List (String × Value)) (name : String) (read : Value → Option α) :
    Option (Option α) :=
  defaulted? fields name none (Value.nullable? read)

end InlineExpect.Json
