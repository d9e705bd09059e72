import InlineExpect.Text.Blank
import InlineExpect.Assertion.Basic

/-!
# Marks

The body of a line comment makes an assertion if it consists of a keyword, and for a type also of
the expected type, with white space around them.
-/

namespace InlineExpect

open Text

/-- What a comment asserts, without the line that it is about. -/
inductive Mark where
  | type (expected : List Char)
  | error
deriving DecidableEq, Repr

/-- The kind of the assertion that a mark makes. -/
def Mark.kind : Mark → AssertionKind
  | .type _ => .type
  | .error => .error

/-- What stands after a keyword at the start of a text, white space before it aside. -/
def afterKeyword? (kind : AssertionKind) (body : List Char) : Option (List Char) :=
  kind.keyword.toList.isPrefixOf? (trimLeft body)

/-- The type that a comment expects: all that follows the keyword and white space, trimmed. -/
def expectedType? (body : List Char) : Option (List Char) :=
  match afterKeyword? .type body with
  | some (c :: cs) =>
    let expected := trim cs
    if isBlank c && !expected.isEmpty then some expected else none
  | _ => none

/-- Whether a comment expects a diagnostic: nothing but white space follows the keyword. -/
def expectsError (body : List Char) : Bool :=
  match afterKeyword? .error body with
  | some rest => rest.all isBlank
  | none => false

/-- The mark that the body of a line comment is, if it is one. -/
def Mark.ofBody? (body : List Char) : Option Mark :=
  match expectedType? body with
  | some expected => some (.type expected)
  | none => if expectsError body then some .error else none

/-- The text with which every keyword begins. -/
def marker : List Char := ['$', 'E', 'x', 'p', 'e', 'c', 't']

/-- Whether the marker occurs in a text. -/
def hasMarker : List Char → Bool
  | [] => false
  | c :: cs => marker.isPrefixOf (c :: cs) || hasMarker cs

end InlineExpect
