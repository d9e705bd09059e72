import InlineExpect.Text.Utf8
import InlineExpect.Text.Span

/-!
# Comments

A comment of a source text, as the scanner reports it: its form, the place where it starts, its
body, and whether it is the first thing on its line.
-/

namespace InlineExpect

/-- The forms of comments. -/
inductive Comment.Form where
  /-- Two slashes and the rest of the line. -/
  | line
  /-- A slash and a star, up to the next star and slash, or unclosed up to the end of the text. -/
  | block (closed : Bool)
deriving DecidableEq, Repr

/-- A comment of a source text. -/
structure Comment where
  form : Comment.Form
  /-- The offset of the first slash. -/
  start : Nat
  /-- The comment without its delimiters. -/
  body : List Char
  /-- Whether only blanks stand before the comment on its line. -/
  firstOnLine : Bool
deriving DecidableEq, Repr

namespace Comment

/-- The comment as it is written in the source text. -/
def text (c : Comment) : List Char :=
  match c.form with
  | .line => '/' :: '/' :: c.body
  | .block true => '/' :: '*' :: c.body ++ ['*', '/']
  | .block false => '/' :: '*' :: c.body

/-- The stretch of the source text that the comment covers, delimiters included. -/
def span (c : Comment) : Span := ⟨c.start, Text.byteLength c.text⟩

/-- A comment that runs to the end of its line. -/
def isLine (c : Comment) : Bool := c.form == .line

end Comment

end InlineExpect
