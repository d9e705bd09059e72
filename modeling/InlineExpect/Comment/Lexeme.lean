import InlineExpect.Text.LineBreak
import InlineExpect.Text.Word
import InlineExpect.Comment.Basic
import InlineExpect.Comment.Nesting

/-!
# Lexemes

The scanner reads a source text just far enough to tell comments from text that only looks like
one.  A `Lexeme` is what it takes at once: a line break, a blank, a comment, or a piece of code in
which no comment can start, such as a whole string, a chunk of template text or a whole regular
expression.  Each function here says how many characters a piece has.
-/

namespace InlineExpect.Comment

open Text

/-- The number of characters of a quoted string after its opening quote, the closing one included.
A line break that is not escaped ends the string unclosed. -/
def quotedLength (quote : Char) : List Char → Nat
  | [] => 0
  | c :: cs =>
    if c = quote then 1
    else if c = '\\' then
      match cs with
      | [] => 1
      | '\r' :: '\n' :: rest => 3 + quotedLength quote rest
      | _ :: rest => 2 + quotedLength quote rest
    else if isLineBreak c then 0
    else 1 + quotedLength quote cs

/-- How a chunk of template text ends. -/
inductive TemplateEnd where
  /-- With the closing backquote. -/
  | closed
  /-- With the opening of a substitution. -/
  | substitution
  /-- With the text. -/
  | unfinished
deriving DecidableEq, Repr

/-- The number of characters of a chunk of template text, its end included, and how it ends. -/
def templateChunk : List Char → Nat × TemplateEnd
  | [] => (0, .unfinished)
  | c :: cs =>
    if c = '\x60' then (1, .closed)
    else if c = '$' then
      match cs with
      | '\x7b' :: _ => (2, .substitution)
      | rest => let (n, ending) := templateChunk rest; (1 + n, ending)
    else if c = '\\' then
      match cs with
      | [] => (1, .unfinished)
      | _ :: rest => let (n, ending) := templateChunk rest; (2 + n, ending)
    else let (n, ending) := templateChunk cs; (1 + n, ending)

/-- The number of characters of a regular expression after its opening slash, flags included.  A
slash inside a character class does not close it, and it never passes a line break. -/
def regexLength (inClass : Bool) : List Char → Nat
  | [] => 0
  | c :: cs =>
    if isLineBreak c then 0
    else if c = '\\' then
      match cs with
      | [] => 1
      | d :: rest => if isLineBreak d then 1 else 2 + regexLength inClass rest
    else if c = '[' then 1 + regexLength true cs
    else if c = ']' then 1 + regexLength false cs
    else if c = '/' && !inClass then 1 + wordLength cs
    else 1 + regexLength inClass cs

/-- The number of characters of the body of a block comment, and whether the comment is closed. -/
def blockLength : List Char → Nat × Bool
  | [] => (0, false)
  | '*' :: '/' :: _ => (0, true)
  | _ :: cs => let (n, closed) := blockLength cs; (1 + n, closed)

/-- The words after which a slash begins a regular expression and not a division. -/
def expressionKeywords : List String :=
  ["return", "typeof", "instanceof", "in", "of", "new", "delete", "void", "throw", "case", "do",
    "else", "yield", "await"]

/-- Whether an expression has to follow a word. -/
def isKeywordBeforeExpression (word : List Char) : Bool :=
  expressionKeywords.any fun keyword => keyword.toList == word

/-- What the scanner has read, as far as it matters for what follows. -/
inductive Lexeme.Kind where
  | lineBreak
  | blank
  | comment (form : Form) (body : List Char)
  | code
deriving DecidableEq, Repr

/-- The piece at the start of a text. -/
structure Lexeme (σ : Type) where
  kind : Lexeme.Kind
  /-- The number of its characters after the first. -/
  extra : Nat
  /-- Whether a slash after it would begin a regular expression. -/
  regexAllowed : Bool
  /-- The brackets that are open after it. -/
  nesting : σ

namespace Lexeme

variable {σ : Type}

/-- A piece that begins with a slash: a comment, a regular expression or a division. -/
def slash (regexAllowed : Bool) (nesting : σ) (cs : List Char) : Lexeme σ :=
  match cs with
  | '/' :: rest =>
    let n := lineLength rest
    ⟨.comment .line (rest.take n), 1 + n, regexAllowed, nesting⟩
  | '*' :: rest =>
    let (n, closed) := blockLength rest
    ⟨.comment (.block closed) (rest.take n), 1 + n + (if closed then 2 else 0), regexAllowed,
      nesting⟩
  | rest =>
    if regexAllowed then ⟨.code, regexLength false rest, false, nesting⟩
    else ⟨.code, 0, true, nesting⟩

/-- A piece whose first character is followed by template text. -/
def template [Nesting σ] (regexAllowed : Bool) (nesting : σ) (cs : List Char) : Lexeme σ :=
  match templateChunk cs with
  | (n, .closed) => ⟨.code, n, false, nesting⟩
  | (n, .substitution) => ⟨.code, n, true, Nesting.openSubstitution nesting⟩
  | (n, .unfinished) => ⟨.code, n, regexAllowed, nesting⟩

/-- A closing brace, and the template text that goes on after a substitution. -/
def closeBrace [Nesting σ] (regexAllowed : Bool) (nesting : σ) (cs : List Char) : Lexeme σ :=
  match Nesting.close nesting with
  | (outer, true) => template regexAllowed outer cs
  | (outer, false) => ⟨.code, 0, false, outer⟩

/-- A name, a keyword or a number. -/
def word (nesting : σ) (c : Char) (cs : List Char) : Lexeme σ :=
  let n := wordLength cs
  ⟨.code, n, isKeywordBeforeExpression (c :: cs.take n), nesting⟩

/-- The piece at the start of the text `c :: cs`.  A postfix `!`, a `++` and a `--` leave open
whether an expression has ended. -/
def ofText [Nesting σ] (regexAllowed : Bool) (nesting : σ) (c : Char) (cs : List Char) :
    Lexeme σ :=
  if isLineBreak c then ⟨.lineBreak, 0, regexAllowed, nesting⟩
  else if isInlineBlank c then ⟨.blank, 0, regexAllowed, nesting⟩
  else if c = '/' then slash regexAllowed nesting cs
  else if c = '\x27' || c = '\x22' then ⟨.code, quotedLength c cs, false, nesting⟩
  else if c = '\x60' then template regexAllowed nesting cs
  else if c = '\x7b' then ⟨.code, 0, true, Nesting.openGroup nesting⟩
  else if c = '\x7d' then closeBrace regexAllowed nesting cs
  else if c = ')' || c = ']' then ⟨.code, 0, false, nesting⟩
  else if c = '!' && cs.head? != some '=' then ⟨.code, 0, regexAllowed, nesting⟩
  else if (c = '+' || c = '-') && cs.head? == some c then ⟨.code, 1, regexAllowed, nesting⟩
  else if isWordPart c then word nesting c cs
  else ⟨.code, 0, true, nesting⟩

end Lexeme

end InlineExpect.Comment
