import InlineExpect.Comment.Lexeme

/-!
# Scanning for comments

The comments of a source text in source order, read one lexeme after the other.  The scanner is
stated for every `Nesting`; `Comment.scan` runs it with a `DepthCounter`.
-/

namespace InlineExpect.Comment

open Text

/-- What the scanner knows at a place of the text. -/
structure ScanState (σ : Type) where
  /-- The offset of the place. -/
  pos : Nat
  /-- Whether anything but blanks stands before the place on its line. -/
  lineHasContent : Bool
  /-- Whether a slash at the place would begin a regular expression. -/
  regexAllowed : Bool
  /-- The brackets that are open at the place. -/
  nesting : σ

namespace ScanState

variable {σ : Type}

/-- Whether the line has content after a lexeme. -/
def contentAfter (lineHasContent : Bool) : Lexeme.Kind → Bool
  | .lineBreak => false
  | .blank => lineHasContent
  | .comment .. => true
  | .code => true

/-- The state after a lexeme that consists of the characters `cs`. -/
def after (s : ScanState σ) (x : Lexeme σ) (cs : List Char) : ScanState σ :=
  ⟨s.pos + byteLength cs, contentAfter s.lineHasContent x.kind, x.regexAllowed, x.nesting⟩

/-- The comment that a lexeme is, if it is one. -/
def comment? (s : ScanState σ) (x : Lexeme σ) : Option Comment :=
  match x.kind with
  | .comment form body => some ⟨form, s.pos, body, !s.lineHasContent⟩
  | _ => none

end ScanState

/-- The comments of the rest of a text. -/
def scanFrom {σ : Type} [Nesting σ] (s : ScanState σ) : List Char → List Comment
  | [] => []
  | c :: cs =>
    let x := Lexeme.ofText s.regexAllowed s.nesting c cs
    let comments := scanFrom (s.after x (c :: cs.take x.extra)) (cs.drop x.extra)
    match s.comment? x with
    | some comment => comment :: comments
    | none => comments
termination_by cs => cs.length
decreasing_by all_goals (simp only [List.length_cons, List.length_drop]; omega)

/-- The number of characters of the interpreter line that a text may begin with. -/
def shebangLength : List Char → Nat
  | '#' :: '!' :: cs => 2 + lineLength cs
  | _ => 0

/-- The comments of a text, for one way to remember the open brackets. -/
def scanWith (σ : Type) [Nesting σ] (text : List Char) : List Comment :=
  let n := shebangLength text
  scanFrom ⟨byteLength (text.take n), decide (0 < n), true, (Nesting.none : σ)⟩ (text.drop n)

/-- The comments of a text, in source order. -/
def scan (text : List Char) : List Comment := scanWith DepthCounter text

end InlineExpect.Comment
