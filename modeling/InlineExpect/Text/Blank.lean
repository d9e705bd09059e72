/-!
# White space

The characters with the Unicode property `White_Space`, and the trimming of texts by it.
-/

namespace InlineExpect.Text

/-- The characters with the Unicode property `White_Space`. -/
def isBlank (c : Char) : Bool :=
  ('\t' ≤ c && c ≤ '\r') || c == ' ' || c == '\u0085' || c == '\u00a0' || c == '\u1680' ||
    ('\u2000' ≤ c && c ≤ '\u200a') || c == '\u2028' || c == '\u2029' || c == '\u202f' ||
    c == '\u205f' || c == '\u3000'

/-- A text without the white space at its start. -/
def trimLeft (cs : List Char) : List Char := cs.dropWhile isBlank

/-- A text without the white space at its end. -/
def trimRight (cs : List Char) : List Char := (cs.reverse.dropWhile isBlank).reverse

/-- A text without the white space at its ends. -/
def trim (cs : List Char) : List Char := trimRight (trimLeft cs)

end InlineExpect.Text
