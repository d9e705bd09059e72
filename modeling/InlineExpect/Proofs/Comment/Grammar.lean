import Mathlib
import InlineExpect.Comment.Basic
import InlineExpect.Comment.Lexeme

/-!
# Well-formed code

A grammar of source code, as far as comments matter: words, punctuation, literals, groups in braces,
templates whose substitutions hold code again, blanks, line breaks and comments.  The grammar knows
of each comment where it stands and whether it is the first thing on its line, so that it can be
compared with what the scanner finds.

An element may need something between itself and the next one to stay what it is.  A word must not
be followed by a word character, for example.  `Element.MayPrecede` says so for the character that
follows, and nothing is asked of elements with a blank between them.
-/

namespace InlineExpect.Comment

open Text

/-! ### Literals -/

/-- A character of a literal, as it is or after a backslash. -/
inductive Piece where
  | plain (c : Char)
  | escaped (c : Char)
deriving DecidableEq, Repr

/-- A piece as it is written. -/
def Piece.render : Piece → List Char
  | .plain c => [c]
  | .escaped c => ['\\', c]

/-- Pieces as they are written. -/
def renderPieces (ps : List Piece) : List Char := ps.flatMap Piece.render

/-- A piece of template text.  The backquote and the backslash are always escaped. -/
def Piece.IsTemplateText : Piece → Prop
  | .plain c => c ≠ '\x60' ∧ c ≠ '\\'
  | .escaped _ => True

/-- Template text between substitutions.  It does not open a substitution. -/
structure IsChunk (ps : List Piece) : Prop where
  text : ∀ p ∈ ps, p.IsTemplateText
  no_opening : ps.IsChain fun p q => ¬ (p = .plain '$' ∧ q = .plain '\x7b')

/-- A part of a quoted string: a piece, or a line break of two characters after a backslash. -/
inductive QuotedItem where
  | piece (p : Piece)
  | continuation
deriving DecidableEq, Repr

namespace QuotedItem

/-- A part of a string as it is written. -/
def render : QuotedItem → List Char
  | .piece p => p.render
  | .continuation => ['\\', '\r', '\n']

/-- A part of a string does not end the string. -/
def WellFormed (quote : Char) : QuotedItem → Prop
  | .piece (.plain c) => c ≠ quote ∧ c ≠ '\\' ∧ isLineBreak c = false
  | .piece (.escaped _) => True
  | .continuation => True

end QuotedItem

/-- A part of a regular expression: a piece or a character class. -/
inductive RegexItem where
  | piece (p : Piece)
  | charClass (ps : List Piece)
deriving DecidableEq, Repr

namespace RegexItem

/-- A part of a regular expression as it is written. -/
def render : RegexItem → List Char
  | .piece p => p.render
  | .charClass ps => '[' :: (renderPieces ps ++ [']'])

/-- A piece outside of classes does not open a class or end the expression. -/
def IsAtom : Piece → Prop
  | .plain c => isLineBreak c = false ∧ c ≠ '\\' ∧ c ≠ '[' ∧ c ≠ '/'
  | .escaped c => isLineBreak c = false

/-- A piece inside a class does not close the class.  It may be a slash. -/
def IsClassMember : Piece → Prop
  | .plain c => isLineBreak c = false ∧ c ≠ '\\' ∧ c ≠ ']'
  | .escaped c => isLineBreak c = false

/-- A part of a regular expression does not end the expression. -/
def WellFormed : RegexItem → Prop
  | .piece p => IsAtom p
  | .charClass ps => ∀ p ∈ ps, IsClassMember p

end RegexItem

/-! ### Code -/

mutual

/-- An element of code. -/
inductive Element where
  /-- A name, a keyword or a number. -/
  | word (c : Char) (cs : List Char)
  /-- Two plus or two minus signs. -/
  | double (c : Char)
  | punctuation (c : Char)
  | quoted (quote : Char) (items : List QuotedItem)
  | template (head : List Piece) (parts : Substitutions)
  /-- Code in braces. -/
  | group (body : Code)
  | lineBreak (c : Char)
  | blank (c : Char)
  /-- A comment up to the end of the line, with the line break. -/
  | lineComment (body : List Char) (lineBreak : Char)
  | blockComment (body : List Char)
  | regex (items : List RegexItem) (flags : List Char)
  | division

/-- Elements one after the other. -/
inductive Code where
  | nil
  | cons (e : Element) (rest : Code)

/-- The substitutions of a template, each with the template text that follows it. -/
inductive Substitutions where
  | nil
  | cons (code : Code) (chunk : List Piece) (rest : Substitutions)

end

mutual

/-- An element as it is written. -/
def Element.render : Element → List Char
  | .word c cs => c :: cs
  | .double c => [c, c]
  | .punctuation c => [c]
  | .quoted quote items => quote :: (items.flatMap QuotedItem.render ++ [quote])
  | .template head parts => '\x60' :: (renderPieces head ++ parts.render)
  | .group body => '\x7b' :: (body.render ++ ['\x7d'])
  | .lineBreak c => [c]
  | .blank c => [c]
  | .lineComment body lineBreak => '/' :: '/' :: (body ++ [lineBreak])
  | .blockComment body => '/' :: '*' :: (body ++ ['*', '/'])
  | .regex items flags => '/' :: (items.flatMap RegexItem.render ++ '/' :: flags)
  | .division => ['/']

/-- Code as it is written. -/
def Code.render : Code → List Char
  | .nil => []
  | .cons e rest => e.render ++ rest.render

/-- Substitutions as they are written, with the backquote that ends their template. -/
def Substitutions.render : Substitutions → List Char
  | .nil => ['\x60']
  | .cons code chunk rest =>
    '$' :: '\x7b' :: (code.render ++ '\x7d' :: (renderPieces chunk ++ rest.render))

end

/-! ### Well-formed code -/

namespace Element

/-- Whether a slash after an element would begin a regular expression, given whether one before it
would. -/
def regexAfter (allowed : Bool) : Element → Bool
  | .word c cs => isKeywordBeforeExpression (c :: cs)
  | .punctuation c => if c = ')' ∨ c = ']' then false else if c = '!' then allowed else true
  | .quoted .. | .template .. | .group .. | .regex .. => false
  | .double _ | .lineBreak _ | .blank _ | .lineComment .. | .blockComment _ => allowed
  | .division => true

/-- An element is not changed by the character that follows. -/
def MayPrecede (next : Char) : Element → Prop
  | .word .. | .regex .. => isWordPart next = false
  | .punctuation c => (c = '+' ∨ c = '-') → next ≠ c
  | .division => next ≠ '/' ∧ next ≠ '*'
  | _ => True

end Element

/-- A character that stands for itself. -/
def IsPunctuation (c : Char) : Prop :=
  isWordPart c = false ∧ isInlineBlank c = false ∧ isLineBreak c = false ∧
    c ∉ ['/', '\x27', '\x22', '\x60', '\x7b', '\x7d']

mutual

/-- An element is well formed at a place where a slash would begin a regular expression or not. -/
def Element.WellFormed (allowed : Bool) : Element → Prop
  | .word c cs => ∀ d ∈ c :: cs, isWordPart d = true
  | .double c => c = '+' ∨ c = '-'
  | .punctuation c => IsPunctuation c
  | .quoted quote items => (quote = '\x27' ∨ quote = '\x22') ∧ ∀ i ∈ items, i.WellFormed quote
  | .template head parts => IsChunk head ∧ parts.WellFormed
  | .group body => body.WellFormed true
  | .lineBreak c => isLineBreak c = true
  | .blank c => isInlineBlank c = true
  | .lineComment body lineBreak =>
    (∀ c ∈ body, isLineBreak c = false) ∧ isLineBreak lineBreak = true
  | .blockComment body => ¬ ['*', '/'] <:+: body
  | .regex items flags => allowed = true ∧ items ≠ [] ∧ items.head? ≠ some (.piece (.plain '*')) ∧
    (∀ i ∈ items, i.WellFormed) ∧ ∀ c ∈ flags, isWordPart c = true
  | .division => allowed = false

/-- Code is well formed if each element is, and none is changed by what follows it. -/
def Code.WellFormed (allowed : Bool) : Code → Prop
  | .nil => True
  | .cons e rest => e.WellFormed allowed ∧ (∀ c ∈ rest.render.head?, e.MayPrecede c) ∧
    rest.WellFormed (e.regexAfter allowed)

/-- Substitutions are well formed if their code is, and the text between them. -/
def Substitutions.WellFormed : Substitutions → Prop
  | .nil => True
  | .cons code chunk rest => code.WellFormed true ∧ IsChunk chunk ∧ rest.WellFormed

end

/-! ### Deciding well-formedness

Quantifiers over the characters of a list are decided along the list.  Left to itself, the search
for instances would decide them by going through all characters there are. -/

instance : DecidablePred Piece.IsTemplateText
  | .plain c => inferInstanceAs (Decidable (c ≠ '\x60' ∧ c ≠ '\\'))
  | .escaped _ => inferInstanceAs (Decidable True)

instance (ps : List Piece) : Decidable (IsChunk ps) :=
  decidable_of_iff ((∀ p ∈ ps, p.IsTemplateText) ∧
      ps.IsChain fun p q => ¬ (p = .plain '$' ∧ q = .plain '\x7b'))
    ⟨fun h => ⟨h.1, h.2⟩, fun h => ⟨h.text, h.no_opening⟩⟩

instance (quote : Char) : DecidablePred (QuotedItem.WellFormed quote)
  | .piece (.plain c) => inferInstanceAs (Decidable (c ≠ quote ∧ c ≠ '\\' ∧ isLineBreak c = false))
  | .piece (.escaped _) => inferInstanceAs (Decidable True)
  | .continuation => inferInstanceAs (Decidable True)

instance : DecidablePred RegexItem.IsAtom
  | .plain c =>
    inferInstanceAs (Decidable (isLineBreak c = false ∧ c ≠ '\\' ∧ c ≠ '[' ∧ c ≠ '/'))
  | .escaped c => inferInstanceAs (Decidable (isLineBreak c = false))

instance : DecidablePred RegexItem.IsClassMember
  | .plain c => inferInstanceAs (Decidable (isLineBreak c = false ∧ c ≠ '\\' ∧ c ≠ ']'))
  | .escaped c => inferInstanceAs (Decidable (isLineBreak c = false))

instance : DecidablePred RegexItem.WellFormed
  | .piece p => inferInstanceAs (Decidable (RegexItem.IsAtom p))
  | .charClass ps => inferInstanceAs (Decidable (∀ p ∈ ps, RegexItem.IsClassMember p))

instance (next : Char) : DecidablePred (Element.MayPrecede next)
  | .word .. | .regex .. => inferInstanceAs (Decidable (isWordPart next = false))
  | .punctuation c => inferInstanceAs (Decidable ((c = '+' ∨ c = '-') → next ≠ c))
  | .division => inferInstanceAs (Decidable (next ≠ '/' ∧ next ≠ '*'))
  | .double _ | .quoted .. | .template .. | .group _ | .lineBreak _ | .blank _ | .lineComment ..
  | .blockComment _ => inferInstanceAs (Decidable True)

instance : DecidablePred IsPunctuation := fun c =>
  inferInstanceAs (Decidable (isWordPart c = false ∧ isInlineBlank c = false ∧
    isLineBreak c = false ∧ c ∉ ['/', '\x27', '\x22', '\x60', '\x7b', '\x7d']))

mutual

/-- Whether an element is well formed. -/
def Element.decideWellFormed (allowed : Bool) : (e : Element) → Decidable (e.WellFormed allowed)
  | .word c cs => List.decidableBAll (fun d => isWordPart d = true) (c :: cs)
  | .double c => inferInstanceAs (Decidable (c = '+' ∨ c = '-'))
  | .punctuation c => inferInstanceAs (Decidable (IsPunctuation c))
  | .quoted quote items => inferInstanceAs (Decidable
    ((quote = '\x27' ∨ quote = '\x22') ∧ ∀ i ∈ items, i.WellFormed quote))
  | .template head parts =>
    have := parts.decideWellFormed
    inferInstanceAs (Decidable (IsChunk head ∧ parts.WellFormed))
  | .group body => body.decideWellFormed true
  | .lineBreak c => inferInstanceAs (Decidable (isLineBreak c = true))
  | .blank c => inferInstanceAs (Decidable (isInlineBlank c = true))
  | .lineComment body lineBreak =>
    have := List.decidableBAll (fun c => isLineBreak c = false) body
    inferInstanceAs (Decidable
      ((∀ c ∈ body, isLineBreak c = false) ∧ isLineBreak lineBreak = true))
  | .blockComment body => inferInstanceAs (Decidable (¬ ['*', '/'] <:+: body))
  | .regex items flags =>
    have := List.decidableBAll (fun c => isWordPart c = true) flags
    inferInstanceAs (Decidable (allowed = true ∧ items ≠ [] ∧
      items.head? ≠ some (.piece (.plain '*')) ∧ (∀ i ∈ items, i.WellFormed) ∧
      ∀ c ∈ flags, isWordPart c = true))
  | .division => inferInstanceAs (Decidable (allowed = false))

/-- Whether code is well formed. -/
def Code.decideWellFormed (allowed : Bool) : (code : Code) → Decidable (code.WellFormed allowed)
  | .nil => inferInstanceAs (Decidable True)
  | .cons e rest =>
    have := e.decideWellFormed allowed
    have := Option.decidableForallMem (p := fun c => e.MayPrecede c) rest.render.head?
    have := rest.decideWellFormed (e.regexAfter allowed)
    inferInstanceAs (Decidable (e.WellFormed allowed ∧
      (∀ c ∈ rest.render.head?, e.MayPrecede c) ∧ rest.WellFormed (e.regexAfter allowed)))

/-- Whether substitutions are well formed. -/
def Substitutions.decideWellFormed : (parts : Substitutions) → Decidable parts.WellFormed
  | .nil => inferInstanceAs (Decidable True)
  | .cons code chunk rest =>
    have := code.decideWellFormed true
    have := rest.decideWellFormed
    inferInstanceAs (Decidable (code.WellFormed true ∧ IsChunk chunk ∧ rest.WellFormed))

end

instance (allowed : Bool) (code : Code) : Decidable (code.WellFormed allowed) :=
  code.decideWellFormed allowed

/-! ### The comments of code -/

/-- Whether the line has content after an element, given whether it had content before it. -/
def Element.contentAfter (content : Bool) : Element → Bool
  | .lineBreak _ | .lineComment .. => false
  | .blank _ => content
  | _ => true

mutual

/-- The comments in an element that begins at an offset. -/
def Element.comments (pos : Nat) (content : Bool) : Element → List Comment
  | .lineComment body _ => [⟨.line, pos, body, !content⟩]
  | .blockComment body => [⟨.block true, pos, body, !content⟩]
  | .group body => body.comments (pos + byteLength ['\x7b']) true
  | .template head parts => parts.comments (pos + byteLength ('\x60' :: renderPieces head))
  | _ => []

/-- The comments in code that begins at an offset. -/
def Code.comments (pos : Nat) (content : Bool) : Code → List Comment
  | .nil => []
  | .cons e rest => e.comments pos content ++
    rest.comments (pos + byteLength e.render) (e.contentAfter content)

/-- The comments in substitutions that begin at an offset. -/
def Substitutions.comments (pos : Nat) : Substitutions → List Comment
  | .nil => []
  | .cons code chunk rest => code.comments (pos + byteLength ['$', '\x7b']) true ++
    rest.comments
      (pos + byteLength ('$' :: '\x7b' :: (code.render ++ '\x7d' :: renderPieces chunk)))

end

end InlineExpect.Comment
