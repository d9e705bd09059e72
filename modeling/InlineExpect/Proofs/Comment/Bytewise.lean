import Mathlib
import InlineExpect.Comment.Scan
import InlineExpect.Proofs.Text.Boundary

/-!
# Scanning byte by byte

The scanner over the bytes of a text.  It keeps the offset of the byte that it has come to, decodes
the character that begins there, and looks at a single byte ahead of it.  Where `scan` takes texts
apart, this scanner goes on by numbers of bytes, each of which could be wrong, and what would then
happen is a `Fault`: a stretch of the text cannot begin inside of a character, a count of open
braces cannot become negative, and a loop that does not come to an end gives no result.

The functions here are the loops that pass over a piece of the text (`skipWhile`, `skipQuoted`,
`skipTemplate`, `skipRegex`), one iteration of the scanner (`step`), the states that its iterations
go through (`Reached`), and the tokens that they report (`tokens`).
-/

namespace InlineExpect.Comment.Bytewise

open Text

/-- What can go wrong. -/
inductive Fault where
  /-- A stretch of the text begins or ends inside of a character, or past the end. -/
  | boundary
  /-- A number would be negative. -/
  | underflow
  /-- A number needs more than 32 bits. -/
  | overflow
  /-- A loop goes on for more rounds than the text has bytes. -/
  | stalled
deriving DecidableEq, Repr

/-- What the scanner knows at an offset. -/
abbrev State := ScanState DepthCounter

/-! ### Numbers and stretches of the text -/

/-- One more, if it has 32 bits. -/
def increment (n : Nat) : Except Fault Nat :=
  if n + 1 < 2 ^ 32 then .ok (n + 1) else .error .overflow

/-- One less, if there is one. -/
def decrement : Nat → Except Fault Nat
  | 0 => .error .underflow
  | n + 1 => .ok n

/-- The span between two offsets, each cut down to 32 bits. -/
def spanOfBounds (start stop : Nat) : Except Fault Span :=
  if start % 2 ^ 32 ≤ stop % 2 ^ 32 then .ok (.ofBounds (start % 2 ^ 32) (stop % 2 ^ 32))
  else .error .underflow

/-- The bytes of a text from an offset on. -/
def tailFrom (bytes : List UInt8) (pos : Nat) : Except Fault (List UInt8) :=
  match bytes.drop pos with
  | [] => if pos = bytes.length then .ok [] else .error .boundary
  | b :: rest => if b.IsUTF8FirstByte then .ok (b :: rest) else .error .boundary

/-- The bytes of a text between two offsets. -/
def slice (bytes : List UInt8) (start stop : Nat) : Except Fault (List UInt8) := do
  let tail ← tailFrom bytes start
  let _ ← tailFrom bytes stop
  if start ≤ stop then .ok (tail.take (stop - start)) else .error .boundary

/-- The character that begins at an offset, unless the text ends there. -/
def charAt? (bytes : List UInt8) (pos : Nat) : Except Fault (Option Char) := do
  let tail ← tailFrom bytes pos
  .ok (decode? tail)

/-- The number of bytes before the first place at which a pattern stands. -/
def find? (pattern : List UInt8) : List UInt8 → Option Nat
  | [] => if pattern.isEmpty then some 0 else none
  | b :: bytes =>
    if pattern.isPrefixOf (b :: bytes) then some 0 else (find? pattern bytes).map (· + 1)

/-! ### Loops -/

/-- What a round of a loop comes to. -/
inductive Round (σ ρ : Type) where
  /-- Another round follows. -/
  | next (s : σ)
  /-- The loop has a result. -/
  | done (r : ρ)

/-- The result of a loop, if it comes to an end within so many rounds. -/
def loop {σ ρ : Type} (round : σ → Except Fault (Round σ ρ)) : Nat → σ → Except Fault ρ
  | 0, _ => .error .stalled
  | fuel + 1, s =>
    match round s with
    | .ok (.next t) => loop round fuel t
    | .ok (.done r) => .ok r
    | .error fault => .error fault

/-- Passes over a character if it is one of a class. -/
def whileRound (bytes : List UInt8) (p : Char → Bool) (pos : Nat) :
    Except Fault (Round Nat Nat) := do
  match ← charAt? bytes pos with
  | some c => .ok (if p c then .next (pos + c.utf8Size) else .done pos)
  | none => .ok (.done pos)

/-- The offset behind the characters of a class. -/
def skipWhile (bytes : List UInt8) (p : Char → Bool) (pos : Nat) : Except Fault Nat :=
  loop (whileRound bytes p) (bytes.length + 1) pos

/-- The offset of the end of the line. -/
def skipLine (bytes : List UInt8) (pos : Nat) : Except Fault Nat :=
  skipWhile bytes (fun c => !isLineBreak c) pos

/-- The offset behind the word characters, and what is passed over. -/
def skipWord (bytes : List UInt8) (pos : Nat) : Except Fault (Nat × List UInt8) := do
  let stop ← skipWhile bytes isWordPart pos
  let word ← slice bytes pos stop
  .ok (stop, word)

/-- Passes over a character of a string, or over what a backslash escapes. -/
def quotedRound (bytes : List UInt8) (quote : Char) (pos : Nat) : Except Fault (Round Nat Nat) := do
  match ← charAt? bytes pos with
  | some c =>
    if c = quote then .ok (.done (pos + 1))
    else if c = '\\' then
      match ← charAt? bytes (pos + 1) with
      | some d =>
        let stop := pos + 1 + d.utf8Size
        .ok (.next (if d = '\r' && bytes[stop]? == some 0x0a then stop + 1 else stop))
      | none => .ok (.next (pos + 1))
    else if isLineBreak c then .ok (.done pos)
    else .ok (.next (pos + c.utf8Size))
  | none => .ok (.done pos)

/-- The offset behind the rest of a string. -/
def skipQuoted (bytes : List UInt8) (quote : Char) (pos : Nat) : Except Fault Nat :=
  loop (quotedRound bytes quote) (bytes.length + 1) pos

/-- Passes over a character of template text, or over what a backslash escapes. -/
def templateRound (bytes : List UInt8) (s : State) : Except Fault (Round State State) := do
  match ← charAt? bytes s.pos with
  | some c =>
    if c = '\x60' then .ok (.done { s with pos := s.pos + 1, regexAllowed := false })
    else if c = '$' && bytes[s.pos + 1]? == some 0x7b then
      let depth ← increment s.nesting.depth
      .ok (.done { s with
        pos := s.pos + 2
        regexAllowed := true
        nesting := ⟨depth, depth :: s.nesting.substitutions⟩ })
    else if c = '\\' then
      match ← charAt? bytes (s.pos + 1) with
      | some d => .ok (.next { s with pos := s.pos + 1 + d.utf8Size })
      | none => .ok (.next { s with pos := s.pos + 1 })
    else .ok (.next { s with pos := s.pos + c.utf8Size })
  | none => .ok (.done s)

/-- The state behind a chunk of template text. -/
def skipTemplate (bytes : List UInt8) (s : State) : Except Fault State :=
  loop (templateRound bytes) (bytes.length + 1) s

/-- Passes over a character of a regular expression, or over what a backslash escapes.  The result
says whether flags can follow. -/
def regexRound (bytes : List UInt8) (s : Nat × Bool) :
    Except Fault (Round (Nat × Bool) (Nat × Bool)) := do
  match ← charAt? bytes s.1 with
  | some c =>
    let stop := s.1 + c.utf8Size
    if isLineBreak c then .ok (.done (s.1, false))
    else if c = '\\' then
      match ← charAt? bytes stop with
      | some d =>
        if isLineBreak d then .ok (.done (stop, false)) else .ok (.next (stop + d.utf8Size, s.2))
      | none => .ok (.next (stop, s.2))
    else if c = '[' then .ok (.next (stop, true))
    else if c = ']' then .ok (.next (stop, false))
    else if c = '/' && !s.2 then .ok (.done (stop, true))
    else .ok (.next (stop, s.2))
  | none => .ok (.done (s.1, true))

/-- The offset behind the flags of a regular expression, where flags can follow. -/
def skipFlags (bytes : List UInt8) (s : Nat × Bool) : Except Fault Nat := do
  if s.2 then
    let (stop, _) ← skipWord bytes s.1
    .ok stop
  else .ok s.1

/-- The offset behind the rest of a regular expression. -/
def skipRegex (bytes : List UInt8) (pos : Nat) : Except Fault Nat := do
  let s ← loop (regexRound bytes) (bytes.length + 1) (pos, false)
  skipFlags bytes s

/-! ### Tokens -/

/-- A comment of a text, as its form, its place and whether it is the first thing on its line. -/
structure Token where
  isLine : Bool
  span : Span
  firstOnLine : Bool
deriving DecidableEq, Repr

namespace Token

/-- The token of a comment. -/
def ofComment (c : Comment) : Token := ⟨c.isLine, c.span, c.firstOnLine⟩

/-- The bytes of the comment between its delimiters. -/
def body (bytes : List UInt8) (t : Token) : Except Fault (List UInt8) := do
  let inner ← slice bytes (t.span.start + 2) t.span.stop
  if !t.isLine && [0x2a, 0x2f].isSuffixOf inner then .ok (inner.take (inner.length - 2))
  else .ok inner

end Token

/-! ### The scanner -/

/-- Reports the comment that ends at an offset. -/
def comment (isLine : Bool) (s : State) (stop : Nat) : Except Fault (Option Token × State) := do
  let span ← spanOfBounds s.pos stop
  .ok (some ⟨isLine, span, !s.lineHasContent⟩, { s with pos := stop, lineHasContent := true })

/-- Passes over what begins with a slash. -/
def slash (bytes : List UInt8) (s : State) : Except Fault (Option Token × State) := do
  if bytes[s.pos + 1]? = some 0x2f then
    let stop ← skipLine bytes (s.pos + 2)
    comment true s stop
  else if bytes[s.pos + 1]? = some 0x2a then
    let tail ← tailFrom bytes (s.pos + 2)
    match find? [0x2a, 0x2f] tail with
    | some n => comment false s (s.pos + 2 + (n + 2))
    | none => comment false s bytes.length
  else if s.regexAllowed then
    let stop ← skipRegex bytes (s.pos + 1)
    .ok (none, { s with pos := stop, lineHasContent := true, regexAllowed := false })
  else .ok (none, { s with pos := s.pos + 1, lineHasContent := true, regexAllowed := true })

/-- Passes over a closing brace and over the template text that goes on after a substitution. -/
def closeBrace (bytes : List UInt8) (s : State) : Except Fault State := do
  if s.nesting.substitutions.head? = some s.nesting.depth then
    let depth ← decrement s.nesting.depth
    skipTemplate bytes
      { s with pos := s.pos + 1, nesting := ⟨depth, s.nesting.substitutions.tail⟩ }
  else
    .ok { s with
      pos := s.pos + 1
      regexAllowed := false
      nesting := ⟨s.nesting.depth - 1, s.nesting.substitutions⟩ }

/-- Passes over code that begins with a character. -/
def code (bytes : List UInt8) (s : State) (c : Char) : Except Fault State := do
  if c = '\x27' || c = '\x22' then
    let stop ← skipQuoted bytes c (s.pos + 1)
    .ok { s with pos := stop, regexAllowed := false }
  else if c = '\x60' then skipTemplate bytes { s with pos := s.pos + 1 }
  else if c = '\x7b' then
    let depth ← increment s.nesting.depth
    .ok { s with
      pos := s.pos + 1
      regexAllowed := true
      nesting := ⟨depth, s.nesting.substitutions⟩ }
  else if c = '\x7d' then closeBrace bytes s
  else if c = ')' || c = ']' then .ok { s with pos := s.pos + 1, regexAllowed := false }
  else if c = '!' && bytes[s.pos + 1]? != some 0x3d then .ok { s with pos := s.pos + 1 }
  else if (c = '+' || c = '-') && bytes[s.pos + 1]? == some c.val.toUInt8 then
    .ok { s with pos := s.pos + 2 }
  else if isWordPart c then
    let (stop, word) ← skipWord bytes s.pos
    .ok { s with
      pos := stop
      regexAllowed := expressionKeywords.any fun keyword => utf8 keyword.toList == word }
  else .ok { s with pos := s.pos + c.utf8Size, regexAllowed := true }

/-- One iteration of the scanner.  At the end of the text there is none.  Otherwise the answer is
the token that is reported, if one is, and the state after it. -/
def step (bytes : List UInt8) (s : State) : Except Fault (Option (Option Token × State)) := do
  if bytes.length ≤ s.pos then .ok none
  else
    match ← charAt? bytes s.pos with
    | none => .ok none
    | some c =>
      if isLineBreak c then
        .ok (some (none, { s with pos := s.pos + c.utf8Size, lineHasContent := false }))
      else if isInlineBlank c then .ok (some (none, { s with pos := s.pos + c.utf8Size }))
      else if c = '/' then
        let (token?, t) ← slash bytes s
        .ok (some (token?, t))
      else
        let t ← code bytes s c
        .ok (some (none, { t with lineHasContent := true }))

/-- The state at the beginning of a text, behind an interpreter line. -/
def start (bytes : List UInt8) : Except Fault State := do
  if [0x23, 0x21].isPrefixOf bytes then
    let stop ← skipLine bytes 2
    .ok ⟨stop, true, true, {}⟩
  else .ok ⟨0, false, true, {}⟩

/-- The tokens that are reported from a state on, if the text ends within so many iterations. -/
def tokensFrom (bytes : List UInt8) : Nat → State → Except Fault (List Token)
  | 0, _ => .error .stalled
  | fuel + 1, s => do
    match ← step bytes s with
    | none => .ok []
    | some (token?, t) =>
      let tokens ← tokensFrom bytes fuel t
      .ok (token?.toList ++ tokens)

/-- The tokens of a text. -/
def tokens (bytes : List UInt8) : Except Fault (List Token) := do
  let s ← start bytes
  tokensFrom bytes (bytes.length + 1) s

/-- The states that the iterations of the scanner go through. -/
inductive Reached (bytes : List UInt8) : State → Prop where
  | start {s : State} (h : start bytes = .ok s) : Reached bytes s
  | step {s t : State} {token? : Option Token} (hs : Reached bytes s)
    (h : step bytes s = .ok (some (token?, t))) : Reached bytes t

end InlineExpect.Comment.Bytewise
