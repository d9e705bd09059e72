import InlineExpect.Json.Number

/-!
# JSON tokens

The tokens of a JSON text as RFC 8259 has them: no comments, no byte order mark, and no blanks but
space, tab, line feed and carriage return.
-/

namespace InlineExpect.Json

/-- A token of a JSON text. -/
inductive Token where
  | openArray
  | closeArray
  | openObject
  | closeObject
  | comma
  | colon
  /-- A string, or nothing if a surrogate in it is unpaired. -/
  | string (s : Option String)
  /-- Any other value without items and members. -/
  | leaf (v : Value)

namespace Token

/-! ### Strings -/

/-- The value of a hexadecimal digit. -/
def hexDigit? (c : Char) : Option Nat :=
  if '0' ≤ c && c ≤ '9' then some (c.toNat - '0'.toNat)
  else if 'a' ≤ c && c ≤ 'f' then some (c.toNat - 'a'.toNat + 10)
  else if 'A' ≤ c && c ≤ 'F' then some (c.toNat - 'A'.toNat + 10)
  else none

/-- The UTF-16 unit that four hexadecimal digits at the start of a text denote. -/
def hexUnit? : List Char → Option Nat
  | a :: b :: c :: d :: _ => do
    return 4096 * (← hexDigit? a) + 256 * (← hexDigit? b) + 16 * (← hexDigit? c) + (← hexDigit? d)
  | _ => none

/-- The second unit of a surrogate pair, where the text goes on with its escape. -/
def lowSurrogate? : List Char → Option Nat
  | '\\' :: 'u' :: cs => (hexUnit? cs).filter fun u => 0xDC00 ≤ u && u < 0xE000
  | _ => none

/-- The character that a single letter after a backslash denotes. -/
def escaped? (c : Char) : Option Char :=
  match c with
  | '\x22' => some '\x22'
  | '\\' => some '\\'
  | '/' => some '/'
  | 'b' => some '\x08'
  | 'f' => some '\x0c'
  | 'n' => some '\n'
  | 'r' => some '\r'
  | 't' => some '\t'
  | _ => none

/-- What a string holds: its text, or nothing if a surrogate is unpaired, and the number of
characters that were read. -/
structure StringBody where
  text : Option (List Char)
  length : Nat

/-- A character in front of a string, written with `n` characters. -/
def StringBody.push (c : Option Char) (n : Nat) (b : StringBody) : StringBody :=
  ⟨do return (← c) :: (← b.text), n + b.length⟩

/-- Reads a string after its opening quote, the closing quote included. -/
def stringBody? : List Char → Option StringBody
  | [] => none
  | '\x22' :: _ => some ⟨some [], 1⟩
  | '\\' :: 'u' :: cs =>
    match hexUnit? cs with
    | none => none
    | some u =>
      if u < 0xD800 || 0xE000 ≤ u then
        (stringBody? (cs.drop 4)).map (.push (some (Char.ofNat u)) 6)
      else
        match if u < 0xDC00 then lowSurrogate? (cs.drop 4) else none with
        | some low =>
          (stringBody? (cs.drop 10)).map
            (.push (some (Char.ofNat (0x10000 + 0x400 * (u - 0xD800) + (low - 0xDC00)))) 12)
        | none => (stringBody? (cs.drop 4)).map (.push none 6)
  | '\\' :: c :: cs =>
    match escaped? c with
    | none => none
    | some d => (stringBody? cs).map (.push (some d) 2)
  | c :: cs => if c.toNat < 0x20 then none else (stringBody? cs).map (.push (some c) 1)
termination_by cs => cs.length
decreasing_by all_goals (simp only [List.length_cons, List.length_drop]; omega)

/-! ### Numbers -/

/-- The value of a decimal digit. -/
def decimalDigit (c : Char) : Nat := c.toNat - '0'.toNat

/-- The digits at the start of a text. -/
def digits (cs : List Char) : List Nat := (cs.takeWhile Char.isDigit).map decimalDigit

/-- Reads the fraction of a number: a point and at least one digit, or nothing at all. -/
def fraction? : List Char → Option (Option (List Nat))
  | '.' :: cs => match digits cs with
    | [] => none
    | ds => some (some ds)
  | _ => some none

/-- Reads the exponent of a number: its letter, a sign and at least one digit, or nothing at all.
The last component is the number of characters that were read. -/
def exponent? (cs : List Char) : Option (Option (Bool × List Nat) × Nat) :=
  match cs with
  | c :: rest =>
    if c = 'e' || c = 'E' then
      let (negative, signs, ds) := match rest with
        | '-' :: more => (true, 1, digits more)
        | '+' :: more => (false, 1, digits more)
        | more => (false, 0, digits more)
      if ds.isEmpty then none else some (some (negative, ds), 1 + signs + ds.length)
    else some (none, 0)
  | [] => some (none, 0)

/-- Reads a number without its sign, and the number of its characters. -/
def number? (negative : Bool) (cs : List Char) : Option (NumberLiteral × Nat) := do
  let whole ← match digits cs with
    | [] => none
    | 0 :: _ => some [0]
    | ds => some ds
  let afterWhole := cs.drop whole.length
  let fraction ← fraction? afterWhole
  let n := match fraction with
    | some ds => 1 + ds.length
    | none => 0
  let (exponent, m) ← exponent? (afterWhole.drop n)
  return (⟨negative, whole, fraction, exponent⟩, whole.length + n + m)

/-! ### Texts -/

/-- The value of a literal, which is unreadable where no double is large enough. -/
def ofNumber (l : NumberLiteral) : Token :=
  match l.toNumber? with
  | some n => .leaf (.number n)
  | none => .leaf .unreadable

/-- The token at the start of the text `c :: cs`, and how many characters it has after the first. -/
def first? (c : Char) (cs : List Char) : Option (Token × Nat) :=
  match c with
  | '[' => some (.openArray, 0)
  | ']' => some (.closeArray, 0)
  | '\x7b' => some (.openObject, 0)
  | '\x7d' => some (.closeObject, 0)
  | ',' => some (.comma, 0)
  | ':' => some (.colon, 0)
  | '\x22' => (stringBody? cs).map fun b => (.string (b.text.map String.ofList), b.length)
  | '-' => (number? true cs).map fun (l, n) => (ofNumber l, n)
  | 'n' => if ['u', 'l', 'l'].isPrefixOf cs then some (.leaf .null, 3) else none
  | 't' => if ['r', 'u', 'e'].isPrefixOf cs then some (.leaf (.bool true), 3) else none
  | 'f' => if ['a', 'l', 's', 'e'].isPrefixOf cs then some (.leaf (.bool false), 4) else none
  | _ => (number? false (c :: cs)).map fun (l, n) => (ofNumber l, n - 1)

/-- The blanks between tokens. -/
def isBlank (c : Char) : Bool := c == ' ' || c == '\t' || c == '\n' || c == '\r'

/-- The tokens of a text, if it has nothing else. -/
def ofText? : List Char → Option (List Token)
  | [] => some []
  | c :: cs =>
    if isBlank c then ofText? cs
    else
      match first? c cs with
      | none => none
      | some (token, n) => (ofText? (cs.drop n)).map (token :: ·)
termination_by cs => cs.length
decreasing_by all_goals (simp only [List.length_cons, List.length_drop]; omega)

end Token

end InlineExpect.Json
