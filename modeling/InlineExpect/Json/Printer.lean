import InlineExpect.Json.Value
import InlineExpect.Json.Number

/-!
# Writing JSON

The compact text of a value: no blanks, and no escapes but those that a string cannot do without.
-/

namespace InlineExpect.Json

/-- The hexadecimal digit of a number below sixteen. -/
def hexDigit (n : Nat) : Char := if n < 10 then Char.ofNat (48 + n) else Char.ofNat (87 + n)

/-- A character inside a string. -/
def escape (c : Char) : List Char :=
  match c with
  | '\x22' => ['\\', '\x22']
  | '\\' => ['\\', '\\']
  | '\x08' => ['\\', 'b']
  | '\x0c' => ['\\', 'f']
  | '\n' => ['\\', 'n']
  | '\r' => ['\\', 'r']
  | '\t' => ['\\', 't']
  | c =>
    if c.toNat < 0x20 then
      ['\\', 'u', '0', '0', hexDigit (c.toNat / 16), hexDigit (c.toNat % 16)]
    else [c]

/-- A string in quotes. -/
def quoted (s : String) : String := String.ofList ('\x22' :: s.toList.flatMap escape ++ ['\x22'])

mutual

/-- The text of a value. -/
def Value.text : Value → String
  | .null => "null"
  | .bool true => "true"
  | .bool false => "false"
  | .number n => n.text
  | .string s => quoted s
  | .array items => "[" ++ String.intercalate "," (itemTexts items) ++ "]"
  | .object members => "\x7b" ++ String.intercalate "," (memberTexts members) ++ "\x7d"
  | .unreadable => "null"

/-- The texts of some values. -/
def itemTexts : List Value → List String
  | [] => []
  | v :: vs => v.text :: itemTexts vs

/-- The texts of some members. -/
def memberTexts : List (String × Value) → List String
  | [] => []
  | (name, v) :: ms => (quoted name ++ ":" ++ v.text) :: memberTexts ms

end

end InlineExpect.Json
