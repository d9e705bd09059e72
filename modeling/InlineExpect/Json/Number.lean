import InlineExpect.Decimal.Shortest
import InlineExpect.Json.Value

/-!
# JSON numbers

How the literal of a number is read, and how a number is written.  A literal without fraction and
exponent is an integer as long as it fits into 64 bits.  Every other literal is a double: its digits
are gathered into 64 bits, and the double next to them is scaled by powers of ten that are doubles
themselves.
-/

namespace InlineExpect.Json

/-- The parts of the literal of a number.  The exponent is a sign, `true` for minus, and digits. -/
structure NumberLiteral where
  negative : Bool
  whole : List Nat
  fraction : Option (List Nat)
  exponent : Option (Bool × List Nat)
deriving DecidableEq, Repr

namespace NumberLiteral

/-- The digits that fit into 64 bits after `acc`, as a number, and how many digits those are. -/
def gather (acc : Nat) : List Nat → Nat × Nat
  | [] => (acc, 0)
  | d :: ds =>
    if 10 * acc + d < UInt64.size then
      let (n, used) := gather (10 * acc + d) ds
      (n, used + 1)
    else (acc, 0)

/-- The number that decimal digits denote. -/
def valueOf (digits : List Nat) : Nat := digits.foldl (fun n d => 10 * n + d) 0

/-- The double nearest to `10 ^ k`. -/
def powerOfTen (k : Nat) : Float := Float.ofScientific 1 false k

/-- A double divided by `10 ^ k`, in steps of `10 ^ 308`. -/
def divideByPower (f : Float) (k : Nat) : Float :=
  if k ≤ 308 then f / powerOfTen k
  else if f == 0 then f
  else divideByPower (f / powerOfTen 308) (k - 308)
termination_by k

/-- A double times `10 ^ exponent`, unless that is too large for a double. -/
def scale? (f : Float) (exponent : Int) : Option Float :=
  match exponent with
  | .ofNat k =>
    if k ≤ 308 then
      let g := f * powerOfTen k
      if g.isInf then none else some g
    else if f == 0 then some f
    else none
  | .negSucc k => some (divideByPower f (k + 1))

/-- The number of a literal, unless it is too large for a double. -/
def toNumber? (l : NumberLiteral) : Option Number :=
  let (significand, used) := gather 0 l.whole
  let dropped := l.whole.length - used
  if l.fraction.isNone && l.exponent.isNone && dropped == 0 &&
      !(l.negative && (significand == 0 || significand > 0x8000000000000000)) then
    some (.integer (if l.negative then -significand else significand))
  else
    let (significand, places) := gather significand (l.fraction.getD [])
    let power : Int :=
      match l.exponent with
      | none => 0
      | some (true, ds) => -(valueOf ds : Int)
      | some (false, ds) => valueOf ds
    (scale? (UInt64.ofNat significand).toFloat (dropped - places + power)).map fun f =>
      .double (if l.negative then -f else f).toBits

end NumberLiteral

/-- The digits of a decimal with the point behind the first `point` of them.  Positional notation
has at least one place; an exponent is written where the point would lie outside `-4` to `16`. -/
def layout (digits : List Char) (point : Int) : List Char :=
  let count : Int := digits.length
  if count ≤ point ∧ point ≤ 16 then
    digits ++ List.replicate (point - count).toNat '0' ++ ['.', '0']
  else if 0 < point ∧ point ≤ 16 then
    digits.take point.toNat ++ '.' :: digits.drop point.toNat
  else if -5 < point ∧ point ≤ 0 then
    '0' :: '.' :: List.replicate (-point).toNat '0' ++ digits
  else
    let exponent := 'e' :: (toString (point - 1)).toList
    match digits with
    | [] => exponent
    | [d] => d :: exponent
    | d :: ds => d :: '.' :: ds ++ exponent

/-- The text of a number. -/
def Number.text : Number → String
  | .integer n => toString n
  | .double bits =>
    let sign := if bits.toNat < 0x8000000000000000 then "" else "-"
    let s := Decimal.shortest bits
    let digits := (toString s.digits).toList
    sign ++ String.ofList (layout digits (digits.length + s.exponent))

end InlineExpect.Json
