/-!
# Shortest decimals

The decimal with the fewest digits that reads back as a given double.  A double stands for the
interval of reals that round to it; on each decimal grid, coarse ones first, only the two
neighbours of the double itself have to be tried.
-/

namespace InlineExpect.Decimal

/-- The decimal `digits * 10 ^ exponent`. -/
structure Scaled where
  digits : Nat
  exponent : Int
deriving DecidableEq, Repr

/-- A positive double `mantissa * 2 ^ exponent`.  `narrowBelow` holds at a power of two, where the
doubles below lie twice as close as those above. -/
structure Binary where
  mantissa : Nat
  exponent : Int
  narrowBelow : Bool
deriving DecidableEq, Repr

/-- The magnitude of the double with the given bits. -/
def Binary.ofBits (bits : UInt64) : Binary :=
  let raw := bits.toNat
  let fraction : Nat := raw % Nat.pow 2 52
  let biased : Nat := raw / Nat.pow 2 52 % Nat.pow 2 11
  if biased = 0 then ⟨fraction, -1074, false⟩
  else ⟨fraction + Nat.pow 2 52, (biased : Int) - 1075, fraction = 0 && biased > 1⟩

/-- A double on the grid of the multiples of a power of ten: the double itself is
`value / unit` steps from zero, and the reals that round to it are those between `low / unit` and
`high / unit`. -/
structure Grid where
  low : Nat
  value : Nat
  high : Nat
  unit : Nat
  /-- Whether the ends of the interval round to the double. -/
  closed : Bool

/-- A double on the grid of the multiples of `10 ^ step`. -/
def Binary.grid (b : Binary) (step : Int) : Grid :=
  let scale := Nat.pow 2 (b.exponent - 2).toNat * Nat.pow 10 (-step).toNat
  { low := (4 * b.mantissa - (if b.narrowBelow then 1 else 2)) * scale
    value := 4 * b.mantissa * scale
    high := (4 * b.mantissa + 2) * scale
    unit := Nat.pow 2 (2 - b.exponent).toNat * Nat.pow 10 step.toNat
    closed := b.mantissa % 2 = 0 }

/-- Whether a grid point rounds to the double. -/
def Grid.readsBack (g : Grid) (point : Nat) : Bool :=
  let p := point * g.unit
  if g.closed then g.low ≤ p && p ≤ g.high else g.low < p && p < g.high

/-- The neighbour of the double on the grid that rounds to it.  Of two such the nearer one counts,
and of two equally near the even one. -/
def Grid.nearest? (g : Grid) : Option Nat :=
  let below := g.value / g.unit
  match g.readsBack below, g.readsBack (below + 1) with
  | true, true =>
    let rest := 2 * (g.value % g.unit)
    if rest < g.unit || (rest = g.unit && below % 2 = 0) then some below else some (below + 1)
  | true, false => some below
  | false, true => some (below + 1)
  | false, false => none

/-- The least `n` with `10 ^ n > a / b`, looked for below `fuel` digits. -/
def digitsAbove (a b : Nat) : Nat → Nat → Nat
  | 0, n => n
  | fuel + 1, n => if a < b * Nat.pow 10 n then n else digitsAbove a b fuel (n + 1)

/-- The number `k` with `10 ^ (k - 1) ≤ d < 10 ^ k` for a double `d`. -/
def Binary.magnitude (b : Binary) : Int :=
  let g := b.grid 0
  if g.value < g.unit then 1 - (digitsAbove (g.unit - 1) g.value 330 0 : Int)
  else digitsAbove g.value g.unit 330 0

/-- Tries the grids on which the double has `n` digits, `n + 1` digits and so on. -/
def Binary.shortestFrom (b : Binary) (magnitude : Int) : Nat → Nat → Scaled
  | 0, n => let g := b.grid (magnitude - n); ⟨g.value / g.unit, magnitude - n⟩
  | fuel + 1, n =>
    match (b.grid (magnitude - n)).nearest? with
    | some digits => ⟨digits, magnitude - n⟩
    | none => b.shortestFrom magnitude fuel (n + 1)

/-- Moves up to `fuel` zeros from the end of the digits into the exponent. -/
def Scaled.strip (s : Scaled) : Nat → Scaled
  | 0 => s
  | fuel + 1 =>
    if s.digits ≠ 0 ∧ s.digits % 10 = 0 then Scaled.strip ⟨s.digits / 10, s.exponent + 1⟩ fuel
    else s

/-- The shortest decimal that reads back as a double.  Seventeen digits always suffice. -/
def shortest (bits : UInt64) : Scaled :=
  let b := Binary.ofBits bits
  if b.mantissa = 0 then ⟨0, 0⟩ else (b.shortestFrom b.magnitude 17 1).strip 17

end InlineExpect.Decimal
