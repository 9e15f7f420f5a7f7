import Sema.Number.Binary64

/-!
# `Sema.Number.Decimal`: the decimal text of a number

A number is written with the fewest digits that read back as the same number, and of those with the
digits nearest to it. The search is exact: a number `m * 2 ^ q` is read back from every decimal in
the interval that reaches halfway to its two neighbours (ends included when `m` is even), so for
one digit, then two, and so on, the two grid points around the number are tested against that
interval. Seventeen digits always suffice.

The digits are then laid out by position, however long that is; there is no exponent notation. A
whole number has no point, and the sign of a zero is kept.
-/

set_option autoImplicit false

namespace Sema

namespace Binary64

/-- The reals that read back as one number, on a common scale: `value`, `low` and `high` are
numerators over `denominator`. -/
structure Reading where
  value : Nat
  low : Nat
  high : Nat
  denominator : Nat
  /-- Whether the two ends themselves read back as the number. -/
  closed : Bool

/-- The interval of a positive finite number. Below a power of two the neighbour is only half as
far, so the lower half-gap is a quarter of the unit there. -/
def reading (x : Binary64) : Reading :=
  let m := x.significand
  let below := if m = fieldUnit then 1 else 2
  let closed := m % 2 == 0
  -- One scale for all: quarters of the unit in the last place.
  match x.exponent - 2 with
  | .ofNat q =>
    ⟨(4 * m) <<< q, (4 * m - below) <<< q, (4 * m + 2) <<< q, 1, closed⟩
  | .negSucc q =>
    ⟨4 * m, 4 * m - below, 4 * m + 2, 1 <<< (q + 1), closed⟩

/-- Whether the decimal `n / scale` reads back as the number. -/
def Reading.contains (r : Reading) (n scale : Nat) : Bool :=
  let point := n * r.denominator
  if r.closed then r.low * scale ≤ point && point ≤ r.high * scale
  else r.low * scale < point && point < r.high * scale

/-- A power of ten. -/
def tenTo (n : Nat) : Nat := Nat.pow 10 n

/-- Multiplies numerators and denominator so that one unit of the grid `10 ^ power` is `1`. -/
def Reading.onGrid (r : Reading) (power : Int) : Reading :=
  match power with
  | .ofNat p => { r with denominator := r.denominator * tenTo p }
  | .negSucc p =>
    let scale := tenTo (p + 1)
    { r with value := r.value * scale, low := r.low * scale, high := r.high * scale }

/-- The grid point of `10 ^ power` that reads back as the number and is nearest to it, if any; of
two that are equally near the upper one. -/
def Reading.nearest? (r : Reading) (power : Int) : Option Nat :=
  let g := r.onGrid power
  let lower := g.value / g.denominator
  let rest := g.value % g.denominator
  let upper := lower + 1
  match g.contains lower 1, g.contains upper 1 with
  | false, false => none
  | true, false => some lower
  | false, true => some upper
  | true, true => some (if 2 * rest < g.denominator then lower else upper)

/-- How many digits stand before the point: the least `k` with `value < 10 ^ k`, which is negative
or zero for small numbers. `estimate` is at or below it. -/
def Reading.digitsBefore (r : Reading) : Nat → Int → Int
  | 0, estimate => estimate
  | fuel + 1, estimate =>
    let g := r.onGrid estimate
    if g.value < g.denominator then estimate else Reading.digitsBefore r fuel (estimate + 1)

/-- The shortest digits, as an integer on the grid `10 ^ power`, trying `digits`, `digits + 1`, …
significant digits. -/
def Reading.shortest (r : Reading) (before : Int) : Nat → Nat → Nat × Int
  | 0, digits =>
    let power := before - digits
    let g := r.onGrid power
    (g.value / g.denominator, power)
  | fuel + 1, digits =>
    let power := before - digits
    match r.nearest? power with
    | some n => (n, power)
    | none => Reading.shortest r before fuel (digits + 1)

/-- The digits of a whole number followed by `power` zeros, or with the point `-power` digits from
the right. -/
def positional (n : Nat) (power : Int) : String :=
  let digits := Nat.toDigits 10 n
  match power with
  | .ofNat p => String.ofList (digits ++ List.replicate p '0')
  | .negSucc p =>
    let places := p + 1
    let padded := List.replicate (places + 1 - digits.length) '0' ++ digits
    let whole := padded.take (padded.length - places)
    let rest := padded.drop (padded.length - places)
    -- A rounding that carried leaves zeros at the end, which say nothing.
    let fraction := (rest.reverse.dropWhile (· == '0')).reverse
    String.ofList (if fraction.isEmpty then whole else whole ++ '.' :: fraction)

/-- The text of a number: the fewest digits that read back, by position. -/
def text (x : Binary64) : String :=
  if x.isNaN then "NaN"
  else
    let sign := if x.negative then "-" else ""
    if x.isInfinite then sign ++ "inf"
    else if x.isZero then sign ++ "0"
    else
      let r := x.reading
      -- No double is below `10 ^ -325`, and none reaches `10 ^ 309`; the estimate from the binary
      -- exponent is at most one short of the true digit count.
      let binary : Int := x.exponent + x.significand.log2
      let before := r.digitsBefore 8 (binary * 30103 / 100000 - 1)
      let (n, power) := r.shortest before 17 1
      sign ++ positional n power

end Binary64

end Sema
