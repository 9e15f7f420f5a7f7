/-!
# `Sema.Number.Binary64`: double-precision numbers by their bits

A script number is a double-precision binary float. It is kept as its 64 bits, because two
behaviours of the language tell bit patterns apart that arithmetic does not: map keys compare by
pattern, so two NaNs with different payloads are two keys, and `0` and `-0` are two keys, while
value equality says that no NaN equals anything and that `0` equals `-0`.

Everything here is exact integer arithmetic on the three fields of the pattern. A finite number is
`significand * 2 ^ exponent`, with its sign apart.
-/

set_option autoImplicit false

namespace Sema

/-- A double-precision number, by its bit pattern. -/
structure Binary64 where
  bits : UInt64
  deriving DecidableEq, Inhabited

namespace Binary64

/-- The weight of the sign bit, `2 ^ 63`. -/
def signUnit : Nat := 0x8000000000000000

/-- The weight of the last bit of the exponent field, `2 ^ 52`. It is also the leading one that the
fraction of a normal number leaves unwritten. -/
def fieldUnit : Nat := 0x10000000000000

/-- Whether the sign bit is set. NaNs and zeros have a sign too. -/
def negative (x : Binary64) : Bool :=
  signUnit ≤ x.bits.toNat

/-- The eleven bits of the biased exponent. -/
def exponentField (x : Binary64) : Nat :=
  x.bits.toNat / fieldUnit % 2048

/-- The fifty-two bits of the fraction. -/
def fractionField (x : Binary64) : Nat :=
  x.bits.toNat % fieldUnit

/-- Whether the bits are those of no number. -/
def isNaN (x : Binary64) : Bool :=
  x.exponentField == 2047 && x.fractionField != 0

/-- Whether the number is one of the two infinities. -/
def isInfinite (x : Binary64) : Bool :=
  x.exponentField == 2047 && x.fractionField == 0

/-- Both zeros, whatever their sign. -/
def isZero (x : Binary64) : Bool :=
  x.exponentField == 0 && x.fractionField == 0

/-- The fraction with the leading one that normal numbers leave unwritten. -/
def significand (x : Binary64) : Nat :=
  if x.exponentField = 0 then x.fractionField else fieldUnit + x.fractionField

/-- The power of two that the significand is scaled by. Subnormal numbers share the least one. -/
def exponent (x : Binary64) : Int :=
  (max x.exponentField 1 : Nat) - 1075

/-- Equality of numbers: a NaN equals nothing, and the two zeros are equal. -/
def equals (x y : Binary64) : Bool :=
  !x.isNaN && !y.isNaN && (x.bits == y.bits || (x.isZero && y.isZero))

/-- The pattern with these fields; the exponent field absorbs a carry out of the fraction, so
rounding up to the next power of two needs no case of its own. -/
private def pack (negative : Bool) (field fraction : Nat) : Binary64 :=
  ⟨UInt64.ofNat ((if negative then signUnit else 0) + field * fieldUnit + fraction)⟩

/-- Positive zero. -/
def zero : Binary64 := ⟨0⟩

/-- The quotient by `2 ^ shift`, rounded to the nearest integer, a half to the even one. -/
def roundShift (n shift : Nat) : Nat :=
  let unit := 1 <<< shift
  let quotient := n / unit
  let twice := 2 * (n % unit)
  if unit < twice || (twice == unit && quotient % 2 == 1) then quotient + 1
  else quotient

/-- The nearest number to a natural number with a sign, ties to even; infinite from
`2 ^ 1024 - 2 ^ 970` on. Zero is the positive zero. -/
private def ofMagnitude (negative : Bool) (n : Nat) : Binary64 :=
  if n = 0 then zero
  else
    let top := n.log2
    let scaled := if top ≤ 52 then n <<< (52 - top) else roundShift n (top - 52)
    -- `scaled` lies between `2 ^ 52` and `2 ^ 53`, both included; its leading bit raises the field.
    if top + 1022 + scaled / fieldUnit ≥ 2047 then pack negative 2047 0
    else pack negative (top + 1022) scaled

/-- The nearest number to an integer, ties to the even significand. -/
def ofInt (i : Int) : Binary64 :=
  ofMagnitude (i < 0) i.natAbs

/-- The number of a count. -/
def ofNat (n : Nat) : Binary64 :=
  ofMagnitude false n

/-- The integer part of the magnitude. Meaningful for finite numbers; an infinity reads as a
number beyond every 64-bit integer. -/
def magnitude (x : Binary64) : Nat :=
  match x.exponent with
  | .ofNat e => x.significand <<< e
  | .negSucc e => x.significand >>> (e + 1)

/-- The number cut toward zero to a 64-bit signed integer: a NaN is `0`, and what lies outside the
64-bit range is the nearest end of it. -/
def toInt (x : Binary64) : Int :=
  if x.isNaN then 0
  else if x.negative then -(min x.magnitude 0x8000000000000000 : Nat)
  else (min x.magnitude 0x7fffffffffffffff : Nat)

/-- The number as an integer, if it is one. -/
def toInt? (x : Binary64) : Option Int :=
  if x.exponentField = 2047 then none
  else
    -- Below the point there must be nothing but zeros.
    let whole := match x.exponent with
      | .ofNat _ => true
      | .negSucc e => x.significand % (1 <<< (e + 1)) == 0
    if whole then some (if x.negative then -(x.magnitude : Int) else x.magnitude) else none

end Binary64

end Sema
