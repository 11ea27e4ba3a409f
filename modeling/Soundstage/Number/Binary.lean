/-!
# Decimals to binary floating point

`Decimal.toFloat` and `Decimal.toFloat32` give the floating point number nearest to a decimal, ties
to the even significand, in exact integer arithmetic. A number too large for the format becomes an
infinity. `widen` takes a number from the narrower format to the wider one.
-/

namespace Soundstage

/-- `-digits · 10^exponent` or `digits · 10^exponent`. -/
structure Decimal where
  negative : Bool
  digits : Nat
  exponent : Int
  deriving DecidableEq, Repr

namespace Number

/-- The power `2^n`. -/
def twoPower (n : Nat) : Nat := Nat.pow 2 n

/-- The power `10^n`. -/
def tenPower (n : Nat) : Nat := Nat.pow 10 n

/-- The quotient `num / den` rounded to the nearest natural number, a half to the even one. -/
def roundQuotient (num den : Nat) : Nat :=
  let q := num / den
  let r := num % den
  if den < 2 * r ∨ (2 * r = den ∧ q % 2 = 1) then q + 1 else q

/-- Rounding is off by at most a half: twice the error is at most the divisor. -/
theorem two_mul_roundQuotient_le (num den : Nat) (h : 0 < den) :
    2 * (roundQuotient num den * den) ≤ 2 * num + den ∧
      2 * num ≤ 2 * (roundQuotient num den * den) + den := by
  have hdiv := Nat.div_add_mod num den
  have hlt := Nat.mod_lt num h
  have hmul : (num / den + 1) * den = den * (num / den) + den := by
    rw [Nat.add_mul, Nat.one_mul, Nat.mul_comm]
  have hcomm : num / den * den = den * (num / den) := Nat.mul_comm ..
  simp only [roundQuotient]
  split
  · rw [hmul]
    omega
  · rw [hcomm]
    omega

/-- A binary format: the bits of its significand, the exponent of its smallest positive number, and
the word of its positive infinity. -/
structure Format where
  precision : Nat
  leastExponent : Int
  infinity : Nat

def single : Format := ⟨24, -149, 0x7f800000⟩

def double : Format := ⟨53, -1074, 0x7ff0000000000000⟩

/-- `num / den · 2^(-k)` as a quotient of natural numbers. -/
def scaleDown (num den : Nat) (k : Int) : Nat × Nat :=
  if k < 0 then (num * twoPower (-k).toNat, den) else (num, den * twoPower k.toNat)

/-- The word of the number nearest to `num / den`, for a positive `den`. -/
def nearestWord (fmt : Format) (num den : Nat) : Nat :=
  if num = 0 then 0
  else
    let guess := (num.log2 : Int) - den.log2 - fmt.precision
    let (n, d) := scaleDown num den guess
    let exponent :=
      max fmt.leastExponent (if n < d * twoPower fmt.precision then guess else guess + 1)
    let (n, d) := scaleDown num den exponent
    let step := (exponent - fmt.leastExponent).toNat * twoPower (fmt.precision - 1)
    min fmt.infinity (step + roundQuotient n d)

/-- The double with the value of a single. None is too fine or too large for it, so nothing is rounded. -/
def widen (x : Float32) : Float :=
  let word := x.toBits.toNat
  let magnitude := word % twoPower 31
  let step := magnitude / twoPower 23
  let significand := magnitude % twoPower 23 + if step = 0 then 0 else twoPower 23
  let wide :=
    if single.infinity < magnitude then double.infinity + 1
    else if magnitude = single.infinity then double.infinity
    else nearestWord double (significand * twoPower (step - 1)) (twoPower 149)
  let value := Float.ofBits wide.toUInt64
  if word < twoPower 31 then value else -value

end Number

namespace Decimal

open Number

/-- The word of the number nearest to the decimal's magnitude. Magnitudes that lie beyond both
formats by far are settled without computing the power of ten. -/
def word (fmt : Format) (x : Decimal) : Nat :=
  let size := (x.digits.log2 : Int)
  if x.digits = 0 then 0
  else if 2000 < size + 3 * x.exponent ∧ 0 < x.exponent then fmt.infinity
  else if size + 3 * x.exponent < -4000 then 0
  else if x.exponent < 0 then nearestWord fmt x.digits (tenPower (-x.exponent).toNat)
  else nearestWord fmt (x.digits * tenPower x.exponent.toNat) 1

def toFloat (x : Decimal) : Float :=
  let magnitude := Float.ofBits (x.word double).toUInt64
  if x.negative then -magnitude else magnitude

def toFloat32 (x : Decimal) : Float32 :=
  let magnitude := Float32.ofBits (x.word single).toUInt32
  if x.negative then -magnitude else magnitude

def ofInt (n : Int) : Decimal := ⟨n < 0, n.natAbs, 0⟩

end Decimal

end Soundstage
