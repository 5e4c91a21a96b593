/-
  Binary floating-point numbers of 64 bits, as exact ratios.

  * a nonnegative number is a mantissa below 2^53 times a power of two from
    2^-1074 to 2^971;
  * `ofRatio?` rounds a ratio to the nearest such number, a tie to the even
    mantissa; a ratio that is too large has none;
  * `mul?` and `div?` are the exact product and quotient, rounded once.
-/

namespace LicenseExpr

/-- The nonnegative number `mantissa * 2 ^ exponent`. -/
structure Binary64 where
  mantissa : Nat
  exponent : Int
  deriving DecidableEq

namespace Binary64

/-- The least exponent. -/
def leastExponent : Int := -1074

/-- The greatest exponent. -/
def greatestExponent : Int := 971

/-- Mantissas are less than this, which is 2^53. -/
def mantissaBound : Nat := 0x20000000000000

def zero : Binary64 := ⟨0, leastExponent⟩

/-- The quotient rounded to the nearest integer, a tie to the even one. -/
def divHalfEven (num den : Nat) : Nat :=
  let q := num / den
  let r := num % den
  if 2 * r < den then q
  else if den < 2 * r then q + 1
  else if q % 2 = 0 then q
  else q + 1

/-- The ratio `n * base ^ e`. -/
def timesPower (n base : Nat) (e : Int) : Nat × Nat :=
  if e < 0 then (n, Nat.pow base (-e).toNat) else (n * Nat.pow base e.toNat, 1)

/-- The ratio divided by `2 ^ e`. -/
def scaled (num den : Nat) (e : Int) : Nat × Nat :=
  let p := timesPower 1 2 e
  (num * p.2, den * p.1)

/-- The number nearest to `num / den`. -/
def ofRatio? (num den : Nat) : Option Binary64 :=
  if num = 0 then some zero
  else
    let guess := max leastExponent ((Nat.log2 num : Int) - (Nat.log2 den : Int) - 53)
    let s := scaled num den guess
    let e := if s.1 / s.2 < mantissaBound then guess else guess + 1
    let t := scaled num den e
    let m := divHalfEven t.1 t.2
    let x : Binary64 := if m = mantissaBound then ⟨mantissaBound / 2, e + 1⟩ else ⟨m, e⟩
    if greatestExponent < x.exponent then none else some x

/-- The number as a ratio. -/
def ratio (x : Binary64) : Nat × Nat :=
  timesPower x.mantissa 2 x.exponent

/-- The product, rounded. -/
def mul? (x y : Binary64) : Option Binary64 :=
  ofRatio? (x.ratio.1 * y.ratio.1) (x.ratio.2 * y.ratio.2)

/-- The quotient, rounded; the divisor is not zero. -/
def div? (x y : Binary64) : Option Binary64 :=
  ofRatio? (x.ratio.1 * y.ratio.2) (x.ratio.2 * y.ratio.1)

/-- The number nearest to a power of ten, for exponents up to 308. -/
def tenTo? (k : Nat) : Option Binary64 :=
  ofRatio? (Nat.pow 10 k) 1

end Binary64

end LicenseExpr
