/-
  The shortest decimal text of a binary floating-point number.

  * `shortest` is the pair of an integer and a power of ten whose product
    reads back as the number, with as few digits as possible and, among
    those, nearest to it: the grids of multiples of a power of ten are tried
    from the coarsest on, and on each the two neighbours of the number;
  * `positional` writes such a pair without an exponent and always with a
    point, so a whole number ends in `.0`, and `scientific` with one digit
    before the point and a signed exponent;
  * `text` is positional from 10^-5 up to 10^16 and scientific elsewhere.
-/
import LicenseExpr.Decimal.Binary64

namespace LicenseExpr

namespace Binary64

/-- Whether `c * 10 ^ p` rounds to `x`: it lies between the midpoints to the
    neighbours of `x`, which count in if the mantissa is even. -/
def readsBack (x : Binary64) (c : Nat) (p : Int) : Bool :=
  let closer := x.mantissa = mantissaBound / 2 ∧ leastExponent < x.exponent
  let low := ratio ⟨4 * x.mantissa - (if closer then 1 else 2), x.exponent - 2⟩
  let high := ratio ⟨4 * x.mantissa + 2, x.exponent - 2⟩
  let value := timesPower c 10 p
  let below := low.1 * value.2
  let above := high.1 * value.2
  if x.mantissa % 2 = 0 then
    decide (below ≤ value.1 * low.2) && decide (value.1 * high.2 ≤ above)
  else
    decide (below < value.1 * low.2) && decide (value.1 * high.2 < above)

/-- The neighbour of `x` on the grid of multiples of `10 ^ p` that reads back
    as `x`, the nearer one if both do. -/
def onGrid? (x : Binary64) (p : Int) : Option Nat :=
  let v := x.ratio
  let unit := timesPower 1 10 p
  let s := (v.1 * unit.2, v.2 * unit.1)
  let c := s.1 / s.2
  let nearer := divHalfEven s.1 s.2
  match x.readsBack c p, x.readsBack (c + 1) p with
  | true, true => some nearer
  | true, false => some c
  | false, true => some (c + 1)
  | false, false => none

/-- Tries the grids from `10 ^ p` downwards. -/
def shortestFrom (x : Binary64) : Nat → Int → Nat × Int
  | 0, p => (0, p)
  | fuel + 1, p =>
    match x.onGrid? p with
    | some c => (c, p)
    | none => shortestFrom x fuel (p - 1)

/-- The shortest decimal that reads back as `x`. -/
def shortest (x : Binary64) : Nat × Int :=
  if x.mantissa = 0 then (0, 0) else shortestFrom x 650 309

/-- A decimal with a point and without an exponent. -/
def positional (c : Nat) (p : Int) : String :=
  if 0 ≤ p then toString (c * Nat.pow 10 p.toNat) ++ ".0"
  else
    let places := (-p).toNat
    let unit := Nat.pow 10 places
    let behind := toString (c % unit)
    toString (c / unit) ++ "." ++
      String.ofList (List.replicate (places - behind.length) '0') ++ behind

/-- A decimal of `digits` digits with one digit before the point, which is
    left out if there is no other, and an exponent, which always has a sign. -/
def scientific (c : Nat) (digits : Nat) (p : Int) : String :=
  let unit := Nat.pow 10 (digits - 1)
  let behind := toString (c % unit)
  let exponent := p + digits - 1
  toString (c / unit) ++
    (if digits = 1 then ""
     else "." ++ String.ofList (List.replicate (digits - 1 - behind.length) '0') ++ behind) ++
    (if 0 ≤ exponent then "e+" else "e") ++ toString exponent

/-- The text of a number. -/
def text (x : Binary64) : String :=
  let (c, p) := x.shortest
  let digits := (toString c).length
  if x.mantissa = 0 ∨ (-5 < p + digits ∧ p + digits ≤ 16) then positional c p
  else scientific c digits p

end Binary64

end LicenseExpr
