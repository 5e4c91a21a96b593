/-
  Numbers as they are written in JSON, and what they stand for.

  * a `Number` is the sign, the digits before and behind the point, and the
    exponent;
  * it is an integer if it has neither point nor exponent, fits into 64 bits
    (unsigned, or signed if negative), and is not `-0`; otherwise it is a
    floating-point number;
  * a floating-point number is read from the leading digits that fit into 64
    bits: they are rounded, and then multiplied with or divided by a power of
    ten, with a second rounding.  Too large a number has no value.
-/
import LicenseExpr.Decimal.Shortest

namespace LicenseExpr

namespace Json

/-- A number as it is written. -/
structure Number where
  negative : Bool
  /-- The digits before the point. -/
  whole : List Nat
  /-- The digits behind the point, if there is one. -/
  fraction : Option (List Nat)
  exponent : Option Int
  deriving DecidableEq

/-- An integer as a number. -/
def Number.ofInt (n : Int) : Number :=
  ⟨decide (n < 0), (Nat.toDigits 10 n.natAbs).map (fun c => c.toNat - 48), none, none⟩

/-- What a number stands for. -/
inductive Number.Value where
  | integer (n : Int)
  | floating (negative : Bool) (magnitude : Binary64)

namespace Number

/-- The largest integer of 64 bits. -/
def largest : Nat := 0xFFFFFFFFFFFFFFFF

/-- Takes digits for as long as the number that they spell, after `value`,
    fits into 64 bits; the rest is left. -/
def takeFitting (value : Nat) : List Nat → Nat × List Nat
  | [] => (value, [])
  | d :: ds => if largest < value * 10 + d then (value, d :: ds) else takeFitting (value * 10 + d) ds

/-- Divides by the largest power of ten until the exponent is at least -308;
    four times are enough for a significand of 64 bits to vanish. -/
def lowered : Nat → Binary64 → Int → Option (Binary64 × Int)
  | 0, _, _ => some (.zero, 0)
  | fuel + 1, x, e =>
    if -308 ≤ e then some (x, e)
    else if x.mantissa = 0 then some (x, 0)
    else do lowered fuel (← x.div? (← Binary64.tenTo? 308)) (e + 308)

/-- The floating-point number `significand * 10 ^ e`. -/
def magnitude? (significand : Nat) (e : Int) : Option Binary64 := do
  let x ← Binary64.ofRatio? significand 1
  if x.mantissa = 0 then return x
  if 308 < e then none
  else if 0 ≤ e then x.mul? (← Binary64.tenTo? e.toNat)
  else
    let (y, f) ← lowered 4 x e
    y.div? (← Binary64.tenTo? (-f).toNat)

/-- What the number stands for; `none` if it is too large. -/
def value? (n : Number) : Option Value :=
  let (whole, excess) := takeFitting 0 n.whole
  let (significand, dropped) := takeFitting whole (n.fraction.getD [])
  let places : Int := excess.length + dropped.length - (n.fraction.getD []).length
  let floating := (magnitude? significand (places + n.exponent.getD 0)).map (.floating n.negative)
  if excess ≠ [] ∨ n.fraction.isSome ∨ n.exponent.isSome then floating
  else if n.negative then
    if 0 < whole ∧ whole ≤ 0x8000000000000000 then some (.integer (-whole)) else floating
  else some (.integer whole)

end Number

end Json

end LicenseExpr
