/-
  The binary operators of license expressions.

  `WITH` binds tightest and `OR` loosest: `precedence` orders them.
-/

namespace LicenseExpr

/-- An operator: `AND` (both terms apply), `OR` (a choice), or `WITH` (a
    license together with an exception to it). -/
inductive Operator where
  | and
  | or
  | withException
  deriving DecidableEq

namespace Operator

/-- Binding strength, the greater the tighter. -/
def precedence : Operator → Nat
  | or => 0
  | and => 1
  | withException => 2

/-- The operator as it is written. -/
def word : Operator → String
  | and => "AND"
  | or => "OR"
  | withException => "WITH"

/-- The operator that a word spells; operators are written in capitals only. -/
def ofWord? (w : String) : Option Operator :=
  if w = "AND" then some and
  else if w = "OR" then some or
  else if w = "WITH" then some withException
  else none

theorem ofWord?_eq_some_iff {w : String} {o : Operator} : ofWord? w = some o ↔ w = o.word := by
  constructor
  · intro h
    unfold ofWord? at h
    split at h
    · cases h; assumption
    split at h
    · cases h; assumption
    split at h
    · cases h; assumption
    · cases h
  · rintro rfl
    cases o <;> simp [ofWord?, word]

end Operator

end LicenseExpr
