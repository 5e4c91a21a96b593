/-
  What expressions mean.

  * a `Term` is a license, with an exception to it or without.  Given a truth
    value for every term, `AND` is conjunction and `OR` is disjunction, and no
    other tree than terms joined by them has a value (`Expr.value?`);
  * `Written.value?` is the value of an expression as it is written: every
    group by itself, every id as the term that it stands for, and whatever
    stands before `WITH` as one term with the exception behind it;
  * `value?_join`: dissolving the groups of an operator into a chain keeps the
    value, as conjunction and disjunction are associative;
  * `value?_parse`: the tree that a text is read as has the value of the text
    as it is written.
-/
import LicenseExpr.Proofs.Language
import LicenseExpr.Proofs.LegacyIds
import Mathlib.Logic.ExistsUnique

namespace LicenseExpr

/-! ## Terms -/

/-- A license, with an exception to it or without. -/
structure Term where
  license : String
  orLater : Bool
  exception : Option String
  deriving DecidableEq

/-- The term that a tree is. -/
def Expr.term? : Expr → Option Term
  | license id orLater => some ⟨id, orLater, none⟩
  | compound (license id orLater) .withException (exception x) => some ⟨id, orLater, some x⟩
  | _ => none

/-- The term that is written, with its ids resolved: an id, or an id with an
    exception to it, in parentheses or not. -/
def Written.term? : Written → Option Term
  | id word plus => (resolveLicense word plus).term?
  | excepted w x =>
    match w.term?, resolveException x with
    | some ⟨license, orLater, none⟩, .exception y => some ⟨license, orLater, some y⟩
    | _, _ => none
  | group w => w.term?
  | compound _ _ _ => none

/-! ## Values -/

/-- The value of two operands under an operator; `WITH` makes none. -/
def Operator.connect : Operator → Option Bool → Option Bool → Option Bool
  | and, some a, some b => some (a && b)
  | or, some a, some b => some (a || b)
  | _, _, _ => none

theorem Operator.connect_assoc (op : Operator) (a b c : Option Bool) :
    op.connect (op.connect a b) c = op.connect a (op.connect b c) := by
  cases op <;> cases a <;> cases b <;> cases c <;>
    simp [connect, Bool.and_assoc, Bool.or_assoc]

/-- The value of a tree, if every term has the value `v`. -/
def Expr.value? (v : Term → Bool) : Expr → Option Bool
  | compound l .withException r => (compound l .withException r).term?.map v
  | compound l op r => op.connect (l.value? v) (r.value? v)
  | e => e.term?.map v

/-- The value of an expression as it is written. -/
def Written.value? (v : Term → Bool) : Written → Option Bool
  | id word plus => (id word plus).term?.map v
  | excepted w x => (excepted w x).term?.map v
  | group w => w.value? v
  | compound l op r => op.connect (l.value? v) (r.value? v)

/-! ## Dissolving groups -/

namespace Expr
variable {op : Operator} (v : Term → Bool)

theorem value?_compound (hop : op ≠ .withException) (l r : Expr) :
    (compound l op r).value? v = op.connect (l.value? v) (r.value? v) := by
  cases op with
  | and | or => rfl
  | withException => exact absurd rfl hop

/-- **Dissolving groups keeps the value.** -/
theorem value?_join (hop : op ≠ .withException) (l r : Expr) :
    (leftDeep op l (r.operands op)).value? v = op.connect (l.value? v) (r.value? v) :=
  map_join op.connect_assoc (value?_compound v hop) l r

/-- A term has its own value. -/
theorem value?_of_term? {e : Expr} {t : Term} (h : e.term? = some t) :
    e.value? v = some (v t) := by
  cases e with
  | license id orLater => cases h; rfl
  | exception => cases h
  | compound l op r =>
    cases op with
    | and | or => cases l <;> cases h
    | withException => rw [value?, h, Option.map_some]

end Expr

/-- An id stands for a term. -/
theorem exists_term?_resolveLicense (word : String) (plus : Bool) :
    ∃ t, (resolveLicense word plus).term? = some t := by
  obtain ⟨id, orLater, h | ⟨x, h⟩⟩ := exists_resolveLicense word plus
  · exact ⟨_, by rw [h, Expr.term?]⟩
  · exact ⟨_, by rw [h, Expr.term?]⟩

/-! ## Written expressions -/

namespace Written

/-- What is written as a single license is a term without exception. -/
theorem term?_of_isSingle {w : Written} (h : w.isSingle = true) :
    w.term? = w.toExpr.term? := by
  induction w with
  | id => rfl
  | excepted => cases h
  | group w ih => exact ih h
  | compound l op r =>
    -- a chain is a compound
    obtain ⟨id, orLater, htree⟩ := exists_of_isSingle h
    have hroot : (toExpr (compound l op r)).operator? = some op := Expr.operator?_join _ _
    rw [htree] at hroot
    cases hroot

end Written

/-- **The tree that is written has the value of what is written**, and there
    is one. -/
theorem Derives.value?_eq {layer : Layer} {ks : List Token.Kind} {w : Written}
    (h : Derives Written.isSingle layer ks w) (v : Term → Bool) :
    ∃ b, w.toExpr.value? v = some b ∧ w.value? v = some b := by
  induction h with
  | @id word plus =>
    obtain ⟨t, ht⟩ := exists_term?_resolveLicense word plus
    exact ⟨v t, Expr.value?_of_term? v ht, congrArg (Option.map v) ht⟩
  | group _ ih | term _ ih | conjunction _ ih | disjunction _ ih => exact ih
  | @excepted ks w x _ hsingle _ =>
    obtain ⟨id, orLater, htree⟩ := Written.exists_of_isSingle hsingle
    obtain ⟨y, hy⟩ := exists_resolveException x
    have hterm : w.term? = some ⟨id, orLater, none⟩ := by
      rw [Written.term?_of_isSingle hsingle, htree, Expr.term?]
    refine ⟨v ⟨id, orLater, some y⟩, ?_, ?_⟩
    · rw [Written.toExpr, htree, hy]
      exact Expr.value?_of_term? v rfl
    · rw [Written.value?, Written.term?, hterm, hy]
      rfl
  | and _ _ ihl ihr =>
    obtain ⟨a, hla, hwa⟩ := ihl
    obtain ⟨b, hlb, hwb⟩ := ihr
    refine ⟨a && b, ?_, ?_⟩
    · rw [Written.toExpr, Expr.value?_join v (by decide), hla, hlb, Operator.connect]
    · rw [Written.value?, hwa, hwb, Operator.connect]
  | or _ _ ihl ihr =>
    obtain ⟨a, hla, hwa⟩ := ihl
    obtain ⟨b, hlb, hwb⟩ := ihr
    refine ⟨a || b, ?_, ?_⟩
    · rw [Written.toExpr, Expr.value?_join v (by decide), hla, hlb, Operator.connect]
    · rw [Written.value?, hwa, hwb, Operator.connect]

/-! ## Texts -/

/-- **Reading preserves the meaning**: a text that is read has one analysis,
    and under every truth assignment to terms the tree has the value of the
    text as it is written. -/
theorem value?_parse {text : String} {e : Expr} (h : parse text = .ok e) :
    (∃! a : Analysis, a.Fits text) ∧ ∀ a : Analysis, a.Fits text → ∀ v,
      ∃ b, e.value? v = some b ∧ a.written.value? v = some b := by
  obtain ⟨a, ha, he⟩ := Analysis.exists_fits h
  refine ⟨⟨a, ha, fun b hb => hb.unique ha⟩, fun b hb v => ?_⟩
  rw [hb.unique ha, ← he]
  exact ha.derived.value?_eq v

/-- Groups of the same operator and of the other one, and a combined id. -/
theorem value?_parse_nested :
    parse "A AND (B AND (C OR GPL-2.0-with-GCC-exception))" = .ok
        (.compound (.compound (.license "A" false) .and (.license "B" false)) .and
          (.compound (.license "C" false) .or (.compound (.license "GPL-2.0-only" false)
            .withException (.exception "GCC-exception-2.0")))) ∧
      (∃! a : Analysis, a.Fits "A AND (B AND (C OR GPL-2.0-with-GCC-exception))") ∧
        ∀ a : Analysis, a.Fits "A AND (B AND (C OR GPL-2.0-with-GCC-exception))" → ∀ v, ∃ b,
          (Expr.compound (.compound (.license "A" false) .and (.license "B" false)) .and
            (.compound (.license "C" false) .or (.compound (.license "GPL-2.0-only" false)
              .withException (.exception "GCC-exception-2.0")))).value? v = some b ∧
            a.written.value? v = some b := by
  have hgpl := @Token.Spells.id _ _ "GPL-2.0-with-GCC-exception" false (by decide)
    (Token.ends_cons (by decide)) Token.Spells.nil.closing.closing
  have hc := @Token.Spells.id _ _ "C" false (by decide) (Token.ends_cons (by decide))
    (hgpl.operator .or)
  have hb := @Token.Spells.id _ _ "B" false (by decide) (Token.ends_cons (by decide))
    (hc.opening.operator .and)
  have ha : Token.Spells "A AND (B AND (C OR GPL-2.0-with-GCC-exception))".toList _ :=
    @Token.Spells.id _ _ "A" false (by decide) (Token.ends_cons (by decide))
      (hb.opening.operator .and)
  obtain ⟨ts, ht, hk⟩ := ha.tokenize_eq
  have hread : Parser.machine.read (Token.kinds ts) = .ok (.compound (.id "A" false) .and
      (.group (.compound (.id "B" false) .and (.group (.compound (.id "C" false) .or
        (.id "GPL-2.0-with-GCC-exception" false)))))) := by
    rw [hk]
    rfl
  have hparse := parse_of_ok ht hread
  have hcurrent : ∀ w, CurrentLicense w false → resolveLicense w false = .license w false :=
    fun w h => resolveLicense_of_current h
  have hcombined : resolveLicense "GPL-2.0-with-GCC-exception" false =
      .compound (.license "GPL-2.0-only" false) .withException
        (.exception "GCC-exception-2.0") :=
    resolveLicense_of_combined (c := ⟨"GPL-2.0-with-GCC-exception", "GPL-2.0", "GCC-exception-2.0"⟩)
      (v := ⟨"GPL-2.0", "GPL-2.0-only", "GPL-2.0-or-later"⟩) (by simp [Legacy.combined]) rfl
        (by simp [Legacy.versioned]) rfl false
  simp only [Written.toExpr, hcombined, hcurrent "A" (by decide), hcurrent "B" (by decide),
    hcurrent "C" (by decide)] at hparse
  exact ⟨hparse, value?_parse hparse⟩

end LicenseExpr
