/-
  The grammar of expressions.

  * a `Written` expression is what a list of tokens says: legacy ids are not
    replaced yet, and parentheses are kept as groups;
  * `Written.toExpr` is the tree that it stands for: ids are resolved, groups
    are dropped, and the operands of `AND` and `OR` are joined from left to
    right, a group of the same operator giving its own operands;
  * `Derives single layer ks w`: the tokens of the kinds `ks` spell `w`.  Each
    of the four layers holds the operators that bind tighter than the next;
    `single` says after what `WITH` may stand, which is a single license for
    the parser (`Written.isSingle`);
  * `Derives.balanced`: derived tokens have balanced parentheses.
-/
import LicenseExpr.Legacy
import LicenseExpr.Proofs.Operands
import LicenseExpr.Proofs.Parentheses
import LicenseExpr.Token

namespace LicenseExpr

/-! ## Written expressions -/

/-- An expression as it is written. -/
inductive Written where
  /-- A license id, with a `+` behind it or not. -/
  | id (word : String) (plus : Bool)
  /-- A license `WITH` an exception id. -/
  | excepted (license : Written) (exception : String)
  /-- An expression in parentheses. -/
  | group (inner : Written)
  /-- Operands of `AND` or `OR`. -/
  | compound (left : Written) (op : Operator) (right : Written)

namespace Written

/-- The tree that is written. -/
def toExpr : Written → Expr
  | id word plus => resolveLicense word plus
  | excepted license exception =>
    .compound license.toExpr .withException (resolveException exception)
  | group inner => inner.toExpr
  | compound l op r => Expr.leftDeep op l.toExpr (r.toExpr.operands op)

/-- What the parser lets `WITH` follow: the tree is a single license. -/
def isSingle (w : Written) : Bool :=
  w.toExpr.isLicense

theorem exists_of_isSingle {w : Written} (h : w.isSingle = true) :
    ∃ id orLater, w.toExpr = .license id orLater := by
  rw [isSingle] at h
  cases hw : w.toExpr with
  | license id orLater => exact ⟨id, orLater, rfl⟩
  | exception | compound => rw [hw] at h; cases h

/-- An id or a group. -/
def isAtom : Written → Bool
  | id _ _ | group _ => true
  | _ => false

end Written

/-! ## Derivations -/

/-- The layers of the grammar, the tightest first. -/
inductive Layer where
  /-- Ids and groups. -/
  | atom
  /-- Atoms, with an exception or without. -/
  | term
  /-- Terms between `AND`. -/
  | conjunction
  /-- Conjunctions between `OR`. -/
  | disjunction

/-- The tokens of these kinds spell the expression, as one of the layer. -/
inductive Derives (single : Written → Bool) : Layer → List Token.Kind → Written → Prop
  | id {word plus} : Derives single .atom [.id word plus] (.id word plus)
  | group {ks w} : Derives single .disjunction ks w →
      Derives single .atom (.opening :: ks ++ [.closing]) (.group w)
  | term {ks w} : Derives single .atom ks w → Derives single .term ks w
  | excepted {ks w x} : Derives single .atom ks w → single w = true →
      Derives single .term (ks ++ [.operator .withException, .id x false]) (.excepted w x)
  | conjunction {ks w} : Derives single .term ks w → Derives single .conjunction ks w
  | and {ks us v w} : Derives single .conjunction ks v → Derives single .term us w →
      Derives single .conjunction (ks ++ .operator .and :: us) (.compound v .and w)
  | disjunction {ks w} : Derives single .conjunction ks w → Derives single .disjunction ks w
  | or {ks us v w} : Derives single .disjunction ks v → Derives single .conjunction us w →
      Derives single .disjunction (ks ++ .operator .or :: us) (.compound v .or w)

/-! ## Parentheses of tokens -/

namespace Token

/-- What the tokens are, without where they stand. -/
abbrev kinds (ts : List Token) : List Kind :=
  ts.map (·.kind)

theorem kinds_cons (t : Token) (ts : List Token) : kinds (t :: ts) = t.kind :: kinds ts := rfl

theorem kinds_append (ts us : List Token) : kinds (ts ++ us) = kinds ts ++ kinds us :=
  List.map_append

theorem length_kinds (ts : List Token) : (kinds ts).length = ts.length :=
  List.length_map _

/-- Tokens are split as their kinds are. -/
theorem exists_split_of_kinds {ts : List Token} {us vs : List Kind} {k : Kind}
    (h : kinds ts = us ++ k :: vs) : ∃ before t after, ts = before ++ t :: after ∧
      kinds before = us ∧ t.kind = k ∧ kinds after = vs := by
  obtain ⟨before, rest, rfl, hb, hr⟩ := List.map_eq_append_iff.1 h
  obtain ⟨t, after, rfl, ht, ha⟩ := List.map_eq_cons_iff.1 hr
  exact ⟨before, t, after, rfl, hb, ht, ha⟩

theorem opening_ne_closing : Kind.opening ≠ Kind.closing := by decide

/-- The largest number of parentheses that are open at once. -/
abbrev depth (ks : List Kind) : Nat :=
  nesting Kind.opening Kind.closing ks

@[simp] theorem count_opening_closings (n : Nat) :
    (List.replicate n Kind.closing).count Kind.opening = 0 :=
  List.count_eq_zero_of_not_mem fun h => nomatch List.eq_of_mem_replicate h

end Token

namespace Derives
variable {single : Written → Bool} {layer : Layer} {ks : List Token.Kind} {w : Written}

/-- An operator between two parts with balanced parentheses. -/
theorem balanced_infix {ks us : List Token.Kind} (op : Operator)
    (hk : Balanced Token.Kind.opening .closing ks) (hu : Balanced Token.Kind.opening .closing us) :
    Balanced Token.Kind.opening .closing (ks ++ .operator op :: us) := by
  have hop : Balanced Token.Kind.opening .closing [.operator op] :=
    Balanced.single (by simp) (by simp)
  exact hk.append (hop.append hu)

/-- **Derived tokens have balanced parentheses.** -/
theorem balanced (h : Derives single layer ks w) : Balanced Token.Kind.opening .closing ks := by
  induction h with
  | id => exact Balanced.single (by simp) (by simp)
  | group _ ih => exact ih.group Token.opening_ne_closing
  | term _ ih | conjunction _ ih | disjunction _ ih => exact ih
  | excepted _ _ ih => exact balanced_infix _ ih (Balanced.single (by simp) (by simp))
  | and _ _ ih₁ ih₂ => exact balanced_infix _ ih₁ ih₂
  | or _ _ ih₁ ih₂ => exact balanced_infix _ ih₁ ih₂

theorem settled (h : Derives single layer ks w) :
    ks.count Token.Kind.opening = ks.count Token.Kind.closing :=
  h.balanced.settled

theorem depth_group (h : Derives single layer ks w) :
    Token.depth (.opening :: ks ++ [.closing]) = Token.depth ks + 1 :=
  nesting_group Token.opening_ne_closing h.settled

theorem depth_infix (h : Derives single layer ks w) (op : Operator) (us : List Token.Kind) :
    Token.depth (ks ++ .operator op :: us) = max (Token.depth ks) (Token.depth us) := by
  rw [Token.depth, nesting_append Token.opening_ne_closing h.settled,
    nesting_other (by simp) (by simp)]

/-- Derived tokens begin with an id or a parenthesis. -/
theorem exists_cons (h : Derives single layer ks w) :
    ∃ k us, ks = k :: us ∧ k ≠ .closing ∧ ∀ op, k ≠ .operator op := by
  induction h with
  | id | group => exact ⟨_, _, rfl, nofun, nofun⟩
  | term _ ih | conjunction _ ih | disjunction _ ih => exact ih
  | excepted _ _ ih | and _ _ ih | or _ _ ih =>
    obtain ⟨k, us, rfl, hk⟩ := ih
    exact ⟨k, _, rfl, hk⟩

/-- What is derived at the atom layer is an id or a group. -/
theorem isAtom (h : Derives single .atom ks w) : w.isAtom = true := by
  cases h <;> rfl

end Derives

end LicenseExpr
