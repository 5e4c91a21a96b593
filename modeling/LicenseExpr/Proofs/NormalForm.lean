/-
  What comes of reading a printed tree.

  * `norm e` resolves the ids in the leaves of `e` and joins the operands of
    `AND` and `OR` from left to right;
  * `toExpr_written`: the expression that the text of a shaped tree spells
    stands for the normal form of the tree, whatever its grouping;
  * `parse_print_eq_norm`: so reading the text of a printable tree gives its
    normal form.
-/
import LicenseExpr.Proofs.Descent
import LicenseExpr.Proofs.LegacyIds
import LicenseExpr.Proofs.Printing

namespace LicenseExpr

open Machine (Joins)
open Legacy

namespace Expr

/-! ## The normal form -/

/-- The tree with its ids resolved and its chains grouped to the left. -/
def norm : Expr → Expr
  | license id orLater => resolveLicense id orLater
  | exception id => resolveException id
  | compound l .withException r => compound l.norm .withException r.norm
  | compound l op r => leftDeep op l.norm (r.norm.operands op)

section
variable {P : String → Prop} {op : Operator} {sub layer : Layer} {e l r : Expr}

theorem norm_compound (hj : Joins op sub layer) :
    (compound l op r).norm = leftDeep op l.norm (r.norm.operands op) := by
  cases hj <;> rfl

theorem toExpr_grouped (op : Operator) (e : Expr) (w : Written) :
    (grouped op e w).toExpr = w.toExpr := by
  rw [grouped]
  split <;> rfl

/-- **The text of a tree stands for its normal form.** -/
theorem toExpr_written (h : e.Shaped P) : e.written.toExpr = e.norm := by
  induction h with
  | license => rfl
  | excepted => rfl
  | @chain l op r hop _ _ ihl ihr =>
    obtain ⟨sub, layer, hj⟩ := exists_joins hop
    rw [written_compound hj, Written.toExpr_graft, toExpr_grouped, toExpr_grouped, ihl, ihr,
      norm_compound hj]

/-! ## Reading a printed tree -/

/-- A printed tree has its tokens. -/
theorem spells_print (h : e.All IsLicenseName IsName) : Token.Spells e.print.toList e.kinds := by
  have hend : Token.Ends [] := fun _ hc => by cases hc
  have := spells_text h [] [] hend .nil
  rwa [List.append_nil, List.append_nil, ← print_eq_text] at this

/-- Reading a printed tree resolves and regroups it. -/
theorem parse_print_of_shaped (hn : e.All IsLicenseName IsName)
    (hs : e.Shaped fun id => ¬ IsCombined id) (hd : Token.depth e.kinds ≤ Parser.maxDepth) :
    parse e.print = .ok e.norm := by
  obtain ⟨ts, ht, hk⟩ := (spells_print hn).tokenize_eq
  have hw : Derives Parser.machine.single .disjunction e.kinds e.written :=
    (derives_written (fun id plus hid => isLicense_resolveLicense hid plus) hs).to_disjunction
  have hm : Parser.machine.read (Token.kinds ts) = .ok e.written := by
    have := Machine.read_of_derives hw hd 0
    rwa [List.replicate_zero, List.append_nil, ← hk] at this
  rw [parse_of_ok ht hm, toExpr_written hs]

end

/-- A tree whose text can be read: its ids can be written, it is shaped as
    expressions are, `WITH` follows no id that stands for an exception by
    itself, and the text nests no deeper than the parser admits. -/
structure Printable (e : Expr) : Prop where
  named : e.All IsLicenseName IsName
  shaped : e.Shaped fun id => ¬ IsCombined id
  shallow : nesting '(' ')' e.print.toList ≤ Parser.maxDepth

/-- **Reading the text of a printable tree gives its normal form**, whatever
    the shape of the tree and the case of its ids. -/
theorem parse_print_eq_norm {e : Expr} (h : e.Printable) : parse e.print = .ok e.norm := by
  have hd := h.shallow
  rw [(spells_print h.named).depth] at hd
  exact parse_print_of_shaped h.named h.shaped hd

/-- Chains to the right of their operators, a group, and legacy ids in any case. -/
theorem parse_print_right_deep :
    (compound (license "AND" true) .and (compound (compound (license "gpl-2.0" true) .or
      (compound (license "MIT" false) .withException (exception "FONT-exception"))) .and
        (license "MIT" false))).Printable ∧
    parse (compound (license "AND" true) .and (compound (compound (license "gpl-2.0" true) .or
      (compound (license "MIT" false) .withException (exception "FONT-exception"))) .and
        (license "MIT" false))).print =
      .ok (compound (compound (license "AND" true) .and (compound
        (license "GPL-2.0-or-later" false) .or
          (compound (license "MIT" false) .withException (exception "Font-exception-2.0")))) .and
            (license "MIT" false)) := by
  have hprintable : (compound (license "AND" true) .and (compound (compound
      (license "gpl-2.0" true) .or (compound (license "MIT" false) .withException
        (exception "FONT-exception"))) .and (license "MIT" false))).Printable :=
    { named := by
        simp only [All]
        decide
      shaped := .chain nofun .license
        (.chain nofun (.chain nofun .license (.excepted (by decide))) .license)
      shallow := by rw [print_eq_text]; decide }
  refine ⟨hprintable, (parse_print_eq_norm hprintable).trans ?_⟩
  have hand : resolveLicense "AND" true = license "AND" true :=
    resolveLicense_of_current (by decide)
  have hmit : resolveLicense "MIT" false = license "MIT" false :=
    resolveLicense_of_current (by decide)
  have hgpl : resolveLicense "gpl-2.0" true = license "GPL-2.0-or-later" false :=
    resolveLicense_of_versioned (v := ⟨"GPL-2.0", "GPL-2.0-only", "GPL-2.0-or-later"⟩)
      (by simp [versioned]) (foldCase_eq_iff.2 (by decide)) true
  have hfont : resolveException "FONT-exception" = exception "Font-exception-2.0" :=
    resolveException_of_mem (r := ⟨"Font-exception", "Font-exception-2.0"⟩)
      (by simp [exceptions]) (foldCase_eq_iff.2 (by decide))
  simp only [norm, hand, hmit, hgpl, hfont]
  rfl

end Expr

end LicenseExpr
