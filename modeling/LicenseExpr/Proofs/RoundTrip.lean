/-
  The trees that the parser returns.

  * a `Normal` tree has current ids, the shape of an expression, and chains
    that are grouped to the left; a `Canonical` tree is normal and alternates
    no more than the parser nests;
  * `Derives.normal` and `Derives.alternationsUnder_le`: what is derived from
    the tokens of a text stands for such a tree;
  * `Normal.norm_eq`: such a tree is its own normal form;
  * `canonical_iff`: so canonical trees are what the parser returns, and
    printing loses nothing of them.
-/
import LicenseExpr.Proofs.Language
import LicenseExpr.Proofs.NormalForm

namespace LicenseExpr

open Token (Kind)
open Machine (Joins)

namespace Expr

/-! ## Normal trees -/

/-- A tree with ids that stand for themselves and with chains that are
    grouped to the left. -/
structure Normal (e : Expr) : Prop where
  current : e.All CurrentLicense CurrentException
  shaped : e.Shaped fun _ => True
  grouped : e.Grouped

namespace Normal
variable {e l r : Expr} {op : Operator} {id : String} {plus : Bool}

theorem license (h : CurrentLicense id plus) : (license id plus).Normal :=
  ⟨h, .license, trivial⟩

theorem excepted {x : String} (h : CurrentLicense id plus) (hx : CurrentException x) :
    (compound (.license id plus) .withException (exception x)).Normal :=
  ⟨⟨h, hx⟩, .excepted trivial, nofun, trivial, trivial⟩

/-- Joining operands to a chain keeps it normal. -/
theorem chain (hop : op ≠ .withException) (hl : l.Normal) (hr : r.Normal) :
    (leftDeep op l (r.operands op)).Normal where
  current := hl.current.leftDeep hr.current.operands
  shaped := hl.shaped.leftDeep hop (hr.shaped.operands hop)
  grouped := hl.grouped.join hr.grouped

end Normal

/-! ## Resolved ids -/

theorem normal_resolveLicense {id : String} {plus : Bool} (h : IsLicenseName id plus) :
    (resolveLicense id plus).Normal := by
  rcases resolveLicense_cases id plus with ⟨c, hc, hr⟩ | ⟨hc, hr⟩
  · obtain ⟨hn, hc'⟩ := license_combined c hc plus
    obtain ⟨w, p, hw, hcur⟩ := resolveVersioned_current hn hc'
    rw [hr, hw]
    exact .excepted hcur (current_exception_combined c hc)
  · obtain ⟨w, p, hw, hcur⟩ := resolveVersioned_current h hc
    rw [hr, hw]
    exact .license hcur

theorem alternationsUnder_resolveLicense (id : String) (plus : Bool) :
    alternationsUnder .and (resolveLicense id plus) = 0 := by
  obtain ⟨w, p, h | ⟨x, h⟩⟩ := exists_resolveLicense id plus
  · rw [h]; rfl
  · rw [h]; rfl

end Expr

/-! ## Derived trees -/

/-- The operator that an expression of the layer may stand under without
    parentheses. -/
def Layer.parent : Layer → Operator
  | .atom | .term | .conjunction => .and
  | .disjunction => .or

namespace Derives
variable {single : Written → Bool} {layer : Layer} {ks : List Kind} {w : Written}

/-- **What is derived from the tokens of a text stands for a normal tree.** -/
theorem normal (h : Derives Written.isSingle layer ks w) (hk : ∀ k ∈ ks, k.Lexical) :
    w.toExpr.Normal := by
  induction h with
  | id => exact Expr.normal_resolveLicense (hk _ List.mem_cons_self)
  | group _ ih =>
    exact ih fun k h => hk k (List.mem_append_left _ (List.mem_cons_of_mem _ h))
  | term _ ih | conjunction _ ih | disjunction _ ih => exact ih hk
  | @excepted ks w x _ hsingle ih =>
    obtain ⟨hks, hx⟩ := List.forall_mem_append.1 hk
    have hw := ih hks
    have hname : IsLicenseName x false := hx _ (List.mem_cons_of_mem _ List.mem_cons_self)
    obtain ⟨x', hx', hcur⟩ := resolveException_current ⟨hname.1, hname.2 rfl⟩
    obtain ⟨id, plus, htree⟩ := Written.exists_of_isSingle hsingle
    rw [htree] at hw
    rw [Written.toExpr, htree, hx']
    exact .excepted hw.current hcur
  | and _ _ ihl ihr =>
    obtain ⟨hl, hr⟩ := List.forall_mem_append.1 hk
    exact .chain (by decide) (ihl hl) (ihr (List.forall_mem_cons.1 hr).2)
  | or _ _ ihl ihr =>
    obtain ⟨hl, hr⟩ := List.forall_mem_append.1 hk
    exact .chain (by decide) (ihl hl) (ihr (List.forall_mem_cons.1 hr).2)

/-- **A derived tree alternates at most as deep as its tokens nest.** -/
theorem alternationsUnder_le (h : Derives single layer ks w) :
    w.toExpr.alternationsUnder layer.parent ≤ Token.depth ks := by
  have both : ∀ {a b c d : Nat}, a ≤ b → c ≤ d → max a c ≤ max b d := by omega
  induction h with
  | @id word plus => exact Nat.le_of_eq (Expr.alternationsUnder_resolveLicense word plus)
  | @group ks w hw ih =>
    rw [Layer.parent, Expr.alternationsUnder_or] at ih
    rw [hw.depth_group]
    exact Nat.add_le_add ih (Expr.edge_le_one _ _)
  | term _ ih | conjunction _ ih => exact ih
  | @excepted ks w x hw _ ih =>
    obtain ⟨y, hy⟩ := exists_resolveException x
    rw [hw.depth_infix, Written.toExpr, hy, Expr.alternationsUnder_excepted]
    exact Nat.le_trans (Nat.le_trans (Expr.alternations_le _ _) ih) (Nat.le_max_left _ _)
  | disjunction _ ih =>
    rw [Layer.parent, Expr.alternationsUnder_or]
    exact Nat.le_trans (Expr.alternations_le _ _) ih
  | and hv _ ihv ihw =>
    rw [hv.depth_infix, Written.toExpr, Layer.parent, Expr.alternationsUnder_join]
    exact both ihv ihw
  | @or ks us v w hv _ ihv ihw =>
    have hw : w.toExpr.alternationsUnder .or ≤ Token.depth us := by
      rw [Expr.alternationsUnder_or]
      exact Nat.le_trans (Expr.alternations_le _ _) ihw
    rw [hv.depth_infix, Written.toExpr, Layer.parent, Expr.alternationsUnder_join]
    exact both ihv hw

end Derives

/-! ## Canonical trees -/

namespace Expr
variable {e : Expr}

/-- **A normal tree is its own normal form.** -/
theorem Normal.norm_eq (h : e.Normal) : e.norm = e := by
  obtain ⟨hc, hs, hg⟩ := h
  induction hs with
  | license => exact resolveLicense_of_current hc
  | excepted =>
    rw [norm, norm, norm, resolveLicense_of_current hc.1, resolveException_of_current hc.2]
  | @chain l op r hop _ _ ihl ihr =>
    obtain ⟨sub, layer, hj⟩ := exists_joins hop
    obtain ⟨hroot, hl, hr⟩ := hg
    rw [norm_compound hj, ihl hc.1 hl, ihr hc.2 hr, operands_of_ne hroot, leftDeep_cons,
      leftDeep_nil]

/-- A normal tree that alternates no more than the parser nests. -/
structure Canonical (e : Expr) : Prop extends Normal e where
  shallow : e.alternations ≤ Parser.maxDepth

/-- The parser returns canonical trees only. -/
theorem canonical_of_parse {text : String} (h : parse text = .ok e) : e.Canonical := by
  obtain ⟨⟨ks, n, w⟩, ⟨⟨ts, ht, hk⟩, hd, hn⟩, rfl⟩ := Analysis.exists_fits h
  have hlex : ∀ k ∈ ks, k.Lexical := by
    intro k hkk
    have hmem : k ∈ Token.kinds ts := hk ▸ List.mem_append_left _ hkk
    obtain ⟨t, htt, rfl⟩ := List.mem_map.1 hmem
    exact (Token.tokenize_eq_ok_iff.1 ht).lexical t htt
  refine ⟨hd.normal hlex, ?_⟩
  have := hd.alternationsUnder_le
  rw [Layer.parent, alternationsUnder_or] at this
  exact Nat.le_trans this hn

/-- The text of a canonical tree is read as the tree itself. -/
theorem Canonical.parse_print (h : e.Canonical) : parse e.print = .ok e := by
  have hnamed : e.All IsLicenseName IsName := h.current.imp (fun _ _ hl => hl.1) fun _ hx => hx.1
  have hshaped : e.Shaped fun id => ¬ Legacy.IsCombined id :=
    h.shaped.of_all h.current fun _ _ hl => hl.2.2
  have hd : Token.depth e.kinds ≤ Parser.maxDepth := by
    rw [depth_kinds h.shaped]
    exact h.shallow
  rw [parse_print_of_shaped hnamed hshaped hd, h.norm_eq]

/-- **Exact image and round trip**: canonical trees are those that their own
    text is read as, and they are all that the parser returns. -/
theorem canonical_iff (e : Expr) :
    (e.Canonical ↔ parse e.print = .ok e) ∧ (e.Canonical ↔ ∃ text, parse text = .ok e) := by
  constructor
  · exact ⟨Canonical.parse_print, canonical_of_parse⟩
  · constructor
    · intro h
      exact ⟨e.print, h.parse_print⟩
    · rintro ⟨text, h⟩
      exact canonical_of_parse h

end Expr

end LicenseExpr
