/-
  What a text says about the grouping of a tree: nothing.

  * `regroup e` groups the chains of `e` to the left (`Shaped.grouped_regroup`),
    and resolves no id;
  * `text_regroup`: regrouping does not change the text of a tree;
  * `skeleton_written`: a tree whose chains are grouped to the left can be
    recovered from the expression that its text spells, so such trees are told
    apart by their texts (`eq_of_print_eq`), at any depth;
  * `print_eq_print_iff`: the texts of two trees agree exactly if the trees
    do, up to the grouping of chains.
-/
import LicenseExpr.Proofs.NormalForm

namespace LicenseExpr

open Machine (Joins)

namespace Expr

/-! ## Regrouping -/

/-- The tree with its chains grouped to the left. -/
def regroup : Expr → Expr
  | license id orLater => license id orLater
  | exception id => exception id
  | compound l .withException r => compound l.regroup .withException r.regroup
  | compound l op r => leftDeep op l.regroup (r.regroup.operands op)

section
variable {P : String → Prop} {L : String → Bool → Prop} {X : String → Prop} {op : Operator}
  {e f l r : Expr}

theorem regroup_compound (hop : op ≠ .withException) (l r : Expr) :
    (compound l op r).regroup = leftDeep op l.regroup (r.regroup.operands op) := by
  cases op with
  | and | or => rfl
  | withException => exact absurd rfl hop

theorem All.regroup (h : e.All L X) : e.regroup.All L X := by
  induction e with
  | license | exception => exact h
  | compound l op r ihl ihr =>
    by_cases hop : op = .withException
    · subst hop
      exact ⟨ihl h.1, ihr h.2⟩
    · rw [regroup_compound hop]
      exact (ihl h.1).leftDeep (ihr h.2).operands

theorem Shaped.regroup (h : e.Shaped P) : e.regroup.Shaped P := by
  induction h with
  | license => exact .license
  | excepted hp => exact .excepted hp
  | chain hop _ _ ihl ihr =>
    rw [regroup_compound hop]
    exact ihl.leftDeep hop (ihr.operands hop)

/-- **Regrouped chains are grouped to the left.** -/
theorem Shaped.grouped_regroup (h : e.Shaped P) : e.regroup.Grouped := by
  induction h with
  | license => exact trivial
  | excepted => exact ⟨nofun, trivial, trivial⟩
  | chain hop _ _ ihl ihr =>
    rw [regroup_compound hop]
    exact ihl.join ihr

theorem operator?_regroup (e : Expr) : e.regroup.operator? = e.operator? := by
  cases e with
  | license | exception => rfl
  | compound l op r =>
    by_cases hop : op = .withException
    · subst hop
      rfl
    · rw [regroup_compound hop, operator?_join, operator?]

/-! ## Texts of chains -/

theorem needsParens_congr (h : e.operator? = f.operator?) (parent : Operator) :
    e.needsParens parent = f.needsParens parent := by
  rw [needsParens, needsParens, h]

/-- A chain needs no parentheses under its own operator. -/
theorem operandText_of_operator? (h : e.operator? = some op) : e.operandText op = e.text := by
  rw [operandText, needsParens_of_operator? h]
  rfl

/-- **Dissolving groups of the same operator keeps the text.** -/
theorem text_join (l r : Expr) :
    (leftDeep op l (r.operands op)).text =
      l.operandText op ++ (" " ++ op.word ++ " ") ++ r.operandText op := by
  rw [← operandText_of_operator? (operator?_join l r)]
  refine @map_join op _ _ (fun s t => s ++ (" " ++ op.word ++ " ") ++ t) ?_ ?_ l r
  · intro a b c
    simp only [String.append_assoc]
  · intro l r
    rw [operandText_of_operator? rfl, text_compound]

theorem operandText_congr (ht : e.text = f.text) (ho : e.operator? = f.operator?)
    (parent : Operator) : e.operandText parent = f.operandText parent := by
  rw [operandText, operandText, needsParens_congr ho, ht]

/-- **Regrouping does not change the text.** -/
theorem text_regroup (e : Expr) : e.regroup.text = e.text := by
  induction e with
  | license | exception => rfl
  | compound l op r ihl ihr =>
    have hl := operandText_congr ihl (operator?_regroup l) op
    have hr := operandText_congr ihr (operator?_regroup r) op
    by_cases hop : op = .withException
    · subst hop
      rw [regroup, text_compound, text_compound, hl, hr]
    · rw [regroup_compound hop, text_join, hl, hr, text_compound]

end

end Expr

/-! ## Recovering a tree -/

/-- What is written, without its parentheses and with its ids as they stand. -/
def Written.skeleton : Written → Expr
  | id word plus => .license word plus
  | excepted w x => .compound w.skeleton .withException (.exception x)
  | group w => w.skeleton
  | compound l op r => .compound l.skeleton op r.skeleton

namespace Expr

theorem skeleton_grouped (op : Operator) (e : Expr) (w : Written) :
    (grouped op e w).skeleton = w.skeleton := by
  rw [grouped]
  split <;> rfl

/-- A tree whose chains are grouped to the left is **what its text spells**. -/
theorem skeleton_written {P : String → Prop} {e : Expr} (hs : e.Shaped P) (hg : e.Grouped) :
    e.written.skeleton = e := by
  induction hs with
  | license => rfl
  | excepted => rfl
  | @chain l op r hop _ _ ihl ihr =>
    obtain ⟨sub, layer, hj⟩ := exists_joins hop
    obtain ⟨hroot, hl, hr⟩ := hg
    have hleft := (skeleton_grouped op l l.written).trans (ihl hl)
    have hright := (skeleton_grouped op r r.written).trans (ihr hr)
    have hchain : ¬ (grouped op r r.written).IsChain op := by
      rintro ⟨a, b, hab⟩
      rw [hab] at hright
      exact hroot (hright ▸ rfl)
    rw [written_compound hj, Written.graft_of_not_isChain hchain, Written.skeleton, hleft, hright]

/-- A tree with ids that can be written and with exceptions where they belong. -/
structure Writable (e : Expr) : Prop where
  named : e.All IsLicenseName IsName
  shaped : e.Shaped fun _ => True

variable {e f : Expr}

theorem Writable.regroup (h : e.Writable) : e.regroup.Writable :=
  ⟨h.named.regroup, h.shaped.regroup⟩

/-- Trees with the same text have the same tokens. -/
theorem kinds_eq_of_print_eq (he : e.Writable) (hf : f.Writable) (h : e.print = f.print) :
    e.kinds = f.kinds := by
  obtain ⟨ts, ht, hk⟩ := (spells_print he.named).tokenize_eq
  obtain ⟨us, hu, hl⟩ := (spells_print hf.named).tokenize_eq
  rw [h, hu] at ht
  cases ht
  exact hk.symm.trans hl

/-- **Trees whose chains are grouped to the left are told apart by their
    texts**, as the grammar is unambiguous. -/
theorem eq_of_print_eq (he : e.Writable) (hf : f.Writable) (hge : e.Grouped) (hgf : f.Grouped)
    (h : e.print = f.print) : e = f := by
  have hde : Derives (fun _ => true) .disjunction e.kinds e.written :=
    (derives_written (fun _ _ _ => rfl) he.shaped).to_disjunction
  have hdf : Derives (fun _ => true) .disjunction f.kinds f.written :=
    (derives_written (fun _ _ _ => rfl) hf.shaped).to_disjunction
  rw [kinds_eq_of_print_eq he hf h] at hde
  have hw : e.written = f.written := Machine.derives_unique hde hdf
  rw [← skeleton_written he.shaped hge, hw, skeleton_written hf.shaped hgf]

/-- **The text of a tree says everything but the grouping of its chains.** -/
theorem print_eq_print_iff (he : e.Writable) (hf : f.Writable) :
    e.print = f.print ↔ e.regroup = f.regroup := by
  have hpe : e.regroup.print = e.print := by rw [print_eq_text, print_eq_text, text_regroup]
  have hpf : f.regroup.print = f.print := by rw [print_eq_text, print_eq_text, text_regroup]
  constructor
  · intro h
    rw [← hpe, ← hpf] at h
    exact eq_of_print_eq he.regroup hf.regroup he.shaped.grouped_regroup
      hf.shaped.grouped_regroup h
  · intro h
    rw [← hpe, ← hpf, h]

/-- Two groupings of chains inside of one another. -/
theorem print_eq_print_nested :
    (compound (license "OR" true) .and (compound (license "A" false) .and
      (compound (license "B" false) .or (compound (license "C" false) .or
        (compound (license "D" false) .withException (exception "X")))))).Writable ∧
    (compound (compound (license "OR" true) .and (license "A" false)) .and
      (compound (compound (license "B" false) .or (license "C" false)) .or
        (compound (license "D" false) .withException (exception "X")))).Writable ∧
    (compound (license "OR" true) .and (compound (license "A" false) .and
      (compound (license "B" false) .or (compound (license "C" false) .or
        (compound (license "D" false) .withException (exception "X")))))).print =
    (compound (compound (license "OR" true) .and (license "A" false)) .and
      (compound (compound (license "B" false) .or (license "C" false)) .or
        (compound (license "D" false) .withException (exception "X")))).print := by
  have hname : IsLicenseName "OR" true ∧ (∀ w ∈ ["A", "B", "C", "D"], IsLicenseName w false) ∧
      IsName "X" := by decide
  obtain ⟨hor, hplain, hx⟩ := hname
  have ha := hplain "A" (by simp)
  have hb := hplain "B" (by simp)
  have hc := hplain "C" (by simp)
  have hd := hplain "D" (by simp)
  have hexcepted : (compound (license "D" false) .withException (exception "X")).Shaped
      fun _ => True := .excepted trivial
  have hright : Writable (compound (license "OR" true) .and (compound (license "A" false) .and
      (compound (license "B" false) .or (compound (license "C" false) .or
        (compound (license "D" false) .withException (exception "X")))))) :=
    ⟨⟨hor, ha, hb, hc, hd, hx⟩, .chain nofun .license (.chain nofun .license
      (.chain nofun .license (.chain nofun .license hexcepted)))⟩
  have hleft : Writable (compound (compound (license "OR" true) .and (license "A" false)) .and
      (compound (compound (license "B" false) .or (license "C" false)) .or
        (compound (license "D" false) .withException (exception "X")))) :=
    ⟨⟨⟨hor, ha⟩, ⟨hb, hc⟩, hd, hx⟩, .chain nofun (.chain nofun .license .license)
      (.chain nofun (.chain nofun .license .license) hexcepted)⟩
  exact ⟨hright, hleft, (print_eq_print_iff hright hleft).2 rfl⟩

end Expr

end LicenseExpr
