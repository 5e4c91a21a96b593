/-
  How many parentheses an expression needs.

  * `descents e` are the edges of a tree between compounds, and
    `looserOperands e` counts those at which the operand binds strictly looser
    than its parent;
  * `balanced_text` and `count_text`: a printed tree has balanced parentheses,
    one pair for every looser operand;
  * `Derives.looserUnder_le`: tokens that spell a tree open at least as many
    groups, as every looser operand of the tree stands in a group of its own,
    and dissolving groups of one operator makes no other operand looser;
  * `fewest_parentheses`: so no text that is read as a tree has fewer
    parentheses than the canonical one, or fewer of them open at once.
-/
import LicenseExpr.Proofs.RoundTrip

namespace LicenseExpr

open Token (Kind)

/-- There are no parentheses in the text. -/
def NoParentheses (s : String) : Prop :=
  ∀ c ∈ s.toList, c ≠ '(' ∧ c ≠ ')'

instance (s : String) : Decidable (NoParentheses s) :=
  List.decidableBAll (fun c => c ≠ '(' ∧ c ≠ ')') s.toList

theorem NoParentheses.count {s : String} (h : NoParentheses s) : s.toList.count '(' = 0 :=
  List.count_eq_zero.2 fun hc => (h _ hc).1 rfl

namespace Expr

/-! ## Looser operands -/

/-- The edges from a compound down to an operand that is a compound as well:
    the operator of the parent, and that of the operand. -/
def descents : Expr → List (Operator × Operator)
  | license _ _ | exception _ => []
  | compound l op r =>
    l.descents ++ r.descents ++ (l.operator?.toList ++ r.operator?.toList).map (op, ·)

/-- The number of operands that bind strictly looser than their parents. -/
def looserOperands (e : Expr) : Nat :=
  e.descents.countP fun edge => edge.2.precedence < edge.1.precedence

/-- The looser operands of an operand of `parent`, itself included. -/
def looserUnder (parent : Operator) (e : Expr) : Nat :=
  e.looserOperands + if e.needsParens parent then 1 else 0

section
variable {op : Operator}

theorem looserOperands_compound (l : Expr) (op : Operator) (r : Expr) :
    (compound l op r).looserOperands = looserUnder op l + looserUnder op r := by
  have hedge : ∀ e : Expr, (e.operator?.toList.map (op, ·)).countP
      (fun edge => edge.2.precedence < edge.1.precedence) =
        if e.needsParens op then 1 else 0 := by
    intro e
    unfold needsParens
    cases e.operator? with
    | none => rfl
    | some p => simp [List.countP_cons]
  rw [looserOperands, descents, List.map_append, List.countP_append, List.countP_append,
    List.countP_append, hedge, hedge]
  unfold looserUnder looserOperands
  omega

theorem looserUnder_of_operator? {e : Expr} (h : e.operator? = some op) :
    looserUnder op e = e.looserOperands := by
  rw [looserUnder, needsParens_of_operator? h]
  rfl

/-- Nothing is looser than `OR`. -/
theorem looserUnder_or (e : Expr) : looserUnder .or e = e.looserOperands := by
  have : e.needsParens .or = false := by
    unfold needsParens
    cases e.operator? with
    | none => rfl
    | some p => exact decide_eq_false (Nat.not_lt_zero _)
  rw [looserUnder, this]
  rfl

/-- **Dissolving groups of the same operator** makes no operand looser. -/
theorem looserUnder_join (l r : Expr) :
    looserUnder op (leftDeep op l (r.operands op)) = looserUnder op l + looserUnder op r := by
  refine map_join Nat.add_assoc (fun l r => ?_) l r
  rw [looserUnder_of_operator? rfl, looserOperands_compound]

theorem looserUnder_le (op : Operator) (e : Expr) :
    e.looserOperands ≤ looserUnder op e ∧ looserUnder op e ≤ e.looserOperands + 1 := by
  unfold looserUnder
  split <;> omega

end

/-! ## Printed trees -/

section
variable {e : Expr}

theorem balanced_operandText (op : Operator) (h : Balanced '(' ')' e.text.toList) :
    Balanced '(' ')' (e.operandText op).toList := by
  unfold operandText
  split
  · have := h.group (by decide)
    simpa [parenthesized] using this
  · exact h

theorem count_operandText (op : Operator) (e : Expr) :
    (e.operandText op).toList.count '(' =
      e.text.toList.count '(' + if e.needsParens op then 1 else 0 := by
  unfold operandText
  split
  · simp [parenthesized, Nat.add_comm]
  · rfl

theorem infix_not_parenthesis (op : Operator) : NoParentheses (" " ++ op.word ++ " ") := by
  cases op <;> decide

theorem licenseText_not_parenthesis {id : String} (h : NoParentheses id) (orLater : Bool) :
    NoParentheses (licenseText id orLater) := by
  intro c hc
  cases orLater with
  | false => exact h c hc
  | true =>
    have hc : c ∈ (id ++ "+").toList := hc
    rw [String.toList_append, List.mem_append] at hc
    rcases hc with hc | hc
    · exact h c hc
    · cases List.mem_singleton.1 hc
      decide

/-- **Printed parentheses are balanced.** -/
theorem balanced_text (h : e.All (fun id _ => NoParentheses id) NoParentheses) :
    Balanced '(' ')' e.text.toList := by
  induction e with
  | license id orLater => exact .others (licenseText_not_parenthesis h orLater)
  | exception id => exact .others h
  | compound l op r ihl ihr =>
    rw [text_compound, String.toList_append, String.toList_append]
    exact ((balanced_operandText op (ihl h.1)).append (.others (infix_not_parenthesis op))).append
      (balanced_operandText op (ihr h.2))

/-- **There is a pair of parentheses for every looser operand.** -/
theorem count_text (h : e.All (fun id _ => NoParentheses id) NoParentheses) :
    e.text.toList.count '(' = e.looserOperands := by
  induction e with
  | license id orLater => exact (licenseText_not_parenthesis h orLater).count
  | exception id => exact NoParentheses.count h
  | compound l op r ihl ihr =>
    rw [text_compound, String.toList_append, String.toList_append, List.count_append,
      List.count_append, (infix_not_parenthesis op).count, count_operandText, count_operandText,
      ihl h.1, ihr h.2, looserOperands_compound]
    rfl

end

/-! ## Trees that are written -/

theorem looserUnder_resolveLicense (id : String) (plus : Bool) :
    looserUnder .and (resolveLicense id plus) = 0 := by
  obtain ⟨w, p, h | ⟨x, h⟩⟩ := exists_resolveLicense id plus
  · rw [h]; rfl
  · rw [h]; rfl

end Expr

/-- **Tokens open a group for every looser operand** of the tree that they
    spell. -/
theorem Derives.looserUnder_le {layer : Layer} {ks : List Kind} {w : Written}
    (h : Derives Written.isSingle layer ks w) :
    w.toExpr.looserUnder layer.parent ≤ ks.count Kind.opening := by
  induction h with
  | @id word plus => exact Nat.le_of_eq (Expr.looserUnder_resolveLicense word plus)
  | @group ks w _ ih =>
    have hle := (Expr.looserUnder_le .and w.toExpr).2
    rw [Layer.parent, Expr.looserUnder_or] at ih
    rw [List.cons_append, List.count_cons_self, List.count_append]
    show w.toExpr.looserUnder .and ≤ _
    omega
  | term _ ih | conjunction _ ih => exact ih
  | @excepted ks w x _ hsingle _ =>
    obtain ⟨id, orLater, htree⟩ := Written.exists_of_isSingle hsingle
    obtain ⟨y, hy⟩ := exists_resolveException x
    rw [Written.toExpr, htree, hy]
    exact Nat.zero_le _
  | disjunction _ ih =>
    rw [Layer.parent, Expr.looserUnder_or]
    exact Nat.le_trans (Expr.looserUnder_le _ _).1 ih
  | @and ks us v w _ _ ihl ihr =>
    rw [Written.toExpr, Layer.parent, Expr.looserUnder_join, List.count_append,
      List.count_cons_of_ne (by simp)]
    exact Nat.add_le_add ihl ihr
  | @or ks us v w _ _ ihl ihr =>
    have hr : w.toExpr.looserUnder .or ≤ us.count Kind.opening := by
      rw [Expr.looserUnder_or]
      exact Nat.le_trans (Expr.looserUnder_le _ _).1 ihr
    rw [Written.toExpr, Layer.parent, Expr.looserUnder_join, List.count_append,
      List.count_cons_of_ne (by simp)]
    exact Nat.add_le_add ihl hr

/-! ## Texts -/

namespace Expr
variable {e : Expr} {text : String}

theorem Canonical.not_parenthesis (h : e.Canonical) :
    e.All (fun id _ => NoParentheses id) NoParentheses :=
  h.current.imp (fun _ _ hl => hl.1.1.not_parenthesis) fun _ hx => hx.1.1.not_parenthesis

/-- A text that is read as a tree opens as many parentheses as the canonical
    one, or more. -/
theorem count_print_le (h : parse text = .ok e) :
    e.print.toList.count '(' ≤ text.toList.count '(' := by
  obtain ⟨a, ha, rfl⟩ := Analysis.exists_fits h
  obtain ⟨ts, ht, hk⟩ := ha.tokens
  have hle := ha.derived.looserUnder_le
  rw [Layer.parent, looserUnder_or] at hle
  rw [print_eq_text, count_text (canonical_of_parse h).not_parenthesis,
    (Token.tokenize_eq_ok_iff.1 ht).count_opening, hk, List.count_append]
  exact Nat.le_trans hle (Nat.le_add_right _ _)

/-- A text that is read as a tree nests as deep as the canonical one, or
    deeper. -/
theorem nesting_print_le (h : parse text = .ok e) :
    nesting '(' ')' e.print.toList ≤ nesting '(' ')' text.toList := by
  have hc := canonical_of_parse h
  have hnamed : e.All IsLicenseName IsName := hc.current.imp (fun _ _ hl => hl.1) fun _ hx => hx.1
  obtain ⟨a, ha, rfl⟩ := Analysis.exists_fits h
  obtain ⟨ts, ht, hk⟩ := ha.tokens
  have hle := ha.derived.alternationsUnder_le
  rw [Layer.parent, alternationsUnder_or] at hle
  rw [(spells_print hnamed).depth, depth_kinds hc.shaped, (Token.tokenize_eq_ok_iff.1 ht).depth, hk]
  exact Nat.le_trans hle (nesting_prefix_le Token.opening_ne_closing (List.prefix_append _ _))

/-- **The canonical text has the fewest parentheses**: they are balanced, one
    pair for every operand that binds looser than its parent, and no text that
    is read as the tree opens fewer of them, in all or at once. -/
theorem fewest_parentheses (e : Expr) :
    (e.All (fun id _ => NoParentheses id) NoParentheses →
      Balanced '(' ')' e.print.toList ∧ e.print.toList.count '(' = e.looserOperands) ∧
    ∀ text, parse text = .ok e →
      e.print.toList.count '(' ≤ text.toList.count '(' ∧
        nesting '(' ')' e.print.toList ≤ nesting '(' ')' text.toList := by
  refine ⟨fun h => ?_, fun text h => ⟨count_print_le h, nesting_print_le h⟩⟩
  rw [print_eq_text]
  exact ⟨balanced_text h, count_text h⟩

/-- Groups that are needed, groups that are not, and a group of the same
    operator. -/
theorem fewest_parentheses_nested :
    ((compound (compound (compound (license "A" false) .or (license "B" false)) .and
        (license "C" false)) .and (license "D" false)).All
          (fun id _ => NoParentheses id) NoParentheses ∧
      Balanced '(' ')' (compound (compound (compound (license "A" false) .or
        (license "B" false)) .and (license "C" false)) .and (license "D" false)).print.toList ∧
      (compound (compound (compound (license "A" false) .or (license "B" false)) .and
        (license "C" false)) .and (license "D" false)).print.toList.count '(' = 1) ∧
    parse "((A OR B)) AND (C AND (D))" = .ok (compound (compound (compound (license "A" false) .or
      (license "B" false)) .and (license "C" false)) .and (license "D" false)) ∧
    1 ≤ "((A OR B)) AND (C AND (D))".toList.count '(' ∧
    nesting '(' ')' (compound (compound (compound (license "A" false) .or
      (license "B" false)) .and (license "C" false)) .and (license "D" false)).print.toList ≤
        nesting '(' ')' "((A OR B)) AND (C AND (D))".toList := by
  have hnone : (compound (compound (compound (license "A" false) .or (license "B" false)) .and
      (license "C" false)) .and (license "D" false)).All
        (fun id _ => NoParentheses id) NoParentheses := by
    simp only [All]
    decide
  have hd := @Token.Spells.id _ _ "D" false (by decide) (Token.ends_cons (by decide))
    Token.Spells.nil.closing.closing
  have hc := @Token.Spells.id _ _ "C" false (by decide) (Token.ends_cons (by decide))
    (hd.opening.operator .and)
  have hb := @Token.Spells.id _ _ "B" false (by decide) (Token.ends_cons (by decide))
    (hc.opening.operator .and).closing.closing
  have ha := @Token.Spells.id _ _ "A" false (by decide) (Token.ends_cons (by decide))
    (hb.operator .or)
  have hspells : Token.Spells "((A OR B)) AND (C AND (D))".toList _ := ha.opening.opening
  obtain ⟨ts, ht, hk⟩ := hspells.tokenize_eq
  have hread : Parser.machine.read (Token.kinds ts) = .ok (.compound (.group (.group (.compound
      (.id "A" false) .or (.id "B" false)))) .and (.group (.compound (.id "C" false) .and
        (.group (.id "D" false))))) := by
    rw [hk]
    rfl
  have hparse := parse_of_ok ht hread
  have hcurrent : ∀ w, CurrentLicense w false → resolveLicense w false = .license w false :=
    fun w h => resolveLicense_of_current h
  simp only [Written.toExpr, hcurrent "A" (by decide), hcurrent "B" (by decide),
    hcurrent "C" (by decide), hcurrent "D" (by decide)] at hparse
  obtain ⟨hprinted, hread⟩ := fewest_parentheses (compound (compound (compound
    (license "A" false) .or (license "B" false)) .and (license "C" false)) .and
      (license "D" false))
  obtain ⟨hbalanced, hcount⟩ := hprinted hnone
  obtain ⟨hle, hnesting⟩ := hread _ hparse
  have hone : (compound (compound (compound (license "A" false) .or (license "B" false)) .and
      (license "C" false)) .and (license "D" false)).looserOperands = 1 := by decide
  rw [hcount, hone] at hle
  exact ⟨⟨hnone, hbalanced, hcount.trans hone⟩, hparse, hle, hnesting⟩

end Expr

end LicenseExpr
