/-
  The tokens of a printed tree.

  * `kinds e` are the kinds of the tokens of the text of `e`
    (`spells_text`), with an operand in parentheses where the printer puts
    them;
  * `written e` is the expression that is spelled: printing drops the
    parentheses around a chain to the right of its own operator, so the chain
    is grafted onto what stands before it;
  * `derives_written`: the grammar derives `written e` from `kinds e`, for
    every shaped tree;
  * `depth_kinds`: as many parentheses are open at once as the tree
    alternates.
-/
import LicenseExpr.Expr.Printer
import LicenseExpr.Proofs.Recognition
import LicenseExpr.Proofs.Spelling
import LicenseExpr.Proofs.TreeShape

namespace LicenseExpr

open Token (Kind Ends Spells)
open Machine (Joins)

/-! ## Grafting -/

namespace Written
variable {op : Operator} {v w : Written}

/-- Puts `v` in front of the operands of `op` in `w`. -/
def graft (op : Operator) (v : Written) : Written → Written
  | compound l p r =>
    if p = op then compound (graft op v l) op r else compound v op (compound l p r)
  | w => compound v op w

/-- The expression is a compound of `op`, not in parentheses. -/
def IsChain (op : Operator) (w : Written) : Prop :=
  ∃ l r, w = compound l op r

theorem graft_compound (l r : Written) :
    graft op v (compound l op r) = compound (graft op v l) op r := by
  rw [graft, if_pos rfl]

theorem graft_of_not_isChain (h : ¬ w.IsChain op) : graft op v w = compound v op w := by
  cases w with
  | id | excepted | group => rfl
  | compound l p r =>
    rw [graft, if_neg]
    rintro rfl
    exact h ⟨l, r, rfl⟩

/-- **Grafting stands for joining** the operands of the right side one by one. -/
theorem toExpr_graft (v w : Written) :
    (graft op v w).toExpr = Expr.leftDeep op v.toExpr (w.toExpr.operands op) := by
  induction w with
  | id | excepted | group => rfl
  | compound l p r ihl _ =>
    by_cases hp : p = op
    · subst hp
      rw [graft_compound, toExpr, ihl, toExpr,
        Expr.operands_leftDeep _ fun o ho => Expr.operator?_of_mem_operands ho,
        Expr.leftDeep_append]
    · have : ¬ (compound l p r).IsChain op := by
        rintro ⟨l', r', h⟩
        cases h
        exact hp rfl
      rw [graft_of_not_isChain this, toExpr]

end Written

section
variable {single : Written → Bool} {op : Operator} {sub layer : Layer} {ks us : List Kind}
  {v w : Written}

/-- An operand behind a chain and its operator. -/
theorem Derives.join (hj : Joins op sub layer) (hv : Derives single layer ks v)
    (hw : Derives single sub us w) :
    Derives single layer (ks ++ .operator op :: us) (.compound v op w) := by
  cases hj with
  | and => exact .and hv hw
  | or => exact .or hv hw

/-- A chain is a single operand, or a chain with an operand behind it. -/
theorem Derives.operand_or_join (hj : Joins op sub layer) (h : Derives single layer us w) :
    Derives single sub us w ∧ ¬ w.IsChain op ∨
      ∃ us₁ us₂ l r, us = us₁ ++ .operator op :: us₂ ∧ w = .compound l op r ∧
        Derives single layer us₁ l ∧ Derives single sub us₂ r := by
  cases hj with
  | and =>
    cases h with
    | conjunction h =>
      refine Or.inl ⟨h, ?_⟩
      rintro ⟨l, r, rfl⟩
      cases h with
      | term h => cases h
    | and hl hr => exact Or.inr ⟨_, _, _, _, rfl, rfl, hl, hr⟩
  | or =>
    cases h with
    | disjunction h =>
      refine Or.inl ⟨h, ?_⟩
      rintro ⟨l, r, rfl⟩
      cases h with
      | conjunction h =>
        cases h with
        | term h => cases h
    | or hl hr => exact Or.inr ⟨_, _, _, _, rfl, rfl, hl, hr⟩

/-- A chain behind a chain and its operator. -/
theorem Derives.graft (hj : Joins op sub layer) (hv : Derives single layer ks v)
    (hw : Derives single layer us w) :
    Derives single layer (ks ++ .operator op :: us) (v.graft op w) := by
  induction hn : sizeOf w using Nat.strongRecOn generalizing us w with
  | _ n ih =>
    obtain ⟨hw, hc⟩ | ⟨us₁, us₂, l, r, rfl, rfl, hl, hr⟩ := hw.operand_or_join hj
    · rw [Written.graft_of_not_isChain hc]
      exact hv.join hj hw
    · have hlt : sizeOf l < n := by
        rw [← hn, Written.compound.sizeOf_spec]
        omega
      have := (ih _ hlt hl rfl).join hj hr
      rwa [Written.graft_compound, ← List.cons_append, ← List.append_assoc]

/-- Every layer is within the loosest. -/
theorem Derives.to_disjunction (h : Derives single layer ks w) :
    Derives single .disjunction ks w := by
  cases layer with
  | atom => exact .disjunction (.conjunction (.term h))
  | term => exact .disjunction (.conjunction h)
  | conjunction => exact .disjunction h
  | disjunction => exact h

theorem Derives.to_conjunction (hl : layer ≠ .disjunction) (h : Derives single layer ks w) :
    Derives single .conjunction ks w := by
  cases layer with
  | atom => exact .conjunction (.term h)
  | term => exact .conjunction h
  | conjunction => exact h
  | disjunction => exact absurd rfl hl

end

namespace Expr

/-! ## Printed tokens -/

/-- The text of an operand of `parent`, in parentheses or not. -/
def operandText (parent : Operator) (e : Expr) : String :=
  if e.needsParens parent then parenthesized e.text else e.text

theorem text_compound (l : Expr) (op : Operator) (r : Expr) :
    (compound l op r).text =
      l.operandText op ++ (" " ++ op.word ++ " ") ++ r.operandText op := rfl

/-- The tokens of an operand of `parent`, in parentheses or not. -/
def enclosed (parent : Operator) (e : Expr) (ks : List Kind) : List Kind :=
  if e.needsParens parent then .opening :: ks ++ [.closing] else ks

/-- The kinds of the tokens of the printed tree. -/
def kinds : Expr → List Kind
  | license id orLater => [.id id orLater]
  | exception id => [.id id false]
  | compound l op r => enclosed op l l.kinds ++ .operator op :: enclosed op r r.kinds

section
variable {e : Expr} {cs : List Char} {ks : List Kind}

theorem spells_enclosed (parent : Operator) (he : ∀ cs ks, Ends cs → Spells cs ks →
    Spells (e.text.toList ++ cs) (e.kinds ++ ks)) (hcs : Ends cs) (h : Spells cs ks) :
    Spells ((e.operandText parent).toList ++ cs) (enclosed parent e e.kinds ++ ks) := by
  rw [operandText, enclosed]
  split
  · have := (he _ _ (Token.ends_cons (by decide)) h.closing).opening
    simpa [parenthesized] using this
  · exact he cs ks hcs h

/-- **The text of a tree has its tokens**, before anything that does not go
    on with the last of them. -/
theorem spells_text (he : e.All IsLicenseName IsName) (cs : List Char) (ks : List Kind)
    (hcs : Ends cs) (h : Spells cs ks) : Spells (e.text.toList ++ cs) (e.kinds ++ ks) := by
  induction e generalizing cs ks with
  | license id orLater => exact Spells.id he hcs h
  | exception id =>
    have hn : IsName id := he
    have hword : (exception id).text = (Kind.id id false).text := rfl
    rw [hword]
    exact Spells.id (hn.isLicenseName false) hcs h
  | compound l op r ihl ihr =>
    have hr := spells_enclosed op (ihr he.2) hcs h
    have hop := hr.operator op
    have hl := spells_enclosed op (ihl he.1) (Token.ends_cons (by decide)) hop
    simpa [text_compound, kinds] using hl

end

/-! ## What is printed -/

/-- The layer of the grammar that a printed tree is of. -/
def layer (e : Expr) : Layer :=
  match e.operator? with
  | some .or => .disjunction
  | some .and => .conjunction
  | _ => .term

/-- An operand of `parent` as it is written, in parentheses or not. -/
def grouped (parent : Operator) (e : Expr) (w : Written) : Written :=
  if e.needsParens parent then .group w else w

/-- The expression that the text of a tree spells. -/
def written : Expr → Written
  | license id orLater => .id id orLater
  | exception id => .id id false
  | compound l .withException (exception x) => .excepted l.written x
  | compound l op r => (grouped op l l.written).graft op (grouped op r r.written)

section
variable {single : Written → Bool} {P : String → Prop} {op : Operator} {sub layer : Layer}
  {e l r : Expr}

theorem exists_joins (h : op ≠ .withException) : ∃ sub layer, Joins op sub layer := by
  cases op with
  | and => exact ⟨_, _, .and⟩
  | or => exact ⟨_, _, .or⟩
  | withException => exact absurd rfl h

theorem layer_compound (hj : Joins op sub layer) : (compound l op r).layer = layer := by
  cases hj <;> rfl

theorem written_compound (hj : Joins op sub layer) :
    (compound l op r).written = (grouped op l l.written).graft op (grouped op r r.written) := by
  cases hj <;> rfl

/-- Parentheses are needed around an `OR` below an `AND`. -/
theorem needsParens_iff (hj : Joins op sub layer) :
    e.needsParens op = true ↔ op = .and ∧ e.operator? = some .or := by
  unfold needsParens
  cases e.operator? with
  | none => simp
  | some p => cases hj <;> cases p <;> simp [Operator.precedence]

/-- No parentheses are needed under the same operator. -/
theorem needsParens_of_operator? (h : e.operator? = some op) : e.needsParens op = false := by
  rw [needsParens, h]
  exact decide_eq_false (Nat.lt_irrefl _)

theorem derives_operand (hj : Joins op sub layer) (h : Derives single e.layer e.kinds e.written) :
    Derives single layer (enclosed op e e.kinds) (grouped op e e.written) := by
  rw [enclosed, grouped]
  split
  · have hgroup := Derives.group h.to_disjunction
    cases hj with
    | and => exact .conjunction (.term hgroup)
    | or => exact hgroup.to_disjunction
  · next hn =>
    cases hj with
    | or => exact h.to_disjunction
    | and =>
      refine h.to_conjunction fun hl => hn ((needsParens_iff .and).2 ⟨rfl, ?_⟩)
      unfold Expr.layer at hl
      split at hl
      · assumption
      · cases hl
      · cases hl

/-- **Printed tokens are derived**, if `WITH` may follow the ids in `P`. -/
theorem derives_written (hP : ∀ id plus, P id → single (.id id plus) = true) (h : e.Shaped P) :
    Derives single e.layer e.kinds e.written := by
  induction h with
  | license => exact .term .id
  | excepted hp => exact .excepted .id (hP _ _ hp)
  | @chain l op r hop _ _ ihl ihr =>
    obtain ⟨sub, layer, hj⟩ := exists_joins hop
    rw [layer_compound hj, written_compound hj, kinds]
    exact (derives_operand hj ihl).graft hj (derives_operand hj ihr)

/-! ## Depth -/

theorem depth_enclosed (hj : Joins op sub layer) (h : Derives single e.layer e.kinds e.written) :
    Token.depth (enclosed op e e.kinds) = Token.depth e.kinds + edge op e := by
  have hp := needsParens_iff (e := e) hj
  rw [enclosed, edge]
  split
  · next hn => rw [if_pos (hp.1 hn), h.depth_group]
  · next hn => rw [if_neg fun hc => hn (hp.2 hc), Nat.add_zero]

/-- **Printing nests as deep as the tree alternates.** -/
theorem depth_kinds (h : e.Shaped P) : Token.depth e.kinds = e.alternations := by
  have hd : ∀ e : Expr, e.Shaped P → Derives (fun _ => true) e.layer e.kinds e.written :=
    fun e he => derives_written (fun _ _ _ => rfl) he
  induction h with
  | license => rfl
  | excepted => rfl
  | @chain l op r hop hl hr ihl ihr =>
    obtain ⟨sub, layer, hj⟩ := exists_joins hop
    have hleft := derives_operand hj (hd l hl)
    rw [kinds, hleft.depth_infix, depth_enclosed hj (hd l hl), depth_enclosed hj (hd r hr), ihl,
      ihr, alternations]

end

end Expr

end LicenseExpr
