/-
  Operands of chains.

  * `leftDeep op first os` joins `first` and the operands `os` under `op`,
    from left to right; `Expr.chain` is the case in which the operands are
    those of one tree (`chain_eq_leftDeep`);
  * `operands_leftDeep`: the operands of such a chain are those of `first`
    and then `os`, if no member of `os` is itself a compound of `op`;
  * `groupRec` is induction on a tree as a group of `op`, whose two sides are
    such trees again, down to the operands;
  * `leftDeep_rec` and `forall_mem_operands` carry a property of trees from
    the operands to the chain and from a tree to its operands;
  * `map_join`: what an associative operation computes of compounds, it
    computes of chains, so dissolving groups does not change it.
-/
import LicenseExpr.Expr.Chain

namespace LicenseExpr

namespace Expr

variable {op : Operator}

/-- The chain of `first` and the operands `os` under `op`, grouped to the
    left. -/
def leftDeep (op : Operator) (first : Expr) (os : List Expr) : Expr :=
  os.foldl (fun l r => compound l op r) first

theorem leftDeep_nil (first : Expr) : leftDeep op first [] = first := rfl

theorem leftDeep_cons (first o : Expr) (os : List Expr) :
    leftDeep op first (o :: os) = leftDeep op (compound first op o) os := rfl

theorem leftDeep_append (first : Expr) (os ps : List Expr) :
    leftDeep op first (os ++ ps) = leftDeep op (leftDeep op first os) ps :=
  List.foldl_append

/-- Appending to a chain is joining it with the operands of the other side. -/
theorem chain_eq_leftDeep (l : Expr) (op : Operator) (r : Expr) :
    chain l op r = leftDeep op l (r.operands op) :=
  chain_eq_foldl l op r

/-- What holds of the first operand, and of a compound as soon as it holds of
    the left side and `Q` of the right, holds of a chain with operands in `Q`. -/
theorem leftDeep_rec {P Q : Expr → Prop}
    (step : ∀ l r, P l → Q r → P (compound l op r)) {first : Expr} {os : List Expr}
    (hf : P first) (hos : ∀ o ∈ os, Q o) : P (leftDeep op first os) := by
  induction os generalizing first with
  | nil => exact hf
  | cons o os ih =>
    have ho : Q o := hos o List.mem_cons_self
    exact ih (step _ _ hf ho) fun o' h => hos o' (List.mem_cons_of_mem _ h)

/-! ## The operands of a tree -/

/-- A tree is a compound of `op`, for which its two sides are considered, or it
    has another root. -/
@[elab_as_elim]
theorem groupRec {P : Expr → Prop} (op : Operator)
    (single : ∀ e : Expr, e.operator? ≠ some op → P e)
    (group : ∀ l r, P l → P r → P (compound l op r)) (e : Expr) : P e := by
  induction e with
  | license => exact single _ nofun
  | exception => exact single _ nofun
  | compound l o r ihl ihr =>
    by_cases ho : o = op
    · exact ho ▸ group l r ihl ihr
    · exact single _ fun h => ho (Option.some.inj h)

/-- A tree with an operator comes apart. -/
theorem exists_of_operator? {e : Expr} (h : e.operator? = some op) :
    ∃ l r, e = compound l op r := by
  induction e using groupRec op with
  | single e he => exact absurd h he
  | group l r => exact ⟨l, r, rfl⟩

theorem operands_compound_self (l r : Expr) :
    (compound l op r).operands op = l.operands op ++ r.operands op := by
  simp [operands]

theorem operands_of_ne {e : Expr} (h : e.operator? ≠ some op) : e.operands op = [e] := by
  cases e with
  | license | exception => rfl
  | compound l o r =>
    have ho : o ≠ op := fun ho => h (congrArg some ho)
    simp [operands, ho]

theorem operands_ne_nil (op : Operator) (e : Expr) : e.operands op ≠ [] := by
  induction e using groupRec op with
  | single e he =>
    rw [operands_of_ne he]
    exact List.cons_ne_nil e []
  | group l r ihl _ =>
    rw [operands_compound_self]
    exact List.append_ne_nil_of_left_ne_nil ihl _

/-- Joining a tree to a chain gives a compound of its operator. -/
theorem operator?_join (l r : Expr) : (leftDeep op l (r.operands op)).operator? = some op := by
  obtain h | ⟨os, o, h⟩ := List.eq_nil_or_concat (r.operands op)
  · exact absurd h (operands_ne_nil op r)
  · rw [h, List.concat_eq_append, leftDeep_append]
    rfl

/-- No operand of `op` is itself a compound of `op`. -/
theorem operator?_of_mem_operands {e o : Expr} (h : o ∈ e.operands op) :
    o.operator? ≠ some op := by
  induction e using groupRec op with
  | single e he =>
    rw [operands_of_ne he, List.mem_singleton] at h
    exact h ▸ he
  | group l r ihl ihr =>
    rw [operands_compound_self] at h
    rcases List.mem_append.1 h with h | h
    · exact ihl h
    · exact ihr h

/-- What passes from a compound of `op` to both sides passes to every operand. -/
theorem forall_mem_operands {P : Expr → Prop}
    (split : ∀ l r, P (compound l op r) → P l ∧ P r) {e : Expr} (h : P e) :
    ∀ o ∈ e.operands op, P o := by
  induction e using groupRec op with
  | single e he =>
    rw [operands_of_ne he, List.forall_mem_singleton]
    exact h
  | group l r ihl ihr =>
    obtain ⟨hl, hr⟩ := split l r h
    rw [operands_compound_self, List.forall_mem_append]
    exact ⟨ihl hl, ihr hr⟩

/-- **The operands of a chain** are those of its beginning, and then the
    operands that it was joined with. -/
theorem operands_leftDeep (first : Expr) {os : List Expr} (h : ∀ o ∈ os, o.operator? ≠ some op) :
    (leftDeep op first os).operands op = first.operands op ++ os := by
  induction os generalizing first with
  | nil => rw [leftDeep_nil, List.append_nil]
  | cons o os ih =>
    have ho : o.operands op = [o] := operands_of_ne (h o List.mem_cons_self)
    rw [leftDeep_cons, ih _ fun o' h' => h o' (List.mem_cons_of_mem _ h'),
      operands_compound_self, ho, List.append_assoc, List.singleton_append]

/-! ## Joining a tree to a chain -/

/-- **What compounds of `op` combine, chains combine**: a value of trees that
    an associative operation gives for a compound of `op` is also given for
    two sides that have been joined, whatever groups have been dissolved. -/
theorem map_join {β : Type} {f : Expr → β} {combine : β → β → β}
    (assoc : ∀ a b c, combine (combine a b) c = combine a (combine b c))
    (split : ∀ l r, f (compound l op r) = combine (f l) (f r)) (l r : Expr) :
    f (leftDeep op l (r.operands op)) = combine (f l) (f r) := by
  induction r using groupRec op generalizing l with
  | single r hr => rw [operands_of_ne hr, leftDeep_cons, leftDeep_nil, split]
  | group r₁ r₂ ih₁ ih₂ =>
    rw [operands_compound_self, leftDeep_append, ih₂, ih₁, assoc, split]

/-- Joining is associative. -/
theorem join_assoc (l m r : Expr) :
    leftDeep op (leftDeep op l (m.operands op)) (r.operands op) =
      leftDeep op l ((leftDeep op m (r.operands op)).operands op) := by
  rw [operands_leftDeep m fun o ho => operator?_of_mem_operands ho, leftDeep_append]

end Expr

end LicenseExpr
