/-
  How a tree is appended to a chain.

  * `chainTurn` is one turn of the loop that does it: the next pending tree
    becomes an operand of the chain, or it is a group of the chain's own
    operator and gives way to its two sides;
  * `ChainsGrouped e`: no chain of `AND` or `OR` in `e` stands to the right of
    its own operator;
  * `chain_appends`: for any two trees the loop ends with the left fold over the
    operands, every group that it meets comes apart, and so appending is
    associative and keeps chains grouped.
-/
import LicenseExpr.Proofs.Loop
import LicenseExpr.Proofs.Operands

namespace LicenseExpr

namespace Expr

variable {op : Operator} {e l r built : Expr} {pending : List Expr}

/-! ## The loop of appending -/

/-- One turn of appending under `op`.  The state is the chain that has been
    built and the trees that are pending, with the next one at its head. -/
def chainTurn (op : Operator) : Expr × List Expr → Turn (Expr × List Expr) Expr
  | (built, []) => .leave built
  | (built, e :: pending) =>
    if e.operator? ≠ some op then .next (compound built op e, pending)
    else
      match e.parts? with
      | some (l, _, r) => .next (built, l :: r :: pending)
      | none => .next (compound built op e, pending)

theorem chainTurn_operand (h : e.operator? ≠ some op) :
    chainTurn op (built, e :: pending) = .next (compound built op e, pending) :=
  if_pos h

theorem chainTurn_group (l r : Expr) :
    chainTurn op (built, compound l op r :: pending) = .next (built, l :: r :: pending) :=
  if_neg (not_not_intro rfl)

theorem chainOnto_operand (h : e.operator? ≠ some op) :
    chainOnto op built (e :: pending) = chainOnto op (compound built op e) pending := by
  cases e with
  | license | exception =>
    rw [chainOnto]
    rintro l o r ⟨⟩
  | compound l o r =>
    have ho : o ≠ op := fun ho => h (congrArg some ho)
    rw [chainOnto, if_neg ho]

theorem chainOnto_group (l r : Expr) :
    chainOnto op built (compound l op r :: pending) = chainOnto op built (l :: r :: pending) := by
  rw [chainOnto, if_pos rfl]

/-- Appending is the loop of these turns, each of which takes a node off what is
    pending. -/
theorem computedBy_chainTurn (op : Operator) : Loop.ComputedBy (chainTurn op)
    (fun s => sizes s.2) (fun s => chainOnto op s.1 s.2) where
  keeps := by
    rintro ⟨built, _ | ⟨e, pending⟩⟩
    · rw [chainOnto, chainTurn, Turn.value]
    by_cases he : e.operator? = some op
    · obtain ⟨l, r, rfl⟩ := exists_of_operator? he
      rw [chainTurn_group, Turn.value, chainOnto_group]
    · rw [chainTurn_operand he, Turn.value, chainOnto_operand he]
  shrinks := by
    rintro ⟨built, _ | ⟨e, pending⟩⟩ t h
    · cases h
    by_cases he : e.operator? = some op
    · obtain ⟨l, r, rfl⟩ := exists_of_operator? he
      rw [chainTurn_group] at h
      cases h
      simp only [sizes_cons, size]
      omega
    · rw [chainTurn_operand he] at h
      cases h
      have hpos := size_pos e
      simp only [sizes_cons]
      omega

/-! ## Grouping -/

/-- Nowhere in the tree does a compound of `AND` or of `OR` stand to the right
    of its own operator.  For `WITH` nothing is asked. -/
def ChainsGrouped : Expr → Prop
  | license _ _ | exception _ => True
  | compound l op r =>
    (op ≠ .withException → r.operator? ≠ some op) ∧ l.ChainsGrouped ∧ r.ChainsGrouped

/-- Appending leaves no group of its own operator to the right. -/
theorem ChainsGrouped.chain (hl : l.ChainsGrouped) (hr : r.ChainsGrouped) :
    (chain l op r).ChainsGrouped := by
  rw [chain_eq_leftDeep]
  refine leftDeep_rec (Q := fun o => o.operator? ≠ some op ∧ o.ChainsGrouped) ?_ hl ?_
  · rintro a o ha ⟨hop, ho⟩
    exact ⟨fun _ => hop, ha, ho⟩
  · intro o ho
    have hgrouped : ∀ o ∈ r.operands op, o.ChainsGrouped :=
      forall_mem_operands (fun _ _ h => h.2) hr
    exact ⟨operator?_of_mem_operands ho, hgrouped o ho⟩

/-! ## Appending -/

theorem chain_assoc (a b c : Expr) :
    chain (chain a op b) op c = chain a op (chain b op c) := by
  simp only [chain_eq_leftDeep]
  exact join_assoc a b c

/-- **Appending is a left fold over operands.**  For any two trees the loop
    ends with it, and in whatever state a tree of the chain's operator comes
    up, it has two sides to give way to.  So appending is associative, and it
    groups to the left what it is given grouped to the left. -/
theorem chain_appends (l : Expr) (op : Operator) (r : Expr) :
    (∃ n, n ≤ r.size + 1 ∧ ∀ t, Loop.Ends (chainTurn op) (l, [r]) n t ↔ t = chain l op r) ∧
    (∀ built e pending, e.operator? = some op → ∃ a b, e.parts? = some (a, op, b) ∧
      chainTurn op (built, e :: pending) = .next (built, a :: b :: pending)) ∧
    chain l op r = (r.operands op).foldl (fun a b => compound a op b) l ∧
    (∀ c, chain (chain l op r) op c = chain l op (chain r op c)) ∧
    (l.ChainsGrouped → r.ChainsGrouped → (chain l op r).ChainsGrouped) := by
  refine ⟨?_, ?_, chain_eq_foldl l op r, chain_assoc l r, ChainsGrouped.chain⟩
  · have hends := (computedBy_chainTurn op).ends (l, [r])
    simpa only [sizes_cons, sizes_nil, Nat.add_zero, chain] using hends
  · intro built e pending he
    obtain ⟨a, b, rfl⟩ := exists_of_operator? he
    exact ⟨a, b, rfl, chainTurn_group a b⟩

/-- Two trees that are grouped to the left, of which the second is a group of
    the operator: its operands are appended one by one. -/
theorem chain_appends_group :
    (chain (compound (license "A" false) .and (license "B" false)) .and
      (compound (compound (license "C" false) .or (license "D" true)) .and
        (license "E" false))).ChainsGrouped ∧
    chain (compound (license "A" false) .and (license "B" false)) .and
      (compound (compound (license "C" false) .or (license "D" true)) .and (license "E" false)) =
    compound (compound (compound (license "A" false) .and (license "B" false)) .and
      (compound (license "C" false) .or (license "D" true))) .and (license "E" false) := by
  obtain ⟨-, -, hfold, -, hgrouped⟩ := chain_appends
    (compound (license "A" false) .and (license "B" false)) .and
    (compound (compound (license "C" false) .or (license "D" true)) .and (license "E" false))
  refine ⟨hgrouped ?_ ?_, hfold.trans rfl⟩
  · simp [ChainsGrouped, operator?]
  · simp [ChainsGrouped, operator?]

end Expr

end LicenseExpr
