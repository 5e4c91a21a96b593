/-
  Shapes of trees.

  * `All L X e`: the licenses of `e` are in `L` and its exceptions in `X`;
  * `Shaped P e`: exceptions stand only to the right of `WITH`, and to the
    left of it stands a single license with an id in `P`;
  * `Grouped e`: no chain stands to the right of its own operator;
  * `alternations e` is the largest number of edges from an `AND` down to an
    `OR` on a path through `e`;
  * joining operands to a chain keeps all of them, and a chain hands them
    down to its operands.
-/
import LicenseExpr.Proofs.Operands

namespace LicenseExpr

namespace Expr

/-! ## Leaves -/

/-- The licenses are in `L`, and the exceptions are in `X`. -/
def All (L : String → Bool → Prop) (X : String → Prop) : Expr → Prop
  | license id orLater => L id orLater
  | exception id => X id
  | compound l _ r => l.All L X ∧ r.All L X

section
variable {L M : String → Bool → Prop} {X Y : String → Prop} {op : Operator} {e first : Expr}
  {os : List Expr}

theorem All.imp (hL : ∀ id plus, L id plus → M id plus) (hX : ∀ id, X id → Y id)
    (h : e.All L X) : e.All M Y := by
  induction e with
  | license => exact hL _ _ h
  | exception => exact hX _ h
  | compound l op r ihl ihr => exact ⟨ihl h.1, ihr h.2⟩

theorem All.leftDeep (hf : first.All L X) (hos : ∀ o ∈ os, o.All L X) :
    (leftDeep op first os).All L X :=
  leftDeep_rec (Q := (·.All L X)) (fun _ _ hl hr => ⟨hl, hr⟩) hf hos

theorem All.operands (h : e.All L X) : ∀ o ∈ e.operands op, o.All L X :=
  forall_mem_operands (fun _ _ h => h) h

end

/-! ## Exceptions -/

/-- An exception stands only behind `WITH`, and `WITH` only between a license
    with an id in `P` and an exception. -/
inductive Shaped (P : String → Prop) : Expr → Prop
  | license {id orLater} : Shaped P (.license id orLater)
  | excepted {id orLater x} : P id →
      Shaped P (.compound (.license id orLater) .withException (.exception x))
  | chain {l op r} : op ≠ .withException → Shaped P l → Shaped P r →
      Shaped P (.compound l op r)

section
variable {P Q : String → Prop} {op : Operator} {e first : Expr} {os : List Expr}

/-- What holds of every license holds of those before `WITH`. -/
theorem Shaped.of_all {L : String → Bool → Prop} {X : String → Prop} (h : e.Shaped P)
    (ha : e.All L X) (hLQ : ∀ id plus, L id plus → Q id) : e.Shaped Q := by
  induction h with
  | license => exact .license
  | excepted => exact .excepted (hLQ _ _ ha.1)
  | chain hop _ _ ihl ihr => exact .chain hop (ihl ha.1) (ihr ha.2)

theorem Shaped.leftDeep (hop : op ≠ .withException) (hf : first.Shaped P)
    (hos : ∀ o ∈ os, o.Shaped P) : (leftDeep op first os).Shaped P :=
  leftDeep_rec (Q := (·.Shaped P)) (fun _ _ hl hr => .chain hop hl hr) hf hos

theorem Shaped.operands (hop : op ≠ .withException) (h : e.Shaped P) :
    ∀ o ∈ e.operands op, o.Shaped P := by
  refine forall_mem_operands (fun l r h => ?_) h
  cases h with
  | excepted => exact absurd rfl hop
  | chain _ hl hr => exact ⟨hl, hr⟩

end

/-! ## Grouping -/

/-- Chains are grouped to the left. -/
def Grouped : Expr → Prop
  | license _ _ | exception _ => True
  | compound l op r => r.operator? ≠ some op ∧ l.Grouped ∧ r.Grouped

section
variable {op : Operator} {e first : Expr} {os : List Expr}

theorem Grouped.leftDeep (hf : first.Grouped)
    (hos : ∀ o ∈ os, o.operator? ≠ some op ∧ o.Grouped) : (leftDeep op first os).Grouped :=
  leftDeep_rec (Q := fun o => o.operator? ≠ some op ∧ o.Grouped)
    (fun _ _ hl hr => ⟨hr.1, hl, hr.2⟩) hf hos

theorem Grouped.operands (h : e.Grouped) : ∀ o ∈ e.operands op, o.Grouped :=
  forall_mem_operands (fun _ _ h => h.2) h

theorem Grouped.join {l r : Expr} (hl : l.Grouped) (hr : r.Grouped) :
    (Expr.leftDeep op l (r.operands op)).Grouped :=
  hl.leftDeep fun o ho => ⟨operator?_of_mem_operands ho, hr.operands o ho⟩

end

/-! ## Alternations -/

/-- 1 for the edge from an `AND` down to an `OR`, and 0 for any other. -/
def edge (parent : Operator) (e : Expr) : Nat :=
  if parent = .and ∧ e.operator? = some .or then 1 else 0

/-- The largest number of edges from an `AND` down to an `OR` on a path from
    the root to a leaf. -/
def alternations : Expr → Nat
  | license _ _ | exception _ => 0
  | compound l op r => max (l.alternations + edge op l) (r.alternations + edge op r)

/-- The alternations of an operand of `parent`, with the edge that leads to it. -/
def alternationsUnder (parent : Operator) (e : Expr) : Nat :=
  e.alternations + edge parent e

section
variable {op : Operator}

theorem edge_le_one (op : Operator) (e : Expr) : edge op e ≤ 1 := by
  rw [edge]
  split <;> omega

/-- Only an edge to an `OR` counts. -/
theorem edge_of_ne (h : e.operator? ≠ some .or) : edge op e = 0 :=
  if_neg fun hc => h hc.2

theorem edge_or (e : Expr) : edge .or e = 0 :=
  if_neg fun hc => nomatch hc.1

theorem alternationsUnder_or (e : Expr) : alternationsUnder .or e = e.alternations := by
  rw [alternationsUnder, edge_or, Nat.add_zero]

theorem alternations_le (op : Operator) (e : Expr) : e.alternations ≤ alternationsUnder op e :=
  Nat.le_add_right _ _

/-- An exception adds no alternation. -/
theorem alternationsUnder_excepted (l : Expr) (x : String) :
    alternationsUnder op (compound l .withException (exception x)) = l.alternations := by
  have hedge : ∀ e, edge .withException e = 0 := fun e => if_neg fun hc => nomatch hc.1
  have hroot : (compound l .withException (exception x)).operator? ≠ some .or := nofun
  rw [alternationsUnder, edge_of_ne hroot, alternations, hedge, hedge]
  exact Nat.max_zero _

/-- A chain alternates as its operands do, also as an operand of its own
    operator. -/
theorem alternationsUnder_compound (l r : Expr) :
    alternationsUnder op (compound l op r) =
      max (alternationsUnder op l) (alternationsUnder op r) := by
  have : edge op (compound l op r) = 0 := by
    refine if_neg fun hc => ?_
    obtain ⟨rfl, ho⟩ := hc
    cases ho
  rw [alternationsUnder, this, Nat.add_zero]
  rfl

/-- Dissolving groups of the same operator adds no alternation. -/
theorem alternationsUnder_join (l r : Expr) :
    alternationsUnder op (leftDeep op l (r.operands op)) =
      max (alternationsUnder op l) (alternationsUnder op r) :=
  map_join Nat.max_assoc alternationsUnder_compound l r

end

end Expr

end LicenseExpr
