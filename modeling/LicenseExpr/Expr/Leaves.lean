/-
  Walks over trees: the postfix listing, the leaves in order, and the license
  ids that a tree refers to.

  * `postorder` lists a tree in postfix order, with a list of pending trees in
    place of recursion; `postorder_compound` says that a compound
    lists its operands and then its operator;
  * `leaves` are the leaves from left to right (`leaves_compound`);
  * `licenseIds` are the license ids in the leaves, ascending and without
    repetition.
-/
import LicenseExpr.Expr.Basic
import LicenseExpr.Text.Order

namespace LicenseExpr

/-- A node of a tree, as it stands in a postfix listing. -/
inductive Node where
  | leaf (l : Leaf)
  | operator (op : Operator)
  deriving DecidableEq

/-- The leaf that a node is, if it is one. -/
def Node.leaf? : Node → Option Leaf
  | leaf l => some l
  | operator _ => none

namespace Expr

/-- Puts the postfix listings of the pending trees, the last one first, in
    front of `listed`. -/
def postorderOnto : List Expr → List Node → List Node
  | [], listed => listed
  | license id orLater :: pending, listed =>
    postorderOnto pending (.leaf (.license id orLater) :: listed)
  | exception id :: pending, listed => postorderOnto pending (.leaf (.exception id) :: listed)
  | compound l op r :: pending, listed =>
    postorderOnto (r :: l :: pending) (.operator op :: listed)
  termination_by pending => sizes pending
  decreasing_by all_goals simp [size]; try omega

/-- The nodes of a tree in postfix order. -/
def postorder (e : Expr) : List Node :=
  postorderOnto [e] []

theorem postorderOnto_append (p q : List Expr) (listed : List Node) :
    postorderOnto (p ++ q) listed = postorderOnto q (postorderOnto p listed) := by
  fun_induction postorderOnto p listed with
  | case1 => rw [List.nil_append]
  | case2 _ _ _ _ ih => rw [← ih, List.cons_append, postorderOnto]
  | case3 _ _ _ ih => rw [← ih, List.cons_append, postorderOnto]
  | case4 _ _ _ _ _ ih => rw [← ih, List.cons_append, postorderOnto]; rfl

/-- What is already listed stays behind. -/
theorem postorderOnto_listed (p : List Expr) (listed more : List Node) :
    postorderOnto p (listed ++ more) = postorderOnto p listed ++ more := by
  fun_induction postorderOnto p listed with
  | case1 => rw [postorderOnto]
  | case2 _ _ _ _ ih => rw [← ih, postorderOnto]; rfl
  | case3 _ _ _ ih => rw [← ih, postorderOnto]; rfl
  | case4 _ _ _ _ _ ih => rw [← ih, postorderOnto]; rfl

@[simp] theorem postorder_license (id : String) (orLater : Bool) :
    (license id orLater).postorder = [.leaf (.license id orLater)] := by
  simp [postorder, postorderOnto]

@[simp] theorem postorder_exception (id : String) :
    (exception id).postorder = [.leaf (.exception id)] := by
  simp [postorder, postorderOnto]

/-- A compound lists its left operand, its right operand, and its operator. -/
@[simp] theorem postorder_compound (l : Expr) (op : Operator) (r : Expr) :
    (compound l op r).postorder = l.postorder ++ r.postorder ++ [.operator op] := by
  rw [postorder, postorderOnto, show [r, l] = [r] ++ [l] from rfl, postorderOnto_append,
    show [Node.operator op] = [] ++ [.operator op] from rfl, postorderOnto_listed [r],
    show postorderOnto [r] [] ++ [Node.operator op] =
      [] ++ (postorderOnto [r] [] ++ [.operator op]) from rfl, postorderOnto_listed [l]]
  simp [postorder]

/-- The leaves of a tree from left to right. -/
def leaves (e : Expr) : List Leaf :=
  e.postorder.filterMap Node.leaf?

@[simp] theorem leaves_license (id : String) (orLater : Bool) :
    (license id orLater).leaves = [.license id orLater] := by
  simp [leaves, Node.leaf?]

@[simp] theorem leaves_exception (id : String) : (exception id).leaves = [.exception id] := by
  simp [leaves, Node.leaf?]

@[simp] theorem leaves_compound (l : Expr) (op : Operator) (r : Expr) :
    (compound l op r).leaves = l.leaves ++ r.leaves := by
  simp [leaves, Node.leaf?]

/-- The license ids of the leaves, ascending and each once. -/
def licenseIds (e : Expr) : List String :=
  sortUnique (e.leaves.filterMap Leaf.licenseId?)

theorem mem_licenseIds {e : Expr} {id : String} :
    id ∈ e.licenseIds ↔ ∃ orLater, Leaf.license id orLater ∈ e.leaves := by
  rw [licenseIds, mem_sortUnique, List.mem_filterMap]
  constructor
  · rintro ⟨leaf, h, hid⟩
    cases leaf with
    | license id' orLater => cases hid; exact ⟨orLater, h⟩
    | exception _ => cases hid
  · rintro ⟨orLater, h⟩
    exact ⟨_, h, rfl⟩

end Expr

end LicenseExpr
