/-
  Loops, turn by turn.

  * a `Turn` of a loop goes on with another state, or leaves the loop with a
    result;
  * `Ends turn s n r`: from the state `s`, the `n`-th turn leaves the loop with
    the result `r`;
  * `Reaches turn s t`: from the state `s`, some turns lead to the state `t`;
  * a function is `ComputedBy` a loop if no turn that goes on changes its value
    and a turn that leaves gives it; where every turn that goes on makes the
    state smaller, the loop ends with the value of the function
    (`ComputedBy.ends`), and with nothing else (`Ends.unique`); the value is
    the same in every state that is reached (`ComputedBy.value_eq`).
-/
import Mathlib.Logic.Relation

namespace LicenseExpr

/-- What comes of one turn of a loop. -/
inductive Turn (σ ρ : Type) where
  /-- The loop goes on with this state. -/
  | next (s : σ)
  /-- The loop is left with this result. -/
  | leave (r : ρ)

variable {σ ρ : Type}

/-- The value of `f` after a turn, or the result if it leaves the loop. -/
def Turn.value (f : σ → ρ) : Turn σ ρ → ρ
  | next s => f s
  | leave r => r

namespace Loop

/-- From a state, the loop is left with a result, at the turn of this number. -/
inductive Ends (turn : σ → Turn σ ρ) : σ → Nat → ρ → Prop
  | leave {s r} : turn s = .leave r → Ends turn s 1 r
  | next {s t n r} : turn s = .next t → Ends turn t n r → Ends turn s (n + 1) r

/-- From a state, the loop comes to another one, after any number of turns. -/
def Reaches (turn : σ → Turn σ ρ) : σ → σ → Prop :=
  Relation.ReflTransGen fun s t => turn s = .next t

/-- Every turn keeps the value of `f`, and makes the state smaller if the loop
    goes on. -/
structure ComputedBy (turn : σ → Turn σ ρ) (size : σ → Nat) (f : σ → ρ) : Prop where
  keeps : ∀ s, f s = (turn s).value f
  shrinks : ∀ s t, turn s = .next t → size t < size s

section
variable {turn : σ → Turn σ ρ} {size : σ → Nat} {f : σ → ρ} {s t : σ} {n m : Nat} {r q : ρ}

/-- **A loop ends only once**, and in one way. -/
theorem Ends.unique (h : Ends turn s n r) (h' : Ends turn s m q) : n = m ∧ r = q := by
  induction h generalizing m with
  | leave hr =>
    cases h' with
    | leave hq => rw [hr] at hq; cases hq; exact ⟨rfl, rfl⟩
    | next ht => rw [hr] at ht; cases ht
  | next ht _ ih =>
    cases h' with
    | leave hq => rw [ht] at hq; cases hq
    | next ht' h' =>
      rw [ht] at ht'
      cases ht'
      obtain ⟨rfl, rfl⟩ := ih h'
      exact ⟨rfl, rfl⟩

theorem ComputedBy.exists_ends (h : ComputedBy turn size f) (s : σ) :
    ∃ n, n ≤ size s + 1 ∧ Ends turn s n (f s) := by
  induction hs : size s using Nat.strongRecOn generalizing s with
  | _ k ih =>
    subst hs
    have hkeeps := h.keeps s
    cases ht : turn s with
    | leave r =>
      rw [ht] at hkeeps
      exact ⟨1, Nat.le_add_left 1 _, .leave (hkeeps ▸ ht)⟩
    | next t =>
      rw [ht] at hkeeps
      have hlt := h.shrinks s t ht
      obtain ⟨n, hn, hend⟩ := ih _ hlt t rfl
      exact ⟨n + 1, by omega, .next ht (hkeeps ▸ hend)⟩

/-- **The loop ends with the value**, after at most as many turns as the size
    allows. -/
theorem ComputedBy.ends (h : ComputedBy turn size f) (s : σ) :
    ∃ n, n ≤ size s + 1 ∧ ∀ r, Ends turn s n r ↔ r = f s := by
  obtain ⟨n, hn, hend⟩ := h.exists_ends s
  exact ⟨n, hn, fun r => ⟨fun hr => (hr.unique hend).2, fun hr => hr ▸ hend⟩⟩

/-- **The value is an invariant of the loop.** -/
theorem ComputedBy.value_eq (h : ComputedBy turn size f) (hr : Reaches turn s t) : f t = f s := by
  induction hr with
  | refl => rfl
  | @tail t u _ ht ih =>
    have hkeeps : f t = f u := by rw [h.keeps t, ht, Turn.value]
    rw [← hkeeps, ih]

end

end Loop

end LicenseExpr
