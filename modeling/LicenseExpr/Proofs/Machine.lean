/-
  A machine that reads tokens one by one.

  The machine keeps, for every open group, what has been read of it (`Frame`)
  and the number of tokens before its `(`.  Its `State` says what may come
  next: an operand, something behind an operand, an exception id, or only
  further closing parentheses behind a complete expression.

  * `step` takes one token and either goes on or refuses; `run` takes a list,
    and `conclude` says what comes of the end of the input;
  * `limit` bounds the number of open groups, and `single` says after what
    `WITH` may stand;
  * `run_append_of_ok`: running over two parts is running over the first, then
    the second;
  * `Refuses` lists the steps that the machine refuses, with the cause and the
    token that is to blame; there are no others (`refuses_of_step`);
  * `State.completion` is a list of tokens that leads from a state to a
    complete expression (`run_completion`), so whatever has been run over
    can be completed.
-/
import LicenseExpr.Proofs.Grammar
import LicenseExpr.SyntaxError

namespace LicenseExpr

/-- What the machine has to know. -/
structure Machine where
  /-- The most groups that may be open at once. -/
  limit : Nat
  /-- What `WITH` may follow. -/
  single : Written → Bool

namespace Machine

open Token (Kind)

/-! ## States -/

/-- What has been read of a group, up to the operand at hand. -/
structure Frame where
  /-- The operands before the last `OR`. -/
  alternatives : Option Written
  /-- The operands behind it and before the last `AND`. -/
  factors : Option Written

/-- A group of which nothing has been read. -/
def Frame.empty : Frame :=
  ⟨none, none⟩

/-- Joins an operand to those before it. -/
def join (op : Operator) (before : Option Written) (w : Written) : Written :=
  match before with
  | none => w
  | some v => .compound v op w

/-- The conjunction that ends with the operand `w`. -/
def Frame.conj (f : Frame) (w : Written) : Written :=
  join .and f.factors w

/-- The whole of the group, if it ends with the operand `w`. -/
def Frame.close (f : Frame) (w : Written) : Written :=
  join .or f.alternatives (f.conj w)

/-- The groups around the one that is being read, the innermost first, each
    with the number of tokens before the `(` that interrupted it. -/
abbrev Outer := List (Frame × Nat)

/-- What has been read, and what may come next. -/
inductive State where
  /-- An operand has to come. -/
  | operand (f : Frame) (outer : Outer)
  /-- The operand `w` has been read. -/
  | behind (f : Frame) (w : Written) (outer : Outer)
  /-- `WITH` has been read behind `w`; an exception id has to come. -/
  | excepting (f : Frame) (w : Written) (outer : Outer)
  /-- The expression `w` is complete, and closing parentheses without
      partners follow, the first one behind `place` tokens. -/
  | surplus (w : Written) (place : Nat)

/-- The number of open groups. -/
def State.depth : State → Nat
  | operand _ outer | behind _ _ outer | excepting _ _ outer => outer.length
  | surplus _ _ => 0

/-- Nothing has been read. -/
def start : State :=
  .operand .empty []

/-! ## Steps -/

/-- A refusal: the cause, and the number of tokens before the offending one
    (all of them at the end of the input). -/
structure Refusal where
  cause : SyntaxError.Cause
  place : Nat

variable (M : Machine)

/-- Reads a token behind `p` others. -/
def step (p : Nat) : State → Kind → Except Refusal State
  | .operand f outer, .id word plus => .ok (.behind f (.id word plus) outer)
  | .operand f outer, .opening =>
    if M.limit ≤ outer.length then .error ⟨.nestingTooDeep, p⟩
    else .ok (.operand .empty ((f, p) :: outer))
  | .operand _ outer, .closing =>
    .error ⟨if outer.length = 0 then .unmatchedParenthesis else .unexpectedToken, p⟩
  | .operand _ _, .operator _ => .error ⟨.unexpectedOperator, p⟩
  | .behind f w outer, .operator .and => .ok (.operand ⟨f.alternatives, some (f.conj w)⟩ outer)
  | .behind f w outer, .operator .or => .ok (.operand ⟨some (f.close w), none⟩ outer)
  | .behind f w outer, .operator .withException =>
    if w.isAtom && M.single w then .ok (.excepting f w outer)
    else .error ⟨.invalidWithOperand, p⟩
  | .behind f w [], .closing => .ok (.surplus (f.close w) p)
  | .behind f w ((g, _) :: outer), .closing => .ok (.behind g (.group (f.close w)) outer)
  | .behind _ _ _, .id _ _ => .error ⟨.unexpectedToken, p⟩
  | .behind _ _ _, .opening => .error ⟨.unexpectedToken, p⟩
  | .excepting f w outer, .id word false => .ok (.behind f (.excepted w word) outer)
  | .excepting _ _ _, _ => .error ⟨.expectedException, p⟩
  | .surplus w q, .closing => .ok (.surplus w q)
  | .surplus _ q, _ => .error ⟨.unmatchedParenthesis, q⟩

/-- Reads tokens behind `p` others. -/
def run : Nat → State → List Kind → Except Refusal State
  | _, s, [] => .ok s
  | p, s, k :: ks =>
    match M.step p s k with
    | .ok s' => run (p + 1) s' ks
    | .error e => .error e

/-- What comes of the end of an input of `n` tokens. -/
def conclude (n : Nat) : State → Except Refusal Written
  | .operand _ _ => .error ⟨.unexpectedEnd, n⟩
  | .behind f w [] => .ok (f.close w)
  | .behind _ _ ((_, q) :: _) => .error ⟨.unmatchedParenthesis, q⟩
  | .excepting _ _ _ => .error ⟨.expectedException, n⟩
  | .surplus w _ => .ok w

/-- Reads a whole input. -/
def read (ks : List Kind) : Except Refusal Written :=
  match M.run 0 start ks with
  | .ok s => conclude ks.length s
  | .error e => .error e

/-! ## Runs -/

variable {M} {p : Nat} {s s' : State} {ks us : List Kind}

theorem run_nil : M.run p s [] = .ok s := rfl

theorem run_cons_of_ok {k : Kind} (h : M.step p s k = .ok s') :
    M.run p s (k :: ks) = M.run (p + 1) s' ks := by
  rw [run, h]

theorem run_cons_of_error {k : Kind} {e : Refusal} (h : M.step p s k = .error e) :
    M.run p s (k :: ks) = .error e := by
  rw [run, h]

theorem run_append_of_ok (h : M.run p s ks = .ok s') :
    M.run p s (ks ++ us) = M.run (p + ks.length) s' us := by
  induction ks generalizing p s with
  | nil => cases h; rfl
  | cons k ks ih =>
    rw [List.cons_append, run]
    rw [run] at h
    cases hk : M.step p s k with
    | error e => rw [hk] at h; cases h
    | ok t =>
      rw [hk] at h
      simp only
      rw [ih h, List.length_cons, Nat.add_assoc, Nat.add_comm 1]

theorem run_append_of_error {e : Refusal} (h : M.run p s ks = .error e) :
    M.run p s (ks ++ us) = .error e := by
  induction ks generalizing p s with
  | nil => cases h
  | cons k ks ih =>
    rw [List.cons_append, run]
    rw [run] at h
    cases hk : M.step p s k with
    | error e' => rw [hk] at h; exact h
    | ok t => rw [hk] at h; exact ih h

/-- If a list has been run over, so have its beginnings. -/
theorem run_of_append (h : M.run p s (ks ++ us) = .ok s') : ∃ t, M.run p s ks = .ok t := by
  cases hk : M.run p s ks with
  | ok t => exact ⟨t, rfl⟩
  | error e => rw [run_append_of_error hk] at h; cases h

/-- A refused list is refused at a first token: what stands before it has
    been run over, and the step at it is refused. -/
theorem exists_step_error {e : Refusal} (h : M.run p s ks = .error e) :
    ∃ us k vs t, ks = us ++ k :: vs ∧ M.run p s us = .ok t ∧
      M.step (p + us.length) t k = .error e := by
  induction ks generalizing p s with
  | nil => cases h
  | cons k ks ih =>
    rw [run] at h
    cases hk : M.step p s k with
    | error e' =>
      rw [hk] at h
      cases h
      exact ⟨[], k, ks, s, rfl, rfl, hk⟩
    | ok t =>
      rw [hk] at h
      obtain ⟨us, k', vs, t', rfl, hus, hk'⟩ := ih h
      refine ⟨k :: us, k', vs, t', rfl, by rw [run_cons_of_ok hk]; exact hus, ?_⟩
      rw [List.length_cons, ← Nat.add_assoc, Nat.add_right_comm]
      exact hk'

/-! ## Refused steps -/

/-- The machine, in a state behind `p` tokens, refuses a token. -/
inductive Refuses (M : Machine) (p : Nat) : State → Kind → Refusal → Prop
  | tooDeep {f outer} : M.limit ≤ outer.length →
      Refuses M p (.operand f outer) .opening ⟨.nestingTooDeep, p⟩
  | unmatched {f} : Refuses M p (.operand f []) .closing ⟨.unmatchedParenthesis, p⟩
  | closing {f gq outer} : Refuses M p (.operand f (gq :: outer)) .closing ⟨.unexpectedToken, p⟩
  | operator {f outer op} : Refuses M p (.operand f outer) (.operator op) ⟨.unexpectedOperator, p⟩
  | id {f w outer word plus} : Refuses M p (.behind f w outer) (.id word plus) ⟨.unexpectedToken, p⟩
  | opening {f w outer} : Refuses M p (.behind f w outer) .opening ⟨.unexpectedToken, p⟩
  | withException {f w outer} : (w.isAtom && M.single w) = false →
      Refuses M p (.behind f w outer) (.operator .withException) ⟨.invalidWithOperand, p⟩
  | exception {f w outer k} : (∀ word, k ≠ .id word false) →
      Refuses M p (.excepting f w outer) k ⟨.expectedException, p⟩
  | surplus {w q k} : k ≠ .closing → Refuses M p (.surplus w q) k ⟨.unmatchedParenthesis, q⟩

section
variable {k : Kind} {e : Refusal}

theorem Refuses.step_eq (h : Refuses M p s k e) : M.step p s k = .error e := by
  cases h with
  | tooDeep hl => exact if_pos hl
  | unmatched | closing | operator => rfl
  | @id _ _ outer | @opening _ _ outer => cases outer <;> rfl
  | withException hw => rw [step, hw]; rfl
  | exception hk =>
    cases k with
    | id word plus =>
      cases plus with
      | true => rfl
      | false => exact absurd rfl (hk word)
    | operator | opening | closing => rfl
  | surplus hk =>
    cases k with
    | closing => exact absurd rfl hk
    | id | operator | opening => rfl

theorem refuses_of_step (h : M.step p s k = .error e) : Refuses M p s k e := by
  cases s with
  | operand f outer =>
    cases k with
    | id => cases h
    | operator => cases h; exact .operator
    | opening =>
      rw [step] at h
      split at h
      · next hl => cases h; exact .tooDeep hl
      · cases h
    | closing =>
      cases outer with
      | nil => cases h; exact .unmatched
      | cons => cases h; exact .closing
  | behind f w outer =>
    cases k with
    | id => cases outer <;> cases h <;> exact .id
    | opening => cases outer <;> cases h <;> exact .opening
    | closing => cases outer <;> cases h
    | operator op =>
      cases op with
      | and | or => cases h
      | withException =>
        rw [step] at h
        split at h
        · cases h
        · next hw => cases h; exact .withException (Bool.eq_false_iff.2 hw)
  | excepting f w outer =>
    cases k with
    | id word plus =>
      cases plus with
      | true => cases h; exact .exception nofun
      | false => cases h
    | operator | opening | closing => cases h; exact .exception nofun
  | surplus w q =>
    cases k with
    | closing => cases h
    | id | operator | opening => cases h; exact .surplus nofun

/-- **Where a step refuses**: at the token that it reads, unless a complete
    expression has closing parentheses too many behind it, which are then to
    blame. -/
theorem step_error (h : M.step p s k = .error e) :
    e.place = p ∧ (e.cause = .unmatchedParenthesis → k = .closing) ∨
      ∃ w, s = .surplus w e.place ∧ e.cause = .unmatchedParenthesis ∧ k ≠ .closing := by
  cases refuses_of_step h with
  | surplus hk => exact Or.inr ⟨_, rfl, rfl, hk⟩
  | unmatched => exact Or.inl ⟨rfl, fun _ => rfl⟩
  | _ => exact Or.inl ⟨rfl, nofun⟩

end

/-! ## Completions -/

/-- Tokens that complete an expression, wherever reading stands. -/
def State.completion : State → List Kind
  | operand _ outer | excepting _ _ outer =>
    .id "MIT" false :: List.replicate outer.length .closing
  | behind _ _ outer => List.replicate outer.length .closing
  | surplus _ _ => []

theorem run_closings (f : Frame) (w : Written) (outer : Outer) (p : Nat) :
    ∃ g v, M.run p (.behind f w outer) (List.replicate outer.length .closing) =
      .ok (.behind g v []) := by
  induction outer generalizing f w p with
  | nil => exact ⟨f, w, rfl⟩
  | cons fq outer ih =>
    obtain ⟨g, q⟩ := fq
    rw [List.length_cons, List.replicate_succ, run_cons_of_ok rfl]
    exact ih g _ _

/-- **Every state can be completed.** -/
theorem run_completion (s : State) (p : Nat) :
    ∃ t w, M.run p s s.completion = .ok t ∧ ∀ n, conclude n t = .ok w := by
  cases s with
  | operand f outer =>
    obtain ⟨g, v, h⟩ := run_closings (M := M) f (.id "MIT" false) outer (p + 1)
    exact ⟨_, _, by rw [State.completion, run_cons_of_ok rfl]; exact h, fun _ => rfl⟩
  | excepting f w outer =>
    obtain ⟨g, v, h⟩ := run_closings (M := M) f (.excepted w "MIT") outer (p + 1)
    exact ⟨_, _, by rw [State.completion, run_cons_of_ok rfl]; exact h, fun _ => rfl⟩
  | behind f w outer =>
    obtain ⟨g, v, h⟩ := run_closings (M := M) f w outer p
    exact ⟨_, _, h, fun _ => rfl⟩
  | surplus w q => exact ⟨_, _, rfl, fun _ => rfl⟩

end Machine

end LicenseExpr
