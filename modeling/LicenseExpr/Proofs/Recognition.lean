/-
  The machine recognises the grammar.

  * `run_of_derives`: over derived tokens the machine goes from an operand to
    be read to an operand that has been read, in whatever groups it stands;
  * `State.Reads s ks` says what the tokens before a state are, frame by
    frame; every step keeps it (`step_reads`), and so does a run
    (`run_reads`);
  * `read_eq_ok_iff`: the machine accepts exactly the derived lists of
    tokens, with any number of closing parentheses behind them;
  * `derives_unique`: tokens spell at most one expression, whatever stands
    behind them.
-/
import LicenseExpr.Proofs.Machine

namespace LicenseExpr

open Token (Kind)

namespace Machine

/-! ## Derived tokens are read -/

section
variable {M : Machine} {ks us : List Kind}

/-- The frames at which reading something of a layer may start. -/
def Fresh : Layer → Frame → Prop
  | .atom, _ | .term, _ => True
  | .conjunction, f => f.factors = none
  | .disjunction, f => f = .empty

/-- From the frame `f`, the expression `w` of a layer has been read up to
    its last operand `v`, which leaves the frame `g`. -/
def HasRead : Layer → Frame → Written → Frame → Written → Prop
  | .atom, f, w, g, v | .term, f, w, g, v => g = f ∧ v = w
  | .conjunction, f, w, g, v => g.alternatives = f.alternatives ∧ g.conj v = w
  | .disjunction, _, w, g, v => g.close v = w

/-- `AND` joins terms and `OR` joins conjunctions, each into the next layer. -/
inductive Joins : Operator → Layer → Layer → Prop
  | and : Joins .and .term .conjunction
  | or : Joins .or .conjunction .disjunction

/-- The frame behind an operator that follows the operand `v`. -/
def Frame.next (g : Frame) (v : Written) : Operator → Frame
  | .and => ⟨g.alternatives, some (g.conj v)⟩
  | .or => ⟨some (g.close v), none⟩
  | .withException => g

namespace Joins
variable {op : Operator} {sub layer : Layer} {f g h : Frame} {u v w x : Written}

theorem step_ok (hj : Joins op sub layer) (p : Nat) (outer : Outer) :
    M.step p (.behind g v outer) (.operator op) = .ok (.operand (g.next v op) outer) := by
  cases hj <;> rfl

theorem fresh_next (hj : Joins op sub layer) : Fresh sub (g.next v op) := by
  cases hj with
  | and => trivial
  | or => rfl

theorem fresh (hj : Joins op sub layer) (hf : Fresh layer f) : Fresh sub f := by
  cases hj with
  | and => trivial
  | or => exact congrArg Frame.factors (show f = .empty from hf)

/-- A first operand is a chain. -/
theorem first (hj : Joins op sub layer) (hf : Fresh layer f) (hr : HasRead sub f w g v) :
    HasRead layer f w g v := by
  cases hj with
  | and =>
    obtain ⟨rfl, rfl⟩ := hr
    have hn : g.factors = none := hf
    exact ⟨rfl, by rw [Frame.conj, hn, join]⟩
  | or =>
    obtain ⟨ha, hc⟩ := hr
    have he : f = .empty := hf
    show g.close v = w
    rw [Frame.close, ha, hc, he, Frame.empty, join]

/-- A chain, its operator, and a further operand are a chain. -/
theorem further (hj : Joins op sub layer) (hr : HasRead layer f w g v)
    (hx : HasRead sub (g.next v op) x h u) : HasRead layer f (.compound w op x) h u := by
  cases hj with
  | and =>
    obtain ⟨ha, hc⟩ := hr
    obtain ⟨rfl, rfl⟩ := hx
    refine ⟨ha, ?_⟩
    show join .and (some (g.conj v)) u = _
    rw [hc, join]
  | or =>
    obtain ⟨ha, hc⟩ := hx
    have hw : g.close v = w := hr
    show h.close u = _
    rw [Frame.close, ha, hc, Frame.next, hw, join]

end Joins

/-- Running over a chain, its operator, and a further operand. -/
theorem run_join {op : Operator} {sub layer : Layer} (hj : Joins op sub layer) {p : Nat}
    {f g : Frame} {v w x : Written} {outer : Outer}
    (h : M.run p (.operand f outer) ks = .ok (.behind g v outer)) (hr : HasRead layer f w g v)
    (hx : ∃ h u, M.run (p + ks.length + 1) (.operand (g.next v op) outer) us =
      .ok (.behind h u outer) ∧ HasRead sub (g.next v op) x h u) :
    ∃ h u, M.run p (.operand f outer) (ks ++ .operator op :: us) = .ok (.behind h u outer) ∧
      HasRead layer f (.compound w op x) h u := by
  obtain ⟨h', u, hrun, hread⟩ := hx
  refine ⟨h', u, ?_, hj.further hr hread⟩
  rw [run_append_of_ok h, run_cons_of_ok (hj.step_ok _ _), hrun]

/-- **Derived tokens are read**, as long as they open no more groups than
    the machine allows. -/
theorem run_of_derives {layer : Layer} {w : Written} (h : Derives M.single layer ks w) (p : Nat)
    (f : Frame) (outer : Outer) (hf : Fresh layer f)
    (hd : outer.length + Token.depth ks ≤ M.limit) :
    ∃ g v, M.run p (.operand f outer) ks = .ok (.behind g v outer) ∧ HasRead layer f w g v := by
  induction h generalizing p f outer with
  | id => exact ⟨f, _, by rw [run_cons_of_ok rfl, run_nil], rfl, rfl⟩
  | @group ks w hk ih =>
    rw [hk.depth_group] at hd
    have hopen : M.step p (.operand f outer) .opening =
        .ok (.operand .empty ((f, p) :: outer)) := by
      have hl : ¬ M.limit ≤ outer.length := by omega
      simp [step, hl]
    obtain ⟨g, v, hrun, hread⟩ := ih (p + 1) .empty ((f, p) :: outer) rfl
      (by rw [List.length_cons]; omega)
    refine ⟨f, .group w, ?_, rfl, rfl⟩
    rw [List.cons_append, run_cons_of_ok hopen, run_append_of_ok hrun, run_cons_of_ok rfl, run_nil,
      show g.close v = w from hread]
  | term _ ih => exact ih p f outer trivial hd
  | @excepted ks w x hk hsingle ih =>
    rw [hk.depth_infix] at hd
    obtain ⟨g, v, hrun, rfl, rfl⟩ := ih p f outer trivial (by omega)
    have hwith : M.step (p + ks.length) (.behind g v outer) (.operator .withException) =
        .ok (.excepting g v outer) := by
      simp [step, hk.isAtom, hsingle]
    refine ⟨g, _, ?_, rfl, rfl⟩
    rw [run_append_of_ok hrun, run_cons_of_ok hwith, run_cons_of_ok rfl, run_nil]
  | conjunction _ ih =>
    obtain ⟨g, v, hrun, hr⟩ := ih p f outer trivial hd
    exact ⟨g, v, hrun, Joins.and.first hf hr⟩
  | @and ks us v w hk hu ih₁ ih₂ =>
    rw [hk.depth_infix] at hd
    obtain ⟨g, v', hrun, hr⟩ := ih₁ p f outer hf (by omega)
    exact run_join .and hrun hr (ih₂ _ _ outer trivial (by omega))
  | disjunction _ ih =>
    obtain ⟨g, v, hrun, hr⟩ := ih p f outer (Joins.or.fresh hf) hd
    exact ⟨g, v, hrun, Joins.or.first hf hr⟩
  | @or ks us v w hk hu ih₁ ih₂ =>
    rw [hk.depth_infix] at hd
    obtain ⟨g, v', hrun, hr⟩ := ih₁ p f outer hf (by omega)
    exact run_join .or hrun hr (ih₂ _ _ outer rfl (by omega))

/-- Closing parentheses behind a complete expression are read. -/
theorem read_of_derives {w : Written} (h : Derives M.single .disjunction ks w)
    (hd : Token.depth ks ≤ M.limit) (k : Nat) :
    M.read (ks ++ List.replicate k .closing) = .ok w := by
  obtain ⟨g, v, hrun, hc⟩ := run_of_derives h 0 .empty [] rfl
    (by rw [List.length_nil]; omega)
  have surplus : ∀ n p q, M.run p (.surplus w q) (List.replicate n .closing) =
      .ok (.surplus w q) := by
    intro n
    induction n with
    | zero => exact fun _ _ => rfl
    | succ n ih =>
      intro p q
      rw [List.replicate_succ, run_cons_of_ok rfl, ih]
  have hc : g.close v = w := hc
  rw [read, start, run_append_of_ok hrun]
  cases k with
  | zero => exact congrArg Except.ok hc
  | succ k => rw [List.replicate_succ, run_cons_of_ok rfl, hc, surplus]; rfl

end

/-! ## What has been read is derived -/

section
variable (single : Written → Bool)

/-- Tokens that spell the operands before an operator, and the operator. -/
inductive Pending (layer : Layer) (op : Operator) : Option Written → List Kind → Prop
  | none : Pending layer op none []
  | some {ks v} : Derives single layer ks v → Pending layer op (some v) (ks ++ [.operator op])

/-- Tokens of a group that is interrupted before an operand. -/
inductive Frame.Reads (f : Frame) : List Kind → Prop
  | mk {ks us} : Pending single .disjunction .or f.alternatives ks →
      Pending single .conjunction .and f.factors us → Frame.Reads f (ks ++ us)

/-- Tokens of the groups around the one that is being read. -/
inductive Outer.Reads : Outer → List Kind → Prop
  | nil : Outer.Reads [] []
  | cons {f outer ks us} : Outer.Reads outer ks → f.Reads single us →
      Outer.Reads ((f, (ks ++ us).length) :: outer) (ks ++ us ++ [.opening])

/-- Tokens after which the machine stands in a state. -/
inductive State.Reads : State → List Kind → Prop
  | operand {f outer ks us} : Outer.Reads single outer ks → f.Reads single us →
      State.Reads (.operand f outer) (ks ++ us)
  | behind {f w outer ks us ts} : Outer.Reads single outer ks → f.Reads single us →
      Derives single .term ts w → (w.isAtom = true → Derives single .atom ts w) →
      State.Reads (.behind f w outer) (ks ++ us ++ ts)
  | excepting {f w outer ks us ts} : Outer.Reads single outer ks → f.Reads single us →
      Derives single .atom ts w → single w = true →
      State.Reads (.excepting f w outer) (ks ++ us ++ ts ++ [.operator .withException])
  | surplus {w ks} (n : Nat) : Derives single .disjunction ks w →
      State.Reads (.surplus w ks.length) (ks ++ List.replicate (n + 1) .closing)

end

section
variable {M : Machine} {single : Written → Bool} {s s' : State} {ks : List Kind}

theorem Frame.reads_empty : Frame.empty.Reads single [] :=
  show Frame.empty.Reads single ([] ++ []) from .mk .none .none

theorem Frame.Reads.conj {v : Option Written} {us ts : List Kind} {w : Written}
    (h : Pending single .conjunction .and v us) (hw : Derives single .term ts w) :
    Derives single .conjunction (us ++ ts) (join .and v w) := by
  cases h with
  | none => exact .conjunction hw
  | some hv => rw [List.append_assoc]; exact .and hv hw

/-- A group may end where an operand has been read. -/
theorem Frame.Reads.close {f : Frame} {us ts : List Kind} {w : Written} (h : f.Reads single us)
    (hw : Derives single .term ts w) : Derives single .disjunction (us ++ ts) (f.close w) := by
  cases h with
  | @mk as bs ha hb =>
    have hc := Frame.Reads.conj hb hw
    rw [Frame.close, List.append_assoc]
    generalize f.alternatives = v at ha
    cases ha with
    | none => exact .disjunction hc
    | some hv => rw [List.append_assoc]; exact .or hv hc

/-- **What one step keeps**: the tokens read so far, with the new one behind
    them, are those of the new state. -/
theorem step_reads {k : Kind} (h : s.Reads M.single ks) (hs : M.step ks.length s k = .ok s') :
    s'.Reads M.single (ks ++ [k]) := by
  cases h with
  | @operand f outer ks us ho hf =>
    cases k with
    | id word plus =>
      cases hs
      exact .behind ho hf (.term .id) fun _ => .id
    | operator op => cases hs
    | closing => cases hs
    | opening =>
      rw [step] at hs
      split at hs
      · cases hs
      · cases hs
        have := State.Reads.operand (.cons ho hf) Frame.reads_empty
        rwa [List.append_nil] at this
  | @behind f w outer ks us ts ho hf hw ha =>
    cases k with
    | id | opening => cases outer <;> cases hs
    | closing =>
      cases outer with
      | nil =>
        cases hs
        cases ho
        exact .surplus 0 (hf.close hw)
      | cons fq outer =>
        cases hs
        cases ho with
        | @cons g _ ks vs ho hg =>
          have hgroup := Derives.group (hf.close hw)
          have := State.Reads.behind ho hg (.term hgroup) fun _ => hgroup
          simpa only [List.append_assoc, List.cons_append, List.nil_append] using this
    | operator op =>
      cases op with
      | and =>
        cases hs
        cases hf with
        | @mk as bs ha hb =>
          have := State.Reads.operand ho (f := ⟨f.alternatives, some (f.conj w)⟩)
            (.mk ha (.some (Frame.Reads.conj hb hw)))
          simpa only [List.append_assoc] using this
      | or =>
        cases hs
        have := State.Reads.operand ho (f := ⟨some (f.close w), none⟩)
          (.mk (.some (hf.close hw)) .none)
        simpa only [List.append_assoc, List.append_nil] using this
      | withException =>
        rw [step] at hs
        split at hs
        · next hc =>
          cases hs
          simp only [Bool.and_eq_true] at hc
          exact .excepting ho hf (ha hc.1) hc.2
        · cases hs
  | @excepting f w outer ks us ts ho hf hw hsingle =>
    cases k with
    | id word plus =>
      cases plus with
      | true => cases hs
      | false =>
        cases hs
        have := State.Reads.behind ho hf (.excepted (x := word) hw hsingle) fun h => by cases h
        simpa only [List.append_assoc, List.cons_append, List.nil_append] using this
    | operator | opening | closing => cases hs
  | @surplus w ks n hw =>
    cases k with
    | closing =>
      cases hs
      rw [List.append_assoc, ← List.replicate_succ']
      exact .surplus (n + 1) hw
    | id | operator | opening => cases hs

/-- What a whole run keeps. -/
theorem run_reads {us : List Kind} (h : s.Reads M.single ks)
    (hs : M.run ks.length s us = .ok s') : s'.Reads M.single (ks ++ us) := by
  induction us generalizing ks s with
  | nil =>
    cases hs
    rwa [List.append_nil]
  | cons k us ih =>
    rw [run] at hs
    cases hk : M.step ks.length s k with
    | error e => rw [hk] at hs; cases hs
    | ok t =>
      rw [hk] at hs
      have := ih (step_reads h hk) (by rw [List.length_append]; exact hs)
      rwa [List.append_assoc] at this

theorem start_reads : start.Reads single [] :=
  show start.Reads single ([] ++ []) from .operand .nil Frame.reads_empty

/-! ## Open groups -/

theorem Pending.balanced {layer : Layer} {op : Operator} {v : Option Written} {us : List Kind}
    (h : Pending single layer op v us) : Balanced Kind.opening Kind.closing us := by
  cases h with
  | none => exact Balanced.nil
  | some hv => exact hv.balanced.append (Balanced.single (by simp) (by simp))

/-- All parentheses in a group that is interrupted have their partners. -/
theorem Frame.Reads.balanced {f : Frame} {us : List Kind} (h : f.Reads single us) :
    Balanced Kind.opening Kind.closing us := by
  cases h with
  | mk ha hb => exact ha.balanced.append hb.balanced

/-- Behind the `(` of the innermost open group all parentheses have partners. -/
theorem State.Reads.exists_innermost {f g : Frame} {w : Written} {q : Nat} {outer : Outer}
    (h : (State.behind f w ((g, q) :: outer)).Reads single ks) :
    ∃ us vs, ks = us ++ .opening :: vs ∧ us.length = q ∧
      Balanced Kind.opening Kind.closing vs := by
  cases h with
  | @behind _ _ _ _ us vs ho hf hw =>
    cases ho with
    | cons =>
      refine ⟨_, us ++ vs, ?_, rfl, hf.balanced.append hw.balanced⟩
      simp only [List.append_assoc, List.cons_append, List.nil_append]

theorem Outer.Reads.count {outer : Outer} (h : Outer.Reads single outer ks) :
    ks.count Kind.opening = ks.count Kind.closing + outer.length := by
  induction h with
  | nil => rfl
  | cons _ hf ih =>
    simp only [List.count_append, ih, hf.balanced.settled, List.length_cons,
      List.count_singleton_self, List.count_singleton, beq_iff_eq, reduceCtorEq, if_false]
    omega

/-- The tokens leave open what the state has groups, or close more than they open. -/
theorem State.Reads.count (h : s.Reads single ks) :
    ks.count Kind.opening = ks.count Kind.closing + s.depth ∧ (∀ w q, s ≠ .surplus w q) ∨
      ks.count Kind.opening < ks.count Kind.closing ∧ ∃ w q, s = .surplus w q := by
  cases h with
  | operand ho hf =>
    refine Or.inl ⟨?_, nofun⟩
    simp only [List.count_append, ho.count, hf.balanced.settled, State.depth]
    omega
  | behind ho hf hw =>
    refine Or.inl ⟨?_, nofun⟩
    simp only [List.count_append, ho.count, hf.balanced.settled, hw.settled, State.depth]
    omega
  | excepting ho hf hw =>
    refine Or.inl ⟨?_, nofun⟩
    simp only [List.count_append, ho.count, hf.balanced.settled, hw.settled, State.depth,
      List.count_singleton, beq_iff_eq, reduceCtorEq, if_false]
    omega
  | @surplus w ks n hw =>
    refine Or.inr ⟨?_, w, ks.length, rfl⟩
    simp only [List.count_append, hw.settled, Token.count_opening_closings,
      List.count_replicate_self]
    omega

theorem State.Reads.count_le (h : s.Reads single ks) :
    ks.count Kind.opening ≤ ks.count Kind.closing + s.depth := by
  rcases h.count with ⟨hc, -⟩ | ⟨hlt, -⟩ <;> omega

theorem step_depth_le {p : Nat} {k : Kind} (h : M.step p s k = .ok s') (hd : s.depth ≤ M.limit) :
    s'.depth ≤ M.limit := by
  cases s with
  | operand f outer =>
    cases k with
    | id => cases h; exact hd
    | opening =>
      rw [step] at h
      split at h
      · cases h
      · next hl => cases h; exact Nat.lt_of_not_le hl
    | operator | closing => cases h
  | behind f w outer =>
    cases k with
    | operator op =>
      cases op with
      | and | or => cases h; exact hd
      | withException =>
        rw [step] at h
        split at h
        · cases h; exact hd
        · cases h
    | closing =>
      cases outer with
      | nil => cases h; exact Nat.zero_le _
      | cons => cases h; exact Nat.le_of_succ_le hd
    | id | opening => cases outer <;> cases h
  | excepting f w outer =>
    cases k with
    | id word plus =>
      cases plus with
      | true => cases h
      | false => cases h; exact hd
    | operator | opening | closing => cases h
  | surplus w q =>
    cases k with
    | closing => cases h; exact hd
    | id | operator | opening => cases h

/-- A run never opens more groups than the machine allows. -/
theorem run_depth_le {us : List Kind} (h : s.Reads M.single ks) (hd : s.depth ≤ M.limit)
    (hk : Token.depth ks ≤ M.limit) (hs : M.run ks.length s us = .ok s') :
    Token.depth (ks ++ us) ≤ M.limit := by
  induction us generalizing ks s with
  | nil => rwa [List.append_nil]
  | cons k us ih =>
    rw [run] at hs
    cases hstep : M.step ks.length s k with
    | error e => rw [hstep] at hs; cases hs
    | ok t =>
      rw [hstep] at hs
      have ht := step_reads h hstep
      have htd := step_depth_le hstep hd
      have hkd : Token.depth (ks ++ [k]) ≤ M.limit := by
        refine (nesting_concat_le_iff Token.opening_ne_closing).2 ⟨hk, ?_⟩
        have := ht.count_le
        omega
      have := ih ht htd hkd (by rw [List.length_append]; exact hs)
      rwa [List.append_assoc] at this

/-! ## Acceptance -/

theorem reads_of_run (hs : M.run 0 start ks = .ok s) : s.Reads M.single ks := by
  have := run_reads start_reads hs
  exact this

theorem depth_le_of_run (hs : M.run 0 start ks = .ok s) : Token.depth ks ≤ M.limit := by
  have := run_depth_le start_reads (Nat.zero_le _) (Nat.zero_le _) hs
  exact this

theorem read_eq_ok {w : Written} (h : M.read ks = .ok w) :
    ∃ s, M.run 0 start ks = .ok s ∧ conclude ks.length s = .ok w := by
  rw [read] at h
  cases hs : M.run 0 start ks with
  | error e => rw [hs] at h; cases h
  | ok s => rw [hs] at h; exact ⟨s, rfl, h⟩

/-- What is complete at the end of an input is derived, with closing
    parentheses behind it, which have been told from the rest if there are any. -/
theorem exists_derives_of_conclude {w : Written} (hs : M.run 0 start ks = .ok s)
    (hc : conclude ks.length s = .ok w) : ∃ us n, ks = us ++ List.replicate n .closing ∧
      Derives M.single .disjunction us w ∧ Token.depth us ≤ M.limit ∧
        (s = .surplus w us.length ∨ n = 0 ∧ ∀ v q, s ≠ .surplus v q) := by
  have hr := reads_of_run hs
  have hd := depth_le_of_run hs
  cases hr with
  | operand | excepting => cases hc
  | @behind f v outer ks us ts ho hf hw =>
    cases ho with
    | nil =>
      cases hc
      exact ⟨us ++ ts, 0, by simp, hf.close hw, hd, Or.inr ⟨rfl, nofun⟩⟩
    | cons => cases hc
  | @surplus v us n hw =>
    cases hc
    refine ⟨us, n + 1, rfl, hw, Nat.le_trans ?_ hd, Or.inl rfl⟩
    exact nesting_prefix_le Token.opening_ne_closing (List.prefix_append us _)

/-- **The machine accepts exactly what the grammar derives**, with closing
    parentheses behind it. -/
theorem read_eq_ok_iff {w : Written} :
    M.read ks = .ok w ↔ ∃ us k, ks = us ++ List.replicate k .closing ∧
      Derives M.single .disjunction us w ∧ Token.depth us ≤ M.limit := by
  constructor
  · intro h
    obtain ⟨s, hs, hc⟩ := read_eq_ok h
    obtain ⟨us, n, hk, hw, hd, -⟩ := exists_derives_of_conclude hs hc
    exact ⟨us, n, hk, hw, hd⟩
  · rintro ⟨us, k, rfl, hw, hd⟩
    exact read_of_derives hw hd k

/-! ## Uniqueness -/

/-- Derived tokens settle how many closing parentheses are behind them. -/
theorem closings_unique {us vs : List Kind} {v w : Written} {layer layer' : Layer} {m n : Nat}
    (hv : Derives single layer us v) (hw : Derives single layer' vs w)
    (h : us ++ List.replicate m .closing = vs ++ List.replicate n .closing) :
    us = vs ∧ m = n := by
  have ho := congrArg (List.count Kind.opening) h
  have hc := congrArg (List.count Kind.closing) h
  simp only [List.count_append, List.count_replicate_self, Token.count_opening_closings, hv.settled,
    hw.settled] at ho hc
  have hmn : m = n := by omega
  subst hmn
  exact ⟨List.append_cancel_right h, rfl⟩

/-- **The grammar is unambiguous**: tokens spell at most one expression. -/
theorem derives_unique {v w : Written} (hv : Derives single .disjunction ks v)
    (hw : Derives single .disjunction ks w) : v = w := by
  let M : Machine := ⟨Token.depth ks, single⟩
  have h₁ : M.read (ks ++ List.replicate 0 .closing) = .ok v :=
    read_of_derives hv (Nat.le_refl _) 0
  have h₂ : M.read (ks ++ List.replicate 0 .closing) = .ok w :=
    read_of_derives hw (Nat.le_refl _) 0
  rw [h₁] at h₂
  exact Except.ok.inj h₂

end

end Machine

end LicenseExpr
