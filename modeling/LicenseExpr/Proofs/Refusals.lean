/-
  Which token the machine blames.

  * the tokens that have been read tell the state: it is an operand that is
    missing if they end with `AND`, `OR` or `(` (`State.Reads.operandExpected_iff`),
    and what they leave open is the number of groups;
  * a token is blamed (`Blames`) if the step at it is refused, if it is the
    first closing parenthesis behind a complete expression that something else
    follows, or if it is the last open parenthesis at the end of the input;
    `read_error_at_iff` says that these are the refusals at that token;
  * `read_nestingTooDeep_iff`, `read_unmatched_closing_iff` and
    `read_unexpected_closing_iff` tell the refusals at a parenthesis from the
    tokens before it;
  * `parse_error_at_iff`: the errors of a text about a token are the refusals
    of the machine there.
-/
import LicenseExpr.Proofs.Diagnosis

namespace LicenseExpr

open Token (Kind kinds)

/-! ## Where an operand is expected -/

namespace Token
variable {ks us : List Kind} {k : Kind}

/-- An operand is expected behind the tokens: there are none, or they end
    with `AND`, `OR` or `(`. -/
def OperandExpected (ks : List Kind) : Prop :=
  ∀ k ∈ ks.getLast?, k = .operator .and ∨ k = .operator .or ∨ k = .opening

theorem operandExpected_concat : OperandExpected (ks ++ [k]) ↔
    k = .operator .and ∨ k = .operator .or ∨ k = .opening := by
  simp [OperandExpected]

theorem OperandExpected.append (hk : OperandExpected ks) (hu : OperandExpected us) :
    OperandExpected (ks ++ us) := by
  rcases List.eq_nil_or_concat us with rfl | ⟨vs, k, rfl⟩
  · rwa [List.append_nil]
  · rw [List.concat_eq_append] at hu ⊢
    rw [← List.append_assoc]
    exact operandExpected_concat.2 (operandExpected_concat.1 hu)

end Token

open Token (OperandExpected operandExpected_concat)

namespace Machine

section
variable {single : Written → Bool} {s : State} {ks us : List Kind}

theorem Pending.operandExpected {layer : Layer} {op : Operator} {v : Option Written}
    (hop : op = .and ∨ op = .or) (h : Pending single layer op v ks) : OperandExpected ks := by
  cases h with
  | none => exact nofun
  | some => rcases hop with rfl | rfl <;> exact operandExpected_concat.2 (by simp)

theorem Frame.Reads.operandExpected {f : Frame} (h : f.Reads single ks) : OperandExpected ks := by
  cases h with
  | mk ha hb => exact (ha.operandExpected (Or.inr rfl)).append (hb.operandExpected (Or.inl rfl))

theorem Outer.Reads.operandExpected {outer : Outer} (h : Outer.Reads single outer ks) :
    OperandExpected ks := by
  cases h with
  | nil => exact nofun
  | cons => exact operandExpected_concat.2 (by simp)

/-- Derived tokens end with an id or a closing parenthesis. -/
theorem not_operandExpected_of_derives {layer : Layer} {w : Written}
    (h : Derives single layer us w) (ks : List Kind) : ¬ OperandExpected (ks ++ us) := by
  induction h generalizing ks with
  | id => exact mt operandExpected_concat.1 (by simp)
  | group =>
    rw [← List.append_assoc]
    exact mt operandExpected_concat.1 (by simp)
  | term _ ih | conjunction _ ih | disjunction _ ih => exact ih ks
  | excepted =>
    rw [← List.append_assoc, List.append_cons]
    exact mt operandExpected_concat.1 (by simp)
  | and _ _ _ ih | or _ _ _ ih =>
    rw [← List.append_assoc, List.append_cons]
    exact ih _

/-- **Where an operand has to come**, the tokens end with what an operand follows. -/
theorem State.Reads.operandExpected_iff (h : s.Reads single ks) :
    OperandExpected ks ↔ ∃ f outer, s = .operand f outer := by
  cases h with
  | operand ho hf => exact iff_of_true (ho.operandExpected.append hf.operandExpected) ⟨_, _, rfl⟩
  | behind _ _ hw => exact iff_of_false (not_operandExpected_of_derives hw _) nofun
  | excepting => exact iff_of_false (mt operandExpected_concat.1 (by simp)) nofun
  | surplus n hw =>
    refine iff_of_false ?_ nofun
    rw [List.replicate_succ', ← List.append_assoc]
    exact mt operandExpected_concat.1 (by simp)

end

/-! ## Tokens that are blamed -/

/-- The machine blames the token `k` between `us` and `vs`. -/
inductive Blames (M : Machine) (us : List Kind) (k : Kind) (vs : List Kind) :
    SyntaxError.Cause → Prop
  | refused {s cause} : M.run 0 start us = .ok s → Refuses M us.length s k ⟨cause, us.length⟩ →
      Blames M us k vs cause
  | surplus {f w} : M.run 0 start us = .ok (.behind f w []) → k = .closing →
      (∃ v ∈ vs, v ≠ .closing) → Blames M us k vs .unmatchedParenthesis
  | unclosed {f w g outer} : k = .opening →
      M.run 0 start (us ++ k :: vs) = .ok (.behind f w ((g, us.length) :: outer)) →
      Blames M us k vs .unmatchedParenthesis

section
variable {M : Machine} {s : State} {k : Kind} {e : Refusal} {ks us vs : List Kind}
  {cause : SyntaxError.Cause}

theorem read_eq_error (h : M.read ks = .error e) :
    (∃ s, M.run 0 start ks = .ok s ∧ conclude ks.length s = .error e) ∨
      ∃ us k vs s, ks = us ++ k :: vs ∧ M.run 0 start us = .ok s ∧ Refuses M us.length s k e := by
  rw [read] at h
  cases hs : M.run 0 start ks with
  | ok s =>
    rw [hs] at h
    exact Or.inl ⟨s, rfl, h⟩
  | error e' =>
    rw [hs] at h
    cases h
    obtain ⟨us, k, vs, s, hk, hus, hstep⟩ := exists_step_error hs
    rw [Nat.zero_add] at hstep
    exact Or.inr ⟨us, k, vs, s, hk, hus, refuses_of_step hstep⟩

theorem run_surplus_error {w : Written} {q : Nat} (p : Nat) (hk : k ∈ vs) (hne : k ≠ .closing) :
    M.run p (.surplus w q) vs = .error ⟨.unmatchedParenthesis, q⟩ := by
  induction vs generalizing p with
  | nil => cases hk
  | cons v vs ih =>
    by_cases hv : v = .closing
    · subst hv
      rw [run_cons_of_ok rfl]
      exact ih _ ((List.mem_cons.1 hk).resolve_left hne)
    · exact run_cons_of_error (Refuses.surplus hv).step_eq

theorem Blames.read_eq (h : Blames M us k vs cause) :
    M.read (us ++ k :: vs) = .error ⟨cause, us.length⟩ := by
  cases h with
  | refused hs hr =>
    rw [read, run_append_of_ok hs, Nat.zero_add, run_cons_of_error hr.step_eq]
  | surplus hs hk hv =>
    obtain ⟨v, hv, hne⟩ := hv
    subst hk
    rw [read, run_append_of_ok hs, Nat.zero_add, run_cons_of_ok rfl, run_surplus_error _ hv hne]
  | unclosed _ hs =>
    rw [read, hs]
    rfl

/-- The first of the closing parentheses behind a complete expression. -/
theorem exists_of_run_surplus {w : Written} {q : Nat}
    (hs : M.run 0 start ks = .ok (.surplus w q)) :
    ∃ us n f v, ks = us ++ List.replicate (n + 1) .closing ∧ us.length = q ∧
      M.run 0 start us = .ok (.behind f v []) := by
  have hd := depth_le_of_run hs
  have hr := reads_of_run hs
  cases hr with
  | @surplus _ us n hw =>
    have hshallow : Token.depth us ≤ M.limit :=
      Nat.le_trans (nesting_prefix_le Token.opening_ne_closing (List.prefix_append us _)) hd
    obtain ⟨f, v, hrun, -⟩ := run_of_derives hw 0 .empty [] rfl
      (by rw [List.length_nil]; omega)
    exact ⟨us, n, f, v, rfl, rfl, hrun⟩

theorem blames_of_read (h : M.read (us ++ k :: vs) = .error ⟨cause, us.length⟩) :
    Blames M us k vs cause := by
  rcases read_eq_error h with ⟨s, hs, hc⟩ | ⟨us', k', vs', s, hk, hs, hr⟩
  · -- at the end of the input, only an open parenthesis stands before it
    have hlength : us.length ≠ (us ++ k :: vs).length := by
      rw [List.length_append, List.length_cons]
      omega
    cases s with
    | operand | excepting =>
      exact absurd (congrArg Refusal.place (Except.error.inj hc)).symm hlength
    | surplus => cases hc
    | behind f w outer =>
      cases outer with
      | nil => cases hc
      | cons gq outer =>
        obtain ⟨g, q⟩ := gq
        cases hc
        obtain ⟨ls, ms, hsplit, hplace, -⟩ := (reads_of_run hs).exists_innermost
        obtain ⟨-, hcons⟩ := List.append_inj hsplit hplace.symm
        exact .unclosed (List.cons.inj hcons).1 hs
  · -- a step refuses its own token, except behind a complete expression
    generalize he : (⟨cause, us.length⟩ : Refusal) = e at hr
    have hat : e.place = us'.length → Blames M us k vs cause := by
      intro hplace
      subst he
      obtain ⟨rfl, hcons⟩ := List.append_inj hk hplace
      obtain ⟨rfl, rfl⟩ := List.cons.inj hcons
      exact .refused hs hr
    cases hr with
    | surplus hne =>
      obtain ⟨ls, n, f, v, rfl, hplace, hrun⟩ := exists_of_run_surplus hs
      cases he
      rw [List.replicate_succ, List.append_assoc, List.cons_append] at hk
      obtain ⟨rfl, hcons⟩ := List.append_inj hk hplace.symm
      obtain ⟨rfl, rfl⟩ := List.cons.inj hcons
      exact .surplus hrun rfl ⟨_, List.mem_append_right _ List.mem_cons_self, hne⟩
    | _ => exact hat rfl

/-- **A refusal is about a token** exactly if the token is blamed. -/
theorem read_error_at_iff :
    M.read (us ++ k :: vs) = .error ⟨cause, us.length⟩ ↔ Blames M us k vs cause :=
  ⟨blames_of_read, Blames.read_eq⟩

/-! ## Refusals at parentheses -/

/-- The machine has come to an operand inside of `d` groups. -/
theorem exists_operand_iff {d : Nat} :
    (∃ f outer, M.run 0 start ks = .ok (.operand f outer) ∧ outer.length = d) ↔
      (∃ s, M.run 0 start ks = .ok s) ∧ OperandExpected ks ∧
        ks.count Kind.opening = ks.count Kind.closing + d := by
  constructor
  · rintro ⟨f, outer, hs, rfl⟩
    have hr := reads_of_run hs
    refine ⟨⟨_, hs⟩, hr.operandExpected_iff.2 ⟨f, outer, rfl⟩, ?_⟩
    rcases hr.count with ⟨hc, -⟩ | ⟨-, w, q, hw⟩
    · exact hc
    · cases hw
  · rintro ⟨⟨s, hs⟩, he, hc⟩
    have hr := reads_of_run hs
    obtain ⟨f, outer, rfl⟩ := hr.operandExpected_iff.1 he
    refine ⟨f, outer, hs, ?_⟩
    rcases hr.count with ⟨hc', -⟩ | ⟨-, w, q, hw⟩
    · have hlength : ks.count Kind.opening = ks.count Kind.closing + outer.length := hc'
      omega
    · cases hw

/-- The machine has come to the end of an expression behind which nothing is closed. -/
theorem exists_behind_iff :
    (∃ f w, M.run 0 start ks = .ok (.behind f w [])) ↔
      (∃ w, M.read ks = .ok w) ∧ ks.count Kind.opening = ks.count Kind.closing := by
  constructor
  · rintro ⟨f, w, hs⟩
    refine ⟨⟨f.close w, by rw [read, hs]; rfl⟩, ?_⟩
    rcases (reads_of_run hs).count with ⟨hc, -⟩ | ⟨-, w, q, hw⟩
    · exact hc
    · cases hw
  · rintro ⟨⟨w, hw⟩, hc⟩
    obtain ⟨s, hs, hconclude⟩ := read_eq_ok hw
    cases s with
    | operand | excepting => cases hconclude
    | behind f v outer =>
      cases outer with
      | nil => exact ⟨f, v, hs⟩
      | cons => cases hconclude
    | surplus v q =>
      rcases (reads_of_run hs).count with ⟨-, hne⟩ | ⟨hlt, -⟩
      · exact absurd rfl (hne v q)
      · omega

theorem count_le_limit (hs : M.run 0 start ks = .ok s) :
    ks.count Kind.opening ≤ ks.count Kind.closing + M.limit :=
  (nesting_le_iff Token.opening_ne_closing).1 (depth_le_of_run hs) ks (List.prefix_refl ks)

/-- **Nesting is too deep** at a `(` in the place of an operand inside of as
    many groups as are admitted. -/
theorem read_nestingTooDeep_iff :
    M.read (us ++ k :: vs) = .error ⟨.nestingTooDeep, us.length⟩ ↔
      (∃ s, M.run 0 start us = .ok s) ∧ OperandExpected us ∧
        us.count Kind.opening = us.count Kind.closing + M.limit ∧ k = .opening := by
  rw [read_error_at_iff]
  constructor
  · intro h
    cases h with
    | refused hs hr =>
      cases hr with
      | @tooDeep f outer hl =>
        obtain ⟨hv, he, hc⟩ := exists_operand_iff.1 ⟨f, outer, hs, rfl⟩
        have := count_le_limit hs
        exact ⟨hv, he, by omega, rfl⟩
  · rintro ⟨hv, he, hc, rfl⟩
    obtain ⟨f, outer, hs, hl⟩ := exists_operand_iff.2 ⟨hv, he, hc⟩
    exact .refused hs (.tooDeep (Nat.le_of_eq hl.symm))

/-- **A closing parenthesis has no partner** if none is open, in the place of
    an operand or behind a complete expression that something else follows. -/
theorem read_unmatched_closing_iff :
    M.read (us ++ .closing :: vs) = .error ⟨.unmatchedParenthesis, us.length⟩ ↔
      (∃ s, M.run 0 start us = .ok s) ∧ us.count Kind.opening = us.count Kind.closing ∧
        (OperandExpected us ∨ (∃ w, M.read us = .ok w) ∧ ∃ v ∈ vs, v ≠ .closing) := by
  rw [read_error_at_iff]
  constructor
  · intro h
    cases h with
    | refused hs hr =>
      cases hr with
      | @unmatched f =>
        obtain ⟨hv, he, hc⟩ := exists_operand_iff.1 ⟨f, [], hs, rfl⟩
        exact ⟨hv, hc, Or.inl he⟩
      | surplus hk => exact absurd rfl hk
    | @surplus f w hs _ hv =>
      obtain ⟨hw, hc⟩ := exists_behind_iff.1 ⟨f, w, hs⟩
      exact ⟨⟨_, hs⟩, hc, Or.inr ⟨hw, hv⟩⟩
    | unclosed hk => cases hk
  · rintro ⟨hv, hc, he | ⟨hw, hv'⟩⟩
    · obtain ⟨f, outer, hs, hl⟩ := (exists_operand_iff (d := 0)).2 ⟨hv, he, hc⟩
      rw [List.eq_nil_of_length_eq_zero hl] at hs
      exact .refused hs .unmatched
    · obtain ⟨f, w, hs⟩ := exists_behind_iff.2 ⟨hw, hc⟩
      exact .surplus hs rfl hv'

/-- **A closing parenthesis cannot stand** in the place of an operand of a group. -/
theorem read_unexpected_closing_iff :
    M.read (us ++ .closing :: vs) = .error ⟨.unexpectedToken, us.length⟩ ↔
      (∃ s, M.run 0 start us = .ok s) ∧ OperandExpected us ∧
        us.count Kind.closing < us.count Kind.opening := by
  rw [read_error_at_iff]
  constructor
  · intro h
    cases h with
    | refused hs hr =>
      cases hr with
      | @closing f gq outer =>
        obtain ⟨hv, he, hc⟩ := exists_operand_iff.1 ⟨f, gq :: outer, hs, rfl⟩
        rw [List.length_cons] at hc
        exact ⟨hv, he, by omega⟩
  · rintro ⟨hv, he, hc⟩
    obtain ⟨f, outer, hs, hl⟩ := exists_operand_iff.2
      ⟨hv, he, (Nat.add_sub_of_le (Nat.le_of_lt hc)).symm⟩
    cases outer with
    | nil => rw [List.length_nil] at hl; omega
    | cons => exact .refused hs .closing

/-! ## Causes -/

theorem Refuses.place_le (hs : M.run 0 start us = .ok s) (h : Refuses M us.length s k e) :
    e.place ≤ us.length := by
  cases h with
  | surplus hk =>
    obtain ⟨ls, n, -, -, rfl, rfl, -⟩ := exists_of_run_surplus hs
    exact (List.prefix_append ls _).length_le
  | _ => exact Nat.le_refl _

/-- A refusal has a cause that tokens can have, and at the end of the input
    an operand or an exception is missing. -/
theorem cause_of_read_error (h : M.read ks = .error e) :
    (e.cause ≠ .malformedToken ∧ e.cause ≠ .emptyExpression) ∧
      (ks.length ≤ e.place → e.cause = .unexpectedEnd ∨ e.cause = .expectedException) := by
  rcases read_eq_error h with ⟨s, hs, hc⟩ | ⟨us, k, vs, s, rfl, hs, hr⟩
  · cases s with
    | operand => cases hc; exact ⟨⟨nofun, nofun⟩, fun _ => Or.inl rfl⟩
    | excepting => cases hc; exact ⟨⟨nofun, nofun⟩, fun _ => Or.inr rfl⟩
    | surplus => cases hc
    | behind f w outer =>
      cases outer with
      | nil => cases hc
      | cons gq outer =>
        obtain ⟨g, q⟩ := gq
        cases hc
        obtain ⟨ls, ms, rfl, rfl, -⟩ := (reads_of_run hs).exists_innermost
        refine ⟨⟨nofun, nofun⟩, fun hl => ?_⟩
        have hl : (ls ++ Kind.opening :: ms).length ≤ ls.length := hl
        rw [List.length_append, List.length_cons] at hl
        omega
  · have hplace := hr.place_le hs
    refine ⟨by cases hr <;> exact ⟨nofun, nofun⟩, fun hl => ?_⟩
    rw [List.length_append, List.length_cons] at hl
    omega

end

end Machine

/-! ## Errors of texts -/

section
open LicenseExpr.Parser
variable {text : String} {ts : List Token} {err : SyntaxError}

theorem parse_eq_error (ht : Token.tokenize text = .ok ts) (hne : ts ≠ []) :
    parse text = .error err ↔ ∃ e, machine.read (kinds ts) = .error e ∧
      err = errorAt text.utf8ByteSize e.cause (ts.drop e.place) := by
  constructor
  · intro h
    cases hm : machine.read (kinds ts) with
    | ok w =>
      rw [parse_of_ok ht hm] at h
      cases h
    | error e =>
      rw [parse_of_error ht hne hm] at h
      exact ⟨e, rfl, (Except.error.inj h).symm⟩
  · rintro ⟨e, hm, rfl⟩
    exact parse_of_error ht hne hm

/-- **The error of a text is about a token** exactly if the machine refuses
    the tokens there. -/
theorem parse_error_at_iff {before after : List Token} {t : Token} {cause : SyntaxError.Cause}
    (ht : Token.tokenize text = .ok (before ++ t :: after)) :
    parse text = .error ⟨cause, t.offset, t.text⟩ ↔
      machine.read (kinds before ++ t.kind :: kinds after) =
        .error ⟨cause, (kinds before).length⟩ := by
  have hne : before ++ t :: after ≠ [] := by simp
  have hmem : t ∈ before ++ t :: after := List.mem_append_right _ List.mem_cons_self
  have hkinds : kinds (before ++ t :: after) = kinds before ++ t.kind :: kinds after :=
    Token.kinds_append _ _
  rw [parse_eq_error ht hne, hkinds]
  constructor
  · rintro ⟨⟨c, q⟩, hm, he⟩
    have hcause : cause = c := (congrArg SyntaxError.cause he).trans (cause_errorAt _ _ _)
    subst hcause
    have hat : (⟨cause, t.offset, t.text⟩ : SyntaxError).At t := ⟨rfl, rfl⟩
    rcases errorAt_drop text.utf8ByteSize cause (before ++ t :: after) q with
      ⟨u, hu, hat'⟩ | ⟨-, hend⟩
    · rw [← he] at hat'
      obtain ⟨hq, hget⟩ := List.getElem?_eq_some_iff.1 hu
      have hsplit : before ++ t :: after = (before ++ t :: after).take q ++
          u :: (before ++ t :: after).drop (q + 1) := by
        rw [← hget, ← List.drop_eq_getElem_cons hq, List.take_append_drop]
      have ho := (Token.tokenize_eq_ok_iff.1 ht).offsets.2
      obtain ⟨hb, -⟩ := split_unique ho rfl hsplit hat'.1
      have hlength := congrArg List.length hb
      rw [List.length_take, Nat.min_eq_left (Nat.le_of_lt hq)] at hlength
      rw [hm, Token.length_kinds, hlength]
    · exact absurd (he ▸ hend) (hat.not_atEnd ht hmem)
  · intro hm
    refine ⟨_, hm, ?_⟩
    rw [Token.length_kinds, errorAt_split]

end

end LicenseExpr
