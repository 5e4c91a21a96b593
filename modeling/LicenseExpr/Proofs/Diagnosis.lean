/-
  Where errors are reported.

  * the parser `Accepts` a list of tokens that it reads as an expression, and
    a list is `Viable` if something behind it makes the parser accept it;
  * `viable_iff`: that is what the machine can run over, as each of its states
    can be completed; so the first token at which the machine refuses is the
    first one that nothing can follow up (`Machine.step_error`);
  * an error is `Incomplete` if the tokens are all right as far as they go,
    `Overrun` if a complete expression is followed by a closing parenthesis
    and something else, and `Derailed` if it is about the first token that
    rules the input out;
  * `parse_error_site`: every error about tokens is exactly one of these.
-/
import LicenseExpr.Proofs.Descent
import LicenseExpr.Proofs.Spelling

namespace LicenseExpr

open Token (Kind kinds)

namespace Parser

/-! ## Viable tokens -/

/-- The parser reads the tokens as an expression. -/
def Accepts (ts : List Token) : Prop :=
  ∃ e after, readTokens (maxDepth + 1) ts = .accepted e after

/-- The parser accepts the tokens with something behind them. -/
def Viable (ts : List Token) : Prop :=
  ∃ us, Accepts (ts ++ us)

section
variable {ts us : List Token}

theorem accepts_iff_read : Accepts ts ↔ ∃ w, machine.read (kinds ts) = .ok w := by
  constructor
  · rintro ⟨e, after, h⟩
    cases hr : machine.read (kinds ts) with
    | ok w => exact ⟨w, rfl⟩
    | error r =>
      obtain ⟨last, hl⟩ := readTokens_of_error hr
      rw [hl] at h
      cases h
  · rintro ⟨w, h⟩
    obtain ⟨after, hr⟩ := readTokens_of_ok h
    exact ⟨_, after, hr⟩

/-- The parser accepts derived tokens with closing parentheses behind them. -/
theorem accepts_iff : Accepts ts ↔ ∃ ks n w, kinds ts = ks ++ List.replicate n .closing ∧
    Derives Written.isSingle .disjunction ks w ∧ Token.depth ks ≤ maxDepth := by
  rw [accepts_iff_read]
  constructor
  · rintro ⟨w, h⟩
    obtain ⟨ks, n, hk, hd, hn⟩ := Machine.read_eq_ok_iff.1 h
    exact ⟨ks, n, w, hk, hd, hn⟩
  · rintro ⟨ks, n, w, hk, hd, hn⟩
    exact ⟨w, Machine.read_eq_ok_iff.2 ⟨ks, n, hk, hd, hn⟩⟩

/-- **Viable tokens** are those that the machine can run over. -/
theorem viable_iff : Viable ts ↔ ∃ s, machine.run 0 Machine.start (kinds ts) = .ok s := by
  constructor
  · rintro ⟨us, h⟩
    obtain ⟨w, hw⟩ := accepts_iff_read.1 h
    obtain ⟨s, hs, -⟩ := Machine.read_eq_ok hw
    rw [Token.kinds_append] at hs
    exact Machine.run_of_append hs
  · rintro ⟨s, hs⟩
    obtain ⟨t, w, ht, hc⟩ := Machine.run_completion (M := machine) s (kinds ts).length
    refine ⟨s.completion.map (⟨·, 0⟩), accepts_iff_read.2 ⟨w, ?_⟩⟩
    have hkinds : kinds (ts ++ s.completion.map (⟨·, 0⟩)) = kinds ts ++ s.completion := by
      rw [Token.kinds_append]
      simp [kinds, Function.comp_def]
    rw [hkinds, Machine.read, Machine.run_append_of_ok hs, Nat.zero_add, ht]
    exact hc _

theorem Viable.of_append (us : List Token) (h : Viable (ts ++ us)) : Viable ts := by
  obtain ⟨vs, hv⟩ := h
  exact ⟨us ++ vs, by rwa [← List.append_assoc]⟩

/-- A further closing parenthesis is accepted. -/
theorem Accepts.closing {t : Token} (h : Accepts ts) (ht : t.kind = .closing) :
    Accepts (ts ++ [t]) := by
  obtain ⟨ks, n, w, hk, hd, hn⟩ := accepts_iff.1 h
  refine accepts_iff.2 ⟨ks, n + 1, w, ?_, hd, hn⟩
  have hone : kinds [t] = [.closing] := by rw [kinds, List.map_singleton, ht]
  rw [Token.kinds_append, hone, hk, List.append_assoc, List.replicate_succ']

/-- Nothing makes up for a closing parenthesis too many, unless only closing
    parentheses follow. -/
theorem not_viable_of_surplus {t u : Token} (hb : Balanced Kind.opening Kind.closing (kinds ts))
    (ht : t.kind = .closing) (hu : u ∈ us) (hk : u.kind ≠ .closing) :
    ¬ Viable (ts ++ t :: us) := by
  rintro ⟨vs, h⟩
  obtain ⟨ks, n, w, he, hd, -⟩ := accepts_iff.1 h
  rw [List.append_assoc, List.cons_append, Token.kinds_append, Token.kinds_cons, ht] at he
  refine hk (hd.balanced.forall_mem_of_surplus Token.opening_ne_closing hb.settled he _ ?_)
  exact List.mem_map_of_mem (List.mem_append_left vs hu)

end

end Parser

/-! ## Kinds of errors -/

open LicenseExpr.Parser

/-- The error is about this token. -/
def SyntaxError.At (err : SyntaxError) (t : Token) : Prop :=
  err.offset = t.offset ∧ err.fragment = t.text

/-- The error is about the end of a text of `size` bytes. -/
def SyntaxError.AtEnd (err : SyntaxError) (size : Nat) : Prop :=
  err.offset = size ∧ err.fragment = ""

/-- The tokens are all right as far as they go: the error is about the end of
    the text, where an operand or an exception is missing, or about the last
    parenthesis that is still open. -/
structure Incomplete (size : Nat) (ts : List Token) (err : SyntaxError) : Prop where
  viable : Viable ts
  refused : ¬ Accepts ts
  site : (err.cause = .unexpectedEnd ∨ err.cause = .expectedException) ∧
      err.offset = size ∧ err.fragment = "" ∨
    err.cause = .unmatchedParenthesis ∧ ∃ before t after, ts = before ++ t :: after ∧
      err.At t ∧ LastUnclosed Kind.opening Kind.closing (kinds ts) before.length

/-- The error is about a closing parenthesis behind a complete expression,
    and not only closing parentheses follow. -/
def Overrun (ts : List Token) (err : SyntaxError) : Prop :=
  err.cause = .unmatchedParenthesis ∧ ∃ before t after, ts = before ++ t :: after ∧
    err.At t ∧ t.kind = .closing ∧ Accepts before ∧
      Balanced Kind.opening Kind.closing (kinds before) ∧ ∃ u ∈ after, u.kind ≠ .closing

/-- The error is about the first token that rules the input out. -/
def Derailed (ts : List Token) (err : SyntaxError) : Prop :=
  ∃ before t after, ts = before ++ t :: after ∧ err.At t ∧
    (err.cause = .unmatchedParenthesis → t.kind = .closing) ∧
      Viable before ∧ ¬ Viable (before ++ [t])

section
variable {ts : List Token} {err : SyntaxError} {e : Machine.Refusal}

/-! ## Every error is of a kind -/

theorem errorAt_split (size : Nat) (cause : SyntaxError.Cause) (before after : List Token)
    (t : Token) : errorAt size cause ((before ++ t :: after).drop before.length) =
      ⟨cause, t.offset, t.text⟩ := by
  rw [List.drop_left]
  rfl

theorem cause_errorAt (size : Nat) (cause : SyntaxError.Cause) (site : List Token) :
    (errorAt size cause site).cause = cause := by
  cases site <;> rfl

/-- What the machine has run over without a result is incomplete. -/
theorem incomplete_of_conclude (size : Nat) {s : Machine.State}
    (hs : machine.run 0 Machine.start (kinds ts) = .ok s)
    (hc : Machine.conclude (kinds ts).length s = .error e) :
    Incomplete size ts (errorAt size e.cause (ts.drop e.place)) := by
  have hend : ts.drop (kinds ts).length = [] := by rw [kinds, List.length_map, List.drop_length]
  refine ⟨viable_iff.2 ⟨s, hs⟩, fun h => ?_, ?_⟩
  · obtain ⟨w, hw⟩ := accepts_iff_read.1 h
    obtain ⟨s', hs', hc'⟩ := Machine.read_eq_ok hw
    rw [hs] at hs'
    cases hs'
    rw [hc] at hc'
    cases hc'
  · have hr := Machine.reads_of_run hs
    cases s with
    | operand =>
      cases hc
      rw [hend]
      exact Or.inl ⟨Or.inl rfl, rfl, rfl⟩
    | excepting =>
      cases hc
      rw [hend]
      exact Or.inl ⟨Or.inr rfl, rfl, rfl⟩
    | surplus => cases hc
    | behind f w outer =>
      cases outer with
      | nil => cases hc
      | cons gq outer =>
        cases hc
        obtain ⟨us, vs, hsplit, hplace, hvs⟩ := hr.exists_innermost
        have hlast := hvs.lastUnclosed Token.opening_ne_closing us
        rw [← hsplit, hplace] at hlast
        obtain ⟨before, t, after, rfl, rfl, -, -⟩ := Token.exists_split_of_kinds hsplit
        rw [kinds, List.length_map] at hplace
        rw [← hplace] at hlast ⊢
        rw [errorAt_split]
        exact Or.inr ⟨rfl, before, t, after, rfl, ⟨rfl, rfl⟩, hlast⟩

/-- A refused step is about the first token that rules the input out, or
    about closing parentheses too many. -/
theorem overrun_or_derailed (size : Nat) (h : machine.run 0 Machine.start (kinds ts) = .error e) :
    Overrun ts (errorAt size e.cause (ts.drop e.place)) ∨
      Derailed ts (errorAt size e.cause (ts.drop e.place)) := by
  obtain ⟨us, k, vs, s, hk, hs, hstep⟩ := Machine.exists_step_error h
  rcases Machine.step_error hstep with ⟨hplace, hcause⟩ | ⟨w, rfl, hcause, hk'⟩
  · obtain ⟨before, t, after, rfl, rfl, rfl, -⟩ := Token.exists_split_of_kinds hk
    have hlength : e.place = before.length := by
      rw [hplace, Nat.zero_add, kinds, List.length_map]
    rw [hlength, errorAt_split]
    refine Or.inr ⟨before, t, after, rfl, ⟨rfl, rfl⟩, hcause, viable_iff.2 ⟨s, hs⟩, fun hv => ?_⟩
    obtain ⟨s', hs'⟩ := viable_iff.1 hv
    rw [Token.kinds_append, Machine.run_append_of_ok hs, Token.kinds_cons,
      Machine.run_cons_of_error hstep] at hs'
    cases hs'
  · have hr := Machine.reads_of_run hs
    have hd := Machine.depth_le_of_run hs
    generalize hq : e.place = q at hr ⊢
    cases hr with
    | @surplus _ ks n hw =>
      have hsplit : kinds ts = ks ++ .closing :: (List.replicate n .closing ++ k :: vs) := by
        rw [hk, List.replicate_succ]
        simp
      obtain ⟨before, t, after, rfl, rfl, ht, ha⟩ := Token.exists_split_of_kinds hsplit
      obtain ⟨cs, u, as, rfl, -, hu, -⟩ := Token.exists_split_of_kinds ha
      have hshallow : Token.depth (kinds before) ≤ maxDepth :=
        Nat.le_trans (nesting_prefix_le Token.opening_ne_closing (List.prefix_append _ _)) hd
      have hlength : (kinds before).length = before.length := List.length_map _
      rw [hlength, errorAt_split]
      refine Or.inl ⟨hcause, before, t, _, rfl, ⟨rfl, rfl⟩, ht, ?_, hw.balanced, u, ?_, hu ▸ hk'⟩
      · exact accepts_iff.2 ⟨_, 0, w, by simp, hw, hshallow⟩
      · exact List.mem_append_right _ List.mem_cons_self

/-! ## No error is of two kinds -/

/-- Tokens of a text are told apart by their offsets. -/
theorem split_unique {before after before' after' : List Token} {t t' : Token}
    (ho : ts.Pairwise (·.offset < ·.offset)) (h : ts = before ++ t :: after)
    (h' : ts = before' ++ t' :: after') (ht : t.offset = t'.offset) :
    before = before' ∧ t = t' := by
  have apart : ∀ {l m n : List Token} {a b : Token}, ts = l ++ a :: m ++ b :: n →
      a.offset = b.offset → False := by
    rintro l m n a b rfl hab
    rw [List.append_assoc, List.cons_append] at ho
    have hcons := (List.pairwise_append.1 ho).2.1
    have hlt : a.offset < b.offset :=
      (List.pairwise_cons.1 hcons).1 b (List.mem_append_right m List.mem_cons_self)
    omega
  rcases List.append_eq_append_iff.1 (h.symm.trans h') with ⟨l, rfl, hl⟩ | ⟨l, rfl, hl⟩
  · cases l with
    | nil => exact ⟨(List.append_nil _).symm, (List.cons.inj hl).1⟩
    | cons a l =>
      obtain ⟨rfl, -⟩ := List.cons.inj hl
      exact (apart h' ht).elim
  · cases l with
    | nil => exact ⟨List.append_nil _, (List.cons.inj hl).1.symm⟩
    | cons a l =>
      obtain ⟨rfl, -⟩ := List.cons.inj hl
      exact (apart h ht.symm).elim

/-- An error is about one token only. -/
theorem SyntaxError.At.unique {text : String} {t t' : Token} (ht : Token.tokenize text = .ok ts)
    (hmem : t ∈ ts) (hmem' : t' ∈ ts) (h : err.At t) (h' : err.At t') : t = t' := by
  obtain ⟨before, after, hsplit⟩ := List.append_of_mem hmem
  obtain ⟨before', after', hsplit'⟩ := List.append_of_mem hmem'
  have ho := (Token.tokenize_eq_ok_iff.1 ht).offsets.2
  exact (split_unique ho hsplit hsplit' (h.1.symm.trans h'.1)).2

/-- An error about a token is not about the end. -/
theorem SyntaxError.At.not_atEnd {text : String} {t : Token} {size : Nat}
    (ht : Token.tokenize text = .ok ts) (hmem : t ∈ ts) (h : err.At t) : ¬ err.AtEnd size := by
  intro hend
  have hlexical := (Token.tokenize_eq_ok_iff.1 ht).lexical t hmem
  exact Token.text_ne_empty hlexical (h.2.symm.trans hend.2)

theorem Incomplete.not_overrun {size : Nat} (h : Incomplete size ts err) : ¬ Overrun ts err := by
  rintro ⟨-, before, t, after, rfl, -, ht, -, hb, u, hu, hk⟩
  exact not_viable_of_surplus hb ht hu hk h.viable

theorem Incomplete.not_derailed {size : Nat} (h : Incomplete size ts err) : ¬ Derailed ts err := by
  rintro ⟨before, t, after, rfl, -, -, -, hn⟩
  refine hn (Viable.of_append after ?_)
  have := h.viable
  rwa [List.append_assoc, List.singleton_append]

theorem Overrun.not_derailed (ho : ts.Pairwise (·.offset < ·.offset)) (h : Overrun ts err) :
    ¬ Derailed ts err := by
  obtain ⟨-, before, t, after, hsplit, hat, ht, hacc, -⟩ := h
  rintro ⟨before', t', after', hsplit', hat', -, -, hn⟩
  obtain ⟨rfl, rfl⟩ := split_unique ho hsplit hsplit' (hat.1.symm.trans hat'.1)
  obtain ⟨e, c, hc⟩ := hacc.closing ht
  exact hn ⟨[], e, c, by rwa [List.append_nil]⟩

end

/-! ## Errors of two texts -/

/-- Errors of two texts are about the same place: about tokens with the same
    number, about the end, or about texts without tokens. -/
inductive SamePlace (text text' : String) (ts ts' : List Token) (err err' : SyntaxError) : Prop
  | token {i : Nat} {t t' : Token} : ts[i]? = some t → ts'[i]? = some t' → err.At t → err'.At t' →
      SamePlace text text' ts ts' err err'
  | atEnd : err.AtEnd text.utf8ByteSize → err'.AtEnd text'.utf8ByteSize →
      SamePlace text text' ts ts' err err'
  | empty : ts = [] → ts' = [] → err.cause = .emptyExpression → err'.cause = .emptyExpression →
      SamePlace text text' ts ts' err err'

/-- The error that is reported for a place is about the token there, or about
    the end of the text. -/
theorem errorAt_drop (size : Nat) (cause : SyntaxError.Cause) (ts : List Token) (i : Nat) :
    (∃ t, ts[i]? = some t ∧ (errorAt size cause (ts.drop i)).At t) ∨
      ts.length ≤ i ∧ (errorAt size cause (ts.drop i)).AtEnd size := by
  rcases Nat.lt_or_ge i ts.length with h | h
  · rw [List.drop_eq_getElem_cons h]
    exact Or.inl ⟨ts[i], List.getElem?_eq_getElem h, rfl, rfl⟩
  · rw [List.drop_eq_nil_iff.2 h]
    exact Or.inr ⟨h, rfl, rfl⟩

theorem samePlace_errorAt (text text' : String) (cause : SyntaxError.Cause) {ts ts' : List Token}
    (h : ts.length = ts'.length) (i : Nat) :
    SamePlace text text' ts ts' (errorAt text.utf8ByteSize cause (ts.drop i))
      (errorAt text'.utf8ByteSize cause (ts'.drop i)) := by
  rcases errorAt_drop text.utf8ByteSize cause ts i with ⟨t, ht, hat⟩ | ⟨hi, hend⟩
  · rcases errorAt_drop text'.utf8ByteSize cause ts' i with ⟨t', ht', hat'⟩ | ⟨hi, -⟩
    · exact .token ht ht' hat hat'
    · have := (List.getElem?_eq_some_iff.1 ht).1
      omega
  · rcases errorAt_drop text'.utf8ByteSize cause ts' i with ⟨t', ht', -⟩ | ⟨-, hend'⟩
    · have := (List.getElem?_eq_some_iff.1 ht').1
      omega
    · exact .atEnd hend hend'

/-- Tokens that are refused at the same place have errors of the same cause
    there. -/
theorem exists_errors_of_refused {text text' : String} {ts ts' : List Token} {e : Machine.Refusal}
    (ht : Token.tokenize text = .ok ts) (ht' : Token.tokenize text' = .ok ts')
    (hlength : ts.length = ts'.length) (hm : machine.read (kinds ts) = .error e)
    (hm' : machine.read (kinds ts') = .error e) :
    ∃ err err', parse text = .error err ∧ parse text' = .error err' ∧ err.cause = err'.cause ∧
      SamePlace text text' ts ts' err err' := by
  by_cases hne : ts = []
  · have hne' : ts' = [] := List.eq_nil_of_length_eq_zero (by rw [← hlength, hne]; rfl)
    subst hne hne'
    refine ⟨⟨.emptyExpression, 0, text⟩, ⟨.emptyExpression, 0, text'⟩, ?_, ?_, rfl,
      .empty rfl rfl rfl rfl⟩
    · rw [parse, read, ht]
    · rw [parse, read, ht']
  · have hne' : ts' ≠ [] := by
      rintro rfl
      exact hne (List.eq_nil_of_length_eq_zero hlength)
    exact ⟨_, _, parse_of_error ht hne hm, parse_of_error ht' hne' hm',
      by rw [cause_errorAt, cause_errorAt], samePlace_errorAt text text' e.cause hlength e.place⟩

/-- **Every error is reported at the leftmost possible place**: it is about
    the end of a text that could go on, or about the last open parenthesis of
    one; about a closing parenthesis too many; or about the first token that
    rules the text out. -/
theorem parse_error_site {text : String} {ts : List Token} {err : SyntaxError}
    (ht : Token.tokenize text = .ok ts) (hne : ts ≠ []) (h : parse text = .error err) :
    (Incomplete text.utf8ByteSize ts err ∧ ¬ Overrun ts err ∧ ¬ Derailed ts err) ∨
      (¬ Incomplete text.utf8ByteSize ts err ∧ Overrun ts err ∧ ¬ Derailed ts err) ∨
        (¬ Incomplete text.utf8ByteSize ts err ∧ ¬ Overrun ts err ∧ Derailed ts err) := by
  have ho : ts.Pairwise (·.offset < ·.offset) := (Token.tokenize_eq_ok_iff.1 ht).offsets.2
  obtain ⟨e, hm, rfl⟩ : ∃ e, machine.read (kinds ts) = .error e ∧
      err = errorAt text.utf8ByteSize e.cause (ts.drop e.place) := by
    cases hm : machine.read (kinds ts) with
    | ok w =>
      rw [parse_of_ok ht hm] at h
      cases h
    | error e =>
      rw [parse_of_error ht hne hm] at h
      exact ⟨e, rfl, (Except.error.inj h).symm⟩
  rw [Machine.read] at hm
  cases hs : machine.run 0 Machine.start (kinds ts) with
  | ok s =>
    rw [hs] at hm
    have hi := incomplete_of_conclude text.utf8ByteSize hs hm
    exact Or.inl ⟨hi, hi.not_overrun, hi.not_derailed⟩
  | error e' =>
    rw [hs] at hm
    cases hm
    rcases overrun_or_derailed text.utf8ByteSize hs with hov | hd
    · exact Or.inr (Or.inl ⟨fun hi => hi.not_overrun hov, hov, hov.not_derailed ho⟩)
    · exact Or.inr (Or.inr ⟨fun hi => hi.not_derailed hd, fun hov => hov.not_derailed ho hd, hd⟩)

/-- The first parenthesis too many is to blame, not the operator behind it. -/
theorem parse_error_site_surplus :
    ∃ ts err, Token.tokenize "(MIT)) AND" = .ok ts ∧ ts ≠ [] ∧
      parse "(MIT)) AND" = .error err ∧ err = ⟨.unmatchedParenthesis, 5, ")"⟩ ∧
        ((Incomplete 10 ts err ∧ ¬ Overrun ts err ∧ ¬ Derailed ts err) ∨
          (¬ Incomplete 10 ts err ∧ Overrun ts err ∧ ¬ Derailed ts err) ∨
            (¬ Incomplete 10 ts err ∧ ¬ Overrun ts err ∧ Derailed ts err)) := by
  have ht : Token.tokenize "(MIT)) AND" = .ok [⟨.opening, 0⟩, ⟨.id "MIT" false, 1⟩, ⟨.closing, 4⟩,
      ⟨.closing, 5⟩, ⟨.operator .and, 7⟩] := by
    have hand : Token.Scans 7 "AND".toList [⟨.operator .and, 7⟩] :=
      @Token.Scans.word 7 "AND" false [] [] (by decide) (fun _ => nofun) .nil
    have hmit : Token.Scans 1 "MIT)) AND".toList [⟨.id "MIT" false, 1⟩, ⟨.closing, 4⟩,
        ⟨.closing, 5⟩, ⟨.operator .and, 7⟩] :=
      @Token.Scans.word 1 "MIT" false _ _ (by decide) (fun _ => Token.ends_cons (by decide))
        (.closing (.closing (.blank (by decide) hand)))
    exact Token.tokenize_eq_ok_iff.2 (.opening hmit)
  have hne := List.cons_ne_nil (⟨.opening, 0⟩ : Token) [⟨.id "MIT" false, 1⟩, ⟨.closing, 4⟩,
    ⟨.closing, 5⟩, ⟨.operator .and, 7⟩]
  have he : parse "(MIT)) AND" = .error ⟨.unmatchedParenthesis, 5, ")"⟩ :=
    parse_of_error (e := ⟨.unmatchedParenthesis, 3⟩) ht hne rfl
  exact ⟨_, _, ht, hne, he, rfl, parse_error_site ht hne he⟩

end LicenseExpr
