/-
  Open parentheses.

  * `Tally ts c`: at the cursor `c`, the depth is the number of parentheses
    that the tokens before it open and do not close, and it is admitted;
  * a reader `Keeps` the tally if it returns, wherever it is called with a
    right tally, with a right one and at the same depth, and if its refusals
    come with a right tally too; `keeps_atom` to `keeps_expression` go through
    the layers of the parser;
  * `Calls` lists the calls that each reader makes, and `Made` follows them
    from the start of an input; what one call keeps (`Sound.step`), all of
    them keep (`Made.sound`);
  * `parenthesis_errors`: which error a parenthesis gets is told by the tokens
    before it, and the depth is right in every call of a run.
-/
import LicenseExpr.Proofs.Refusals
import Mathlib.Logic.Relation

namespace LicenseExpr

open Token (Kind kinds)

/-- The number of opening parentheses among the tokens. -/
abbrev Token.opened (ts : List Token) : Nat :=
  (kinds ts).count Kind.opening

/-- The number of closing parentheses among the tokens. -/
abbrev Token.closed (ts : List Token) : Nat :=
  (kinds ts).count Kind.closing

namespace Parser

open Machine (Joins)
open Token (opened closed)

/-! ## The tally of open parentheses -/

/-- The depth is what the tokens of `ts` before the cursor leave open. -/
structure Tally (ts : List Token) (c : Cursor) : Prop where
  counted : ∃ before, ts = before ++ c.rest ∧ opened before = closed before + c.depth
  bounded : c.depth ≤ maxDepth

/-- What may come of reading from the cursor `c`: the depth is the same behind
    a tree, and the tally is right there and where a refusal was found, which
    is at the offending token or at the end of the input. -/
inductive Kept (ts : List Token) (c : Cursor) : Outcome → Prop
  | accepted {e after} : Tally ts after → after.depth = c.depth → Kept ts c (.accepted e after)
  | rejected {cause site last} : Tally ts last → last.rest = site ∨ last.rest = [] →
      Kept ts c (.rejected cause site last)

/-- Inside of `d` groups, the reader keeps the tally. -/
def Keeps (ts : List Token) (d : Nat) (r : Reader) : Prop :=
  ∀ c, Tally ts c → c.depth = d → Kept ts c (r c)

section
variable {ts rest : List Token} {t : Token} {c c' : Cursor} {d d' : Nat} {log log' : List Event}
  {inner operand : Reader} {o : Outcome}

theorem tally_start (ts : List Token) : Tally ts ⟨ts, 0, []⟩ :=
  ⟨⟨[], rfl, rfl⟩, Nat.zero_le _⟩

/-- Over a token, the depth goes with the parenthesis that the token is. -/
theorem Tally.next (h : Tally ts ⟨t :: rest, d, log⟩) (log' : List Event) (hd : d' ≤ maxDepth)
    (ht : [t.kind].count Kind.opening + d = [t.kind].count Kind.closing + d') :
    Tally ts ⟨rest, d', log'⟩ := by
  obtain ⟨⟨before, hts, hcount⟩, -⟩ := h
  refine ⟨⟨before ++ [t], by rw [hts, List.append_assoc]; rfl, ?_⟩, hd⟩
  have hcount : (kinds before).count Kind.opening = (kinds before).count Kind.closing + d := hcount
  have hkinds : kinds (before ++ [t]) = kinds before ++ [t.kind] := Token.kinds_append _ _
  show (kinds (before ++ [t])).count Kind.opening = (kinds (before ++ [t])).count Kind.closing + d'
  rw [hkinds, List.count_append, List.count_append]
  omega

theorem Tally.skip (h : Tally ts ⟨t :: rest, d, log⟩) (log' : List Event)
    (ht : t.kind ≠ .opening ∧ t.kind ≠ .closing) : Tally ts ⟨rest, d, log'⟩ :=
  h.next log' h.bounded (by simp [ht.1, ht.2])

theorem Tally.enter (h : Tally ts ⟨t :: rest, d, log⟩) (log' : List Event)
    (ht : t.kind = .opening) (hd : d < maxDepth) : Tally ts ⟨rest, d + 1, log'⟩ :=
  h.next log' hd (by simp [ht]; omega)

theorem Tally.leave (h : Tally ts ⟨t :: rest, d + 1, log⟩) (log' : List Event)
    (ht : t.kind = .closing) : Tally ts ⟨rest, d, log'⟩ :=
  h.next log' (Nat.le_of_succ_le h.bounded) (by simp [ht]; omega)

/-- Over an operator that the input goes on with. -/
theorem Tally.tail {op : Operator} (h : Tally ts c) (hop : startsWith op c.rest = true) :
    Tally ts { c with rest := c.rest.tail } := by
  obtain ⟨rest, depth, log⟩ := c
  obtain ⟨t, us, rfl, hk⟩ := startsWith_iff.1 hop
  exact h.skip log (by simp [hk])

theorem Kept.before (h : Kept ts c' o) (hd : c'.depth = c.depth) : Kept ts c o := by
  cases h with
  | accepted ha hd' => exact .accepted ha (hd'.trans hd)
  | rejected hl hs => exact .rejected hl hs

/-! ## The readers of the parser -/

theorem keeps_atom (hinner : d < maxDepth → Keeps ts (d + 1) inner) : Keeps ts d (atom inner) := by
  rintro ⟨rest, depth, log⟩ hc rfl
  cases rest with
  | nil => exact .rejected hc (Or.inl rfl)
  | cons t rest =>
    cases hk : t.kind with
    | id word plus =>
      simp only [atom, hk]
      exact .accepted (hc.skip _ (by simp [hk])) rfl
    | operator | closing =>
      simp only [atom, hk]
      exact .rejected hc (Or.inl rfl)
    | opening =>
      simp only [atom, hk]
      by_cases hl : maxDepth ≤ depth
      · rw [if_pos hl]
        exact .rejected hc (Or.inl rfl)
      · rw [if_neg hl]
        have hl : depth < maxDepth := Nat.lt_of_not_le hl
        have hin := hinner hl ⟨rest, depth + 1, log⟩ (hc.enter log hk hl) rfl
        generalize inner ⟨rest, depth + 1, log⟩ = o at hin
        cases hin with
        | rejected hlast hsite => exact .rejected hlast hsite
        | @accepted e after hafter hd =>
          -- the group is as deep at its end as at its start, so closing it
          -- comes back to the depth before its `(`
          obtain ⟨rest', depth', log'⟩ := after
          have hd : depth' = depth + 1 := hd
          subst hd
          cases rest' with
          | nil => exact .rejected hafter (Or.inr rfl)
          | cons u beyond =>
            simp only
            by_cases hu : u.kind = .closing
            · rw [if_pos hu]
              exact .accepted (hafter.leave log' hu) rfl
            · rw [if_neg hu]
              exact .rejected hafter (Or.inl rfl)

theorem keeps_exceptionTo (license : Expr) : Keeps ts d (exceptionTo license) := by
  rintro ⟨rest, depth, log⟩ hc -
  cases rest with
  | nil => exact .rejected hc (Or.inl rfl)
  | cons t rest =>
    cases hk : t.kind with
    | operator | opening | closing =>
      simp only [exceptionTo, hk]
      exact .rejected hc (Or.inl rfl)
    | id word plus =>
      cases plus with
      | true =>
        simp only [exceptionTo, hk]
        exact .rejected hc (Or.inl rfl)
      | false =>
        simp only [exceptionTo, hk]
        have hafter := hc.skip ((exceptionEvents word).reverse ++ log)
          (by simp [hk])
        by_cases hw : startsWith .withException rest = true
        · rw [if_pos hw]
          exact .rejected hafter (Or.inl rfl)
        · rw [if_neg hw]
          exact .accepted hafter rfl

theorem keeps_withTerm (hatom : Keeps ts d (atom inner)) : Keeps ts d (withTerm inner) := by
  intro c hc hd
  have h := hatom c hc hd
  rw [withTerm]
  generalize atom inner c = o at h
  cases h with
  | rejected hlast hsite => exact .rejected hlast hsite
  | @accepted e after hafter hd' =>
    simp only
    by_cases hw : startsWith .withException after.rest = true
    · rw [if_pos hw]
      by_cases hl : e.isLicense = true
      · rw [if_pos hl]
        exact (keeps_exceptionTo e _ (hafter.tail hw) rfl).before hd'
      · rw [if_neg hl]
        exact .rejected hafter (Or.inl rfl)
    · rw [if_neg hw]
      exact .accepted hafter hd'

theorem keeps_moreOperands {op : Operator} (hoperand : Keeps ts d operand) (bound : Nat)
    (e : Expr) : Keeps ts d (moreOperands operand op bound e) := by
  induction bound generalizing e with
  | zero => exact fun c hc _ => .accepted hc rfl
  | succ bound ih =>
    intro c hc hd
    rw [moreOperands]
    by_cases hop : startsWith op c.rest = true
    · rw [if_pos hop]
      have h := hoperand _ (hc.tail hop) hd
      generalize operand { c with rest := c.rest.tail } = o at h
      cases h with
      | rejected hlast hsite => exact .rejected hlast hsite
      | accepted hafter hd' => exact (ih _ _ hafter (hd'.trans hd)).before hd'
    · rw [if_neg hop]
      exact .accepted hc rfl

theorem keeps_chainOf {op : Operator} {bound : Nat} (hoperand : Keeps ts d operand) :
    Keeps ts d (chainOf operand op bound) := by
  intro c hc hd
  have h := hoperand c hc hd
  rw [chainOf]
  generalize operand c = o at h
  cases h with
  | rejected hlast hsite => exact .rejected hlast hsite
  | accepted hafter hd' =>
    exact (keeps_moreOperands hoperand _ _ _ hafter (hd'.trans hd)).before hd'

theorem keeps_finish (e : Expr) : Keeps ts d (finish e) := by
  rintro ⟨rest, depth, log⟩ hc -
  cases rest with
  | nil => exact .accepted hc rfl
  | cons t rest =>
    simp only [finish]
    split
    · exact .accepted ⟨hc.counted, hc.bounded⟩ rfl
    · exact .rejected hc (Or.inl rfl)

end

/-! ## Calls -/

/-- The reader of a layer, inside of which `n` expressions may be nested. -/
def reader (bound n : Nat) : Layer → Reader
  | .atom => atom (expression bound n)
  | .term => withTerm (expression bound n)
  | .conjunction => chainOf (withTerm (expression bound n)) .and bound
  | .disjunction => expression bound (n + 1)

section
variable {ts : List Token} {bound n d : Nat}

theorem keeps_layer (hgroup : d < maxDepth → Keeps ts (d + 1) (expression bound n))
    (layer : Layer) : Keeps ts d (reader bound n layer) := by
  have hterm : Keeps ts d (withTerm (expression bound n)) := keeps_withTerm (keeps_atom hgroup)
  cases layer with
  | atom => exact keeps_atom hgroup
  | term => exact hterm
  | conjunction => exact keeps_chainOf hterm
  | disjunction => exact keeps_chainOf (keeps_chainOf hterm)

/-- **Every layer keeps the tally**, if one expression may be nested for
    every group that can still be opened. -/
theorem keeps_reader (hn : n + d = maxDepth) (layer : Layer) :
    Keeps ts d (reader bound n layer) := by
  induction n generalizing d layer with
  | zero => exact keeps_layer (fun hd => by omega) layer
  | succ n ih => exact keeps_layer (fun _ => ih (by omega) .disjunction) layer

end

/-- What a call reads. -/
inductive Part where
  /-- Something of a layer. -/
  | layer (l : Layer)
  /-- An exception to the license. -/
  | exception (license : Expr)
  /-- At most `fuel` further operands of a chain that has come to `e`. -/
  | further (op : Operator) (operand : Layer) (fuel : Nat) (e : Expr)

/-- A call of a reader, inside of which `nested` expressions may be nested. -/
structure Call where
  nested : Nat
  part : Part
  cursor : Cursor

/-- What comes of a call. -/
def Call.outcome (bound : Nat) (call : Call) : Outcome :=
  match call.part with
  | .layer l => reader bound call.nested l call.cursor
  | .exception license => exceptionTo license call.cursor
  | .further op operand fuel e =>
    moreOperands (reader bound call.nested operand) op fuel e call.cursor

/-- The calls that a call makes, each with what has to hold for its reader to
    make it; going on with a chain counts as a call. -/
inductive Calls (bound : Nat) : Call → Call → Prop
  | group {n c t rest} : c.rest = t :: rest → t.kind = .opening → c.depth < maxDepth →
      Calls bound ⟨n + 1, .layer .atom, c⟩
        ⟨n, .layer .disjunction, { c with rest := rest, depth := c.depth + 1 }⟩
  | atom {n c} : Calls bound ⟨n, .layer .term, c⟩ ⟨n, .layer .atom, c⟩
  | exception {n c e after} : reader bound n .atom c = .accepted e after →
      startsWith .withException after.rest = true → e.isLicense = true →
      Calls bound ⟨n, .layer .term, c⟩
        ⟨n, .exception e, { after with rest := after.rest.tail }⟩
  | first {op sub layer n c} : Joins op sub layer →
      Calls bound ⟨n, .layer layer, c⟩ ⟨n, .layer sub, c⟩
  | further {op sub layer n c e after} : Joins op sub layer →
      reader bound n sub c = .accepted e after →
      Calls bound ⟨n, .layer layer, c⟩ ⟨n, .further op sub bound e, after⟩
  | operand {op sub fuel e n c} : startsWith op c.rest = true →
      Calls bound ⟨n, .further op sub (fuel + 1) e, c⟩
        ⟨n, .layer sub, { c with rest := c.rest.tail }⟩
  | again {op sub fuel e n c r after} : startsWith op c.rest = true →
      reader bound n sub { c with rest := c.rest.tail } = .accepted r after →
      Calls bound ⟨n, .further op sub (fuel + 1) e, c⟩
        ⟨n, .further op sub fuel (e.chain op r), after⟩

/-- The calls that are made when the tokens are read. -/
def Made (ts : List Token) (call : Call) : Prop :=
  Relation.ReflTransGen (Calls ts.length) ⟨maxDepth, .layer .disjunction, ⟨ts, 0, []⟩⟩ call

/-- A call with a right tally that may nest an expression for every group
    that can still be opened. -/
structure Sound (ts : List Token) (call : Call) : Prop where
  tally : Tally ts call.cursor
  nested : call.nested + call.cursor.depth = maxDepth

section
variable {ts : List Token} {bound : Nat} {call call' : Call}

theorem Sound.kept (h : Sound ts call) : Kept ts call.cursor (call.outcome bound) := by
  obtain ⟨n, part, c⟩ := call
  cases part with
  | layer l => exact keeps_reader h.nested l c h.tally rfl
  | exception license => exact keeps_exceptionTo license c h.tally rfl
  | further op sub fuel e =>
    exact keeps_moreOperands (keeps_reader h.nested sub) fuel e c h.tally rfl

/-- What follows when a layer has been read. -/
theorem Tally.sound {n : Nat} {l : Layer} {c after : Cursor} {e : Expr} (h : Tally ts c)
    (hn : n + c.depth = maxDepth) (hr : reader bound n l c = .accepted e after) (part : Part) :
    Sound ts ⟨n, part, after⟩ := by
  have hk : Kept ts c (reader bound n l c) := keeps_reader hn l c h rfl
  rw [hr] at hk
  cases hk with
  | accepted hafter hd => exact ⟨hafter, (congrArg (n + ·) hd).trans hn⟩

/-- **The calls of a call with a right tally have one.** -/
theorem Sound.step (h : Sound ts call) (hc : Calls bound call call') : Sound ts call' := by
  cases hc with
  | @group n c t rest hrest ht hd =>
    obtain ⟨rest', depth, log⟩ := c
    have hrest : rest' = t :: rest := hrest
    subst hrest
    have hn : n + 1 + depth = maxDepth := h.nested
    exact ⟨h.tally.enter log ht hd, by show n + (depth + 1) = maxDepth; omega⟩
  | atom | first => exact ⟨h.tally, h.nested⟩
  | exception hr hw =>
    have ha := h.tally.sound h.nested hr (.layer .atom)
    exact ⟨ha.tally.tail hw, ha.nested⟩
  | further _ hr => exact h.tally.sound h.nested hr _
  | operand hop => exact ⟨h.tally.tail hop, h.nested⟩
  | again hop hr => exact (h.tally.tail hop).sound h.nested hr _

/-- **The tally is right in every call of a run.** -/
theorem Made.sound (h : Made ts call) : Sound ts call := by
  induction h with
  | refl => exact ⟨tally_start ts, rfl⟩
  | tail _ hc ih => exact ih.step hc

end

/-- The tokens are read as an expression, and then only closing parentheses may be left. -/
theorem kept_readTokens (ts : List Token) : Kept ts ⟨ts, 0, []⟩ (readTokens (maxDepth + 1) ts) := by
  have hk : Kept ts ⟨ts, 0, []⟩ (expression ts.length (maxDepth + 1) ⟨ts, 0, []⟩) :=
    keeps_reader (n := maxDepth) rfl .disjunction _ (tally_start ts) rfl
  rw [readTokens]
  generalize expression ts.length (maxDepth + 1) ⟨ts, 0, []⟩ = o at hk
  cases hk with
  | rejected hlast hsite => exact .rejected hlast hsite
  | @accepted e after hafter hd => exact (keeps_finish e after hafter rfl).before hd

end Parser

/-! ## Errors at parentheses -/

open LicenseExpr.Parser
open Token (OperandExpected opened closed)

/-- The text is refused for this cause at the token. -/
def FailsAt (text : String) (cause : SyntaxError.Cause) (t : Token) : Prop :=
  parse text = .error ⟨cause, t.offset, t.text⟩

/-- Which error is reported at the parenthesis `t` between other tokens. -/
structure ParenthesisErrors (text : String) (before : List Token) (t : Token)
    (after : List Token) : Prop where
  tooDeep : FailsAt text .nestingTooDeep t ↔ Viable before ∧ OperandExpected (kinds before) ∧
    opened before = closed before + maxDepth ∧ t.kind = .opening
  unmatched : t.kind = .closing → (FailsAt text .unmatchedParenthesis t ↔ Viable before ∧
    opened before = closed before ∧ (OperandExpected (kinds before) ∨
      Accepts before ∧ ∃ u ∈ after, u.kind ≠ .closing))
  unexpected : t.kind = .closing → (FailsAt text .unexpectedToken t ↔ Viable before ∧
    OperandExpected (kinds before) ∧ closed before < opened before)

/-- The depth is right throughout a run: in every call and return, at every
    refusal, and where a group is closed, which takes one from a positive
    depth. -/
structure CountsGroups (ts : List Token) : Prop where
  called : ∀ call, Made ts call → Tally ts call.cursor
  returned : ∀ call, Made ts call → Kept ts call.cursor (call.outcome ts.length)
  closed : ∀ n c group, Made ts ⟨n, .layer .atom, c⟩ →
    Calls ts.length ⟨n, .layer .atom, c⟩ group →
      ∀ e after, group.outcome ts.length = .accepted e after → after.depth = c.depth + 1
  ended : Kept ts ⟨ts, 0, []⟩ (readTokens (maxDepth + 1) ts)

theorem parenthesisErrors_of_tokenize {text : String} {before after : List Token} {t : Token}
    (ht : Token.tokenize text = .ok (before ++ t :: after)) :
    ParenthesisErrors text before t after where
  tooDeep := by
    rw [FailsAt, parse_error_at_iff ht, Machine.read_nestingTooDeep_iff, viable_iff]
    rfl
  unmatched := by
    intro hk
    have hafter : (∃ v ∈ kinds after, v ≠ .closing) ↔ ∃ u ∈ after, u.kind ≠ .closing := by
      constructor
      · rintro ⟨v, hv, hne⟩
        obtain ⟨u, hu, rfl⟩ := List.mem_map.1 hv
        exact ⟨u, hu, hne⟩
      · rintro ⟨u, hu, hne⟩
        exact ⟨u.kind, List.mem_map_of_mem hu, hne⟩
    rw [FailsAt, parse_error_at_iff ht, hk, Machine.read_unmatched_closing_iff, viable_iff,
      accepts_iff_read, hafter]
  unexpected := by
    intro hk
    rw [FailsAt, parse_error_at_iff ht, hk, Machine.read_unexpected_closing_iff, viable_iff]

theorem countsGroups (ts : List Token) : CountsGroups ts where
  called := fun _ h => h.sound.tally
  returned := fun _ h => h.sound.kept
  closed := by
    intro n c group h hc e after ho
    have hk : Kept ts group.cursor (group.outcome ts.length) := (h.sound.step hc).kept
    rw [ho] at hk
    cases hc with
    | group =>
      cases hk with
      | accepted _ hd => exact hd
    | first hj => cases hj
    | further hj => cases hj
  ended := kept_readTokens ts

/-- **The errors at parentheses follow the balance** of the tokens before
    them, and the depth that the parser counts is that balance. -/
theorem parenthesis_errors {text : String} {ts : List Token} (ht : Token.tokenize text = .ok ts) :
    (∀ before t after, ts = before ++ t :: after → ParenthesisErrors text before t after) ∧
      CountsGroups ts := by
  refine ⟨?_, countsGroups ts⟩
  rintro before t after rfl
  exact parenthesisErrors_of_tokenize ht

/-- A group has its partner, the next parenthesis has none, and `OR` is not to blame. -/
theorem parenthesis_errors_surplus :
    ∃ ts, Token.tokenize "(A)) OR B" = .ok ts ∧ CountsGroups ts ∧
      FailsAt "(A)) OR B" .unmatchedParenthesis ⟨.closing, 3⟩ := by
  have ht : Token.tokenize "(A)) OR B" = .ok [⟨.opening, 0⟩, ⟨.id "A" false, 1⟩, ⟨.closing, 2⟩,
      ⟨.closing, 3⟩, ⟨.operator .or, 5⟩, ⟨.id "B" false, 8⟩] := by
    have hb : Token.Scans 8 "B".toList [⟨.id "B" false, 8⟩] :=
      @Token.Scans.word 8 "B" false [] [] (by decide) (fun _ => nofun) .nil
    have hor : Token.Scans 5 "OR B".toList [⟨.operator .or, 5⟩, ⟨.id "B" false, 8⟩] :=
      @Token.Scans.word 5 "OR" false _ _ (by decide) (fun _ => Token.ends_cons (by decide))
        (.blank (by decide) hb)
    have ha : Token.Scans 1 "A)) OR B".toList [⟨.id "A" false, 1⟩, ⟨.closing, 2⟩, ⟨.closing, 3⟩,
        ⟨.operator .or, 5⟩, ⟨.id "B" false, 8⟩] :=
      @Token.Scans.word 1 "A" false _ _ (by decide) (fun _ => Token.ends_cons (by decide))
        (.closing (.closing (.blank (by decide) hor)))
    exact Token.tokenize_eq_ok_iff.2 (.opening ha)
  have hgroup : Accepts [⟨.opening, 0⟩, ⟨.id "A" false, 1⟩, ⟨.closing, 2⟩] :=
    accepts_iff_read.2 ⟨_, rfl⟩
  obtain ⟨herrors, hcounts⟩ := parenthesis_errors ht
  refine ⟨_, ht, hcounts, ?_⟩
  have hclosing := (herrors [⟨.opening, 0⟩, ⟨.id "A" false, 1⟩, ⟨.closing, 2⟩] ⟨.closing, 3⟩
    [⟨.operator .or, 5⟩, ⟨.id "B" false, 8⟩] rfl).unmatched rfl
  exact hclosing.2 ⟨⟨[], by rwa [List.append_nil]⟩, rfl,
    Or.inr ⟨hgroup, _, List.mem_cons_self, nofun⟩⟩

end LicenseExpr
