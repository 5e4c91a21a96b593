/-
  The parser and the machine.

  * `drive` is the machine as a reader of tokens: it returns the same kind of
    outcome as the parser, with the events on the way;
  * a reader is `InStep` with the machine if driving the machine from where
    the reader was called gives what driving it from where the reader returned
    gives, and its refusals are refusals of the machine;
  * `atom_reads`, `withTerm_reads`, `chainOf_reads` and `expression_reads` go
    through the layers of the parser: each reader takes the machine over what
    its layer derives;
  * `readTokens_eq`: the parser is the machine, as soon as it may nest
    `maxDepth + 1` expressions, and it never stalls;
  * `parse_of_ok`, `parse_of_error`, `parse_eq_ok`: what becomes of a text is
    what the machine says of its tokens.
-/
import LicenseExpr.Parser
import LicenseExpr.Proofs.Recognition

namespace LicenseExpr

namespace Parser

open Machine
open Token (Kind)

/-! ## Driving the machine -/

/-- The machine of the parser. -/
def machine : Machine :=
  ⟨maxDepth, Written.isSingle⟩

/-- What is logged for a token. -/
def events : State → Kind → List Event
  | .operand _ _, .id word plus => licenseEvents word plus
  | .excepting _ _ _, .id word _ => exceptionEvents word
  | _, _ => []

/-- What is logged, at the end, for the tokens behind a complete expression. -/
def surplusEvents : List Token → List Event
  | [] => []
  | t :: ts => [.ignoredClosings t.offset (t :: ts).length]

/-- The number of tokens before those behind a complete expression, out of `n`. -/
def complete (n : Nat) : State → Nat
  | .surplus _ q => q
  | _ => n

variable (all : List Token)

/-- Drives the machine over the last tokens of `all`. -/
def drive (s : State) (log : List Event) : List Token → Outcome
  | [] =>
    match conclude all.length s with
    | .ok w =>
      .accepted w.toExpr ⟨all.drop (complete all.length s), 0,
        surplusEvents (all.drop (complete all.length s)) ++ log⟩
    | .error e => .rejected e.cause (all.drop e.place) ⟨[], s.depth, log⟩
  | t :: ts =>
    match machine.step (all.length - (t :: ts).length) s t.kind with
    | .ok s' => drive s' ((events s t.kind).reverse ++ log) ts
    | .error e => .rejected e.cause (all.drop e.place) ⟨all.drop e.place, s.depth, log⟩

variable {all} {s s' : State} {log : List Event} {t : Token} {ts : List Token}

theorem drive_ok {k : Kind} (hk : t.kind = k)
    (h : machine.step (all.length - (t :: ts).length) s k = .ok s') :
    drive all s log (t :: ts) = drive all s' ((events s k).reverse ++ log) ts := by
  subst hk
  rw [drive, h]

/-- The place behind a token. -/
theorem place_succ (h : t :: ts <:+ all) :
    all.length - (t :: ts).length + 1 = all.length - ts.length := by
  have := h.length_le
  simp only [List.length_cons] at *
  omega

theorem drop_place (h : ts <:+ all) : all.drop (all.length - ts.length) = ts :=
  (List.suffix_iff_eq_drop.1 h).symm

/-- A refusal of the token at hand. -/
theorem drive_error {k : Kind} {cause : SyntaxError.Cause} (hk : t.kind = k)
    (hs : t :: ts <:+ all) (h : machine.step (all.length - (t :: ts).length) s k =
      .error ⟨cause, all.length - (t :: ts).length⟩) :
    drive all s log (t :: ts) = .rejected cause (t :: ts) ⟨t :: ts, s.depth, log⟩ := by
  subst hk
  rw [drive, h]
  simp only [drop_place hs]

/-! ## Readers in step -/

variable (all) in
/-- A reader that was called at `c`, with the machine in the state `s`, has
    come to an outcome, and the machine comes to it too; `goal` says where the
    machine stands when the reader returns a tree. -/
inductive InStep (s : State) (c : Cursor) (goal : State → Expr → Cursor → Prop) : Outcome → Prop
  | accepted {e after s'} : drive all s c.log c.rest = drive all s' after.log after.rest →
      after.rest <:+ c.rest → after.depth = c.depth → goal s' e after →
      InStep s c goal (.accepted e after)
  | rejected {cause site last} : drive all s c.log c.rest = .rejected cause site last →
      InStep s c goal (.rejected cause site last)

namespace InStep
variable {c c' : Cursor} {goal : State → Expr → Cursor → Prop} {o : Outcome}

/-- Steps of the machine before the call. -/
theorem before (hd : drive all s c.log c.rest = drive all s' c'.log c'.rest)
    (hr : c'.rest <:+ c.rest) (hn : c'.depth = c.depth) (h : InStep all s' c' goal o) :
    InStep all s c goal o := by
  cases h with
  | accepted hd' hr' hn' hg => exact .accepted (hd.trans hd') (hr'.trans hr) (hn'.trans hn) hg
  | rejected hd' => exact .rejected (hd.trans hd')

end InStep

/-! ## Layers -/

/-- The operators that something of a layer does not leave behind itself. -/
def operators : Layer → List Operator
  | .atom => []
  | .term => [.withException]
  | .conjunction => [.and, .withException]
  | .disjunction => [.or, .and, .withException]

/-- The tokens do not go on with an operator of the layer. -/
def Stops (layer : Layer) (ts : List Token) : Prop :=
  ∀ op ∈ operators layer, startsWith op ts = false

/-- Something of the layer has been read, from the frame `f` on. -/
def Arrived (layer : Layer) (f : Frame) (outer : Outer) (s : State) (e : Expr) (after : Cursor) :
    Prop :=
  ∃ g v w, s = .behind g v outer ∧ HasRead layer f w g v ∧ w.toExpr = e ∧
    Stops layer after.rest ∧ (layer = .atom → v.isAtom = true)

variable (all) in
/-- A reader takes the machine over something of the layer, inside of `d` groups. -/
def Reads (d : Nat) (layer : Layer) (r : Reader) : Prop :=
  ∀ f outer c, Fresh layer f → outer.length = d → c.depth = d → c.rest <:+ all →
    InStep all (.operand f outer) c (Arrived layer f outer) (r c)

/-! ## The readers of the parser -/

section
variable {d : Nat} {inner operand : Reader}

theorem startsWith_iff {op : Operator} :
    startsWith op ts = true ↔ ∃ t us, ts = t :: us ∧ t.kind = .operator op := by
  cases ts with
  | nil => simp [startsWith]
  | cons t us => simp [startsWith]

/-- What the disjunction stops before cannot go on with an operator. -/
theorem Stops.kind_ne (h : Stops .disjunction (t :: ts)) (op : Operator) :
    t.kind ≠ .operator op := by
  intro hk
  have hs : startsWith op (t :: ts) = true := startsWith_iff.2 ⟨t, ts, rfl, hk⟩
  have hmem : op ∈ operators .disjunction := by cases op <;> simp [operators]
  rw [h op hmem] at hs
  cases hs

theorem atom_reads (hinner : d < maxDepth → Reads all (d + 1) .disjunction inner) :
    Reads all d .atom (atom inner) := by
  rintro f outer ⟨rest, depth, log⟩ - rfl rfl hsuf
  cases rest with
  | nil =>
    refine .rejected ?_
    simp only [drive, conclude, List.drop_length]
    rfl
  | cons t ts =>
    have hts : ts <:+ all := (List.suffix_cons t ts).trans hsuf
    cases hk : t.kind with
    | id word plus =>
      simp only [atom, hk]
      have hid : drive all (.operand f outer) log (t :: ts) =
          drive all (.behind f (.id word plus) outer)
            ((licenseEvents word plus).reverse ++ log) ts := drive_ok hk rfl
      exact .accepted hid (List.suffix_cons t ts) rfl
        ⟨f, _, _, rfl, ⟨rfl, rfl⟩, rfl, nofun, fun _ => rfl⟩
    | operator op =>
      simp only [atom, hk]
      exact .rejected (drive_error hk hsuf rfl)
    | closing =>
      simp only [atom, hk]
      exact .rejected (drive_error hk hsuf rfl)
    | opening =>
      simp only [atom, hk]
      by_cases hl : maxDepth ≤ outer.length
      · rw [if_pos hl]
        exact .rejected (drive_error hk hsuf (if_pos hl))
      · rw [if_neg hl]
        have hopen : drive all (.operand f outer) log (t :: ts) =
            drive all (.operand .empty ((f, all.length - (t :: ts).length) :: outer)) log ts :=
          drive_ok hk (if_neg hl)
        have hin := hinner (by omega) .empty ((f, all.length - (t :: ts).length) :: outer)
          ⟨ts, outer.length + 1, log⟩ rfl rfl rfl hts
        generalize inner ⟨ts, outer.length + 1, log⟩ = o at hin
        cases hin with
        | rejected hd => exact .rejected (hopen.trans hd)
        | @accepted e after s' hd hr hn hg =>
          obtain ⟨rest, depth, log'⟩ := after
          obtain ⟨g, v, w, rfl, hread, he, hstop, -⟩ := hg
          have hn : depth = outer.length + 1 := hn
          subst hn
          have hin : drive all (.operand f outer) log (t :: ts) =
              drive all (.behind g v ((f, all.length - (t :: ts).length) :: outer)) log' rest :=
            hopen.trans hd
          cases rest with
          | nil =>
            refine .rejected (hin.trans ?_)
            simp only [drive, conclude, drop_place hsuf]
            rfl
          | cons u beyond =>
            have hu : u :: beyond <:+ all := List.IsSuffix.trans hr hts
            cases hku : u.kind with
            | closing =>
              simp only [hku, if_pos]
              have hclose : drive all
                  (.behind g v ((f, all.length - (t :: ts).length) :: outer)) log' (u :: beyond) =
                  drive all (.behind f (.group (g.close v)) outer) log' beyond := drive_ok hku rfl
              have hw : g.close v = w := hread
              exact .accepted (hin.trans hclose)
                ((List.suffix_cons u beyond).trans (hr.trans (List.suffix_cons t ts))) rfl
                ⟨f, _, .group w, by rw [hw], ⟨rfl, rfl⟩, he, nofun, fun _ => rfl⟩
            | id word plus =>
              simp only [hku, reduceCtorEq, if_false]
              exact .rejected (hin.trans (drive_error hku hu rfl))
            | opening =>
              simp only [hku, reduceCtorEq, if_false]
              exact .rejected (hin.trans (drive_error hku hu rfl))
            | operator op => exact absurd hku (hstop.kind_ne op)

theorem exceptionTo_inStep {f : Frame} {v : Written} {outer : Outer} {rest : List Token}
    {log : List Event} (hsuf : rest <:+ all) :
    InStep all (.excepting f v outer) ⟨rest, outer.length, log⟩ (Arrived .term f outer)
      (exceptionTo v.toExpr ⟨rest, outer.length, log⟩) := by
  cases rest with
  | nil =>
    refine .rejected ?_
    simp only [drive, conclude, List.drop_length]
    rfl
  | cons t ts =>
    have hts : ts <:+ all := (List.suffix_cons t ts).trans hsuf
    cases hk : t.kind with
    | operator | opening | closing =>
      simp only [exceptionTo, hk]
      exact .rejected (drive_error hk hsuf rfl)
    | id word plus =>
      cases plus with
      | true =>
        simp only [exceptionTo, hk]
        exact .rejected (drive_error hk hsuf rfl)
      | false =>
        simp only [exceptionTo, hk]
        have hid : drive all (.excepting f v outer) log (t :: ts) =
            drive all (.behind f (.excepted v word) outer)
              ((exceptionEvents word).reverse ++ log) ts := drive_ok hk rfl
        by_cases hw : startsWith .withException ts = true
        · rw [if_pos hw]
          obtain ⟨u, us, rfl, hku⟩ := startsWith_iff.1 hw
          -- the operand of the second `WITH` is no atom
          exact .rejected (hid.trans (drive_error hku hts rfl))
        · rw [if_neg hw]
          refine .accepted hid (List.suffix_cons t ts) rfl
            ⟨f, _, .excepted v word, rfl, ⟨rfl, rfl⟩, rfl, ?_, nofun⟩
          intro op hop
          rw [List.mem_singleton.1 hop]
          exact Bool.eq_false_iff.2 hw

theorem withTerm_reads (hinner : d < maxDepth → Reads all (d + 1) .disjunction inner) :
    Reads all d .term (withTerm inner) := by
  intro f outer c _ hlen hdep hsuf
  have hatom := atom_reads hinner f outer c trivial hlen hdep hsuf
  rw [withTerm]
  generalize atom inner c = o at hatom
  cases hatom with
  | rejected hd => exact .rejected hd
  | @accepted e after s' hd hr hn hg =>
    obtain ⟨rest, depth, log'⟩ := after
    obtain ⟨g, v, w, rfl, ⟨rfl, rfl⟩, rfl, -, ha⟩ := hg
    have hn : depth = c.depth := hn
    have hrest : rest <:+ all := List.IsSuffix.trans hr hsuf
    simp only
    by_cases hw : startsWith .withException rest = true
    · rw [if_pos hw]
      obtain ⟨t, ts, rfl, hk⟩ := startsWith_iff.1 hw
      have hstep : machine.step (all.length - (t :: ts).length) (.behind g v outer)
          (.operator .withException) = if v.toExpr.isLicense then .ok (.excepting g v outer)
            else .error ⟨.invalidWithOperand, all.length - (t :: ts).length⟩ := by
        rw [Machine.step, ha rfl]
        rfl
      by_cases hl : v.toExpr.isLicense = true
      · rw [if_pos hl] at hstep ⊢
        have hwith : drive all (.behind g v outer) log' (t :: ts) =
            drive all (.excepting g v outer) log' ts := drive_ok hk hstep
        have hts : ts <:+ all := (List.suffix_cons t ts).trans hrest
        subst hn hlen
        rw [hdep]
        exact (exceptionTo_inStep hts).before (hd.trans hwith)
          ((List.suffix_cons t ts).trans hr) hdep.symm
      · rw [if_neg hl] at hstep ⊢
        subst hn hlen
        rw [hdep]
        exact .rejected (hd.trans (drive_error hk hrest hstep))
    · rw [if_neg hw]
      refine .accepted hd hr hn ⟨g, v, v, rfl, ⟨rfl, rfl⟩, rfl, ?_, ?_⟩
      · intro op hop
        rw [List.mem_singleton.1 hop]
        exact Bool.eq_false_iff.2 hw
      · intro hl
        cases hl

theorem operators_joins {op : Operator} {sub layer : Layer} (hj : Joins op sub layer) :
    operators layer = op :: operators sub := by
  cases hj <;> rfl

theorem moreOperands_inStep {op : Operator} {sub layer : Layer} (hj : Joins op sub layer)
    (hr : Reads all d sub operand) {f : Frame} {outer : Outer} (hlen : outer.length = d)
    (bound : Nat) {c : Cursor} {g : Frame} {v w : Written} (hread : HasRead layer f w g v)
    (hstop : Stops sub c.rest) (hb : c.rest.length ≤ bound) (hdep : c.depth = d)
    (hsuf : c.rest <:+ all) :
    InStep all (.behind g v outer) c (Arrived layer f outer)
      (moreOperands operand op bound w.toExpr c) := by
  have hnot : layer ≠ .atom := by
    rintro rfl
    cases hj
  induction bound generalizing c g v w with
  | zero =>
    have hnil : c.rest = [] := List.eq_nil_of_length_eq_zero (Nat.le_zero.1 hb)
    refine .accepted rfl (List.suffix_refl _) rfl ⟨g, v, w, rfl, hread, rfl, ?_, (absurd · hnot)⟩
    intro op' _
    rw [hnil]
    rfl
  | succ bound ih =>
    obtain ⟨rest, depth, log⟩ := c
    rw [moreOperands]
    by_cases hop : startsWith op rest = true
    · rw [if_pos hop]
      obtain ⟨t, ts, rfl, hk⟩ := startsWith_iff.1 hop
      have hnext : drive all (.behind g v outer) log (t :: ts) =
          drive all (.operand (g.next v op) outer) log ts := drive_ok hk (hj.step_ok _ _)
      have hts : ts <:+ all := (List.suffix_cons t ts).trans hsuf
      have hoperand := hr (g.next v op) outer ⟨ts, depth, log⟩ hj.fresh_next hlen hdep hts
      simp only [List.tail_cons]
      generalize operand ⟨ts, depth, log⟩ = o at hoperand
      cases hoperand with
      | rejected hd => exact .rejected (hnext.trans hd)
      | @accepted e after s' hd hr' hn hg =>
        obtain ⟨g', v', x, rfl, hread', rfl, hstop', -⟩ := hg
        have hb' : after.rest.length ≤ bound := by
          have := hr'.length_le
          have : (t :: ts).length ≤ bound + 1 := hb
          simp only [List.length_cons] at *
          omega
        have hmore := ih (hj.further hread hread') hstop' hb' (hn.trans hdep) (hr'.trans hts)
        rw [Written.toExpr, ← Expr.chain_eq_leftDeep] at hmore
        exact hmore.before (hnext.trans hd) (hr'.trans (List.suffix_cons t ts)) hn
    · rw [if_neg hop]
      refine .accepted rfl (List.suffix_refl _) rfl ⟨g, v, w, rfl, hread, rfl, ?_, (absurd · hnot)⟩
      intro op' hmem
      rw [operators_joins hj] at hmem
      rcases List.mem_cons.1 hmem with rfl | hmem
      · exact Bool.eq_false_iff.2 hop
      · exact hstop op' hmem

theorem chainOf_reads {op : Operator} {sub layer : Layer} (hj : Joins op sub layer)
    (hr : Reads all d sub operand) {bound : Nat} (hb : all.length ≤ bound) :
    Reads all d layer (chainOf operand op bound) := by
  intro f outer c hf hlen hdep hsuf
  have hfirst := hr f outer c (hj.fresh hf) hlen hdep hsuf
  rw [chainOf]
  generalize operand c = o at hfirst
  cases hfirst with
  | rejected hd => exact .rejected hd
  | @accepted e after s' hd hr' hn hg =>
    obtain ⟨g, v, w, rfl, hread, rfl, hstop, -⟩ := hg
    have hsuf' : after.rest <:+ all := hr'.trans hsuf
    have hmore := moreOperands_inStep hj hr hlen bound (hj.first hf hread) hstop
      (Nat.le_trans hsuf'.length_le hb) (hn.trans hdep) hsuf'
    exact hmore.before hd hr' hn

/-- **The parser of expressions is in step with the machine** inside of `d`
    groups, if it may nest one more expression for every group that can still
    be opened. -/
theorem expression_reads {bound : Nat} (hb : all.length ≤ bound) (n : Nat) (hd : d ≤ maxDepth)
    (hn : maxDepth + 1 ≤ n + d) : Reads all d .disjunction (expression bound n) := by
  induction n generalizing d with
  | zero => omega
  | succ n ih =>
    have hterm : Reads all d .term (withTerm (expression bound n)) :=
      withTerm_reads fun hlt => ih hlt (by omega)
    exact chainOf_reads .or (chainOf_reads .and hterm hb) hb

end

/-! ## Whole inputs -/

/-- Behind a complete expression there may only be closing parentheses. -/
theorem drive_surplus (w : Written) (q : Nat) (log : List Event) (us : List Token) :
    drive all (.surplus w q) log us =
      if us.all (·.kind == .closing) then
        .accepted w.toExpr ⟨all.drop q, 0, surplusEvents (all.drop q) ++ log⟩
      else .rejected .unmatchedParenthesis (all.drop q) ⟨all.drop q, 0, log⟩ := by
  induction us with
  | nil => rfl
  | cons u us ih =>
    cases hk : u.kind with
    | closing =>
      have hstep : drive all (.surplus w q) log (u :: us) = drive all (.surplus w q) log us :=
        drive_ok hk rfl
      rw [hstep, ih]
      simp [hk]
    | id | operator | opening =>
      rw [drive, hk]
      simp [Machine.step, hk, State.depth]

theorem finish_eq {g : Frame} {v : Written} {log : List Event} {rest : List Token}
    (hsuf : rest <:+ all) (hstop : Stops .disjunction rest) :
    finish (g.close v).toExpr ⟨rest, 0, log⟩ = drive all (.behind g v []) log rest := by
  cases rest with
  | nil =>
    simp only [finish, drive, conclude, complete, List.drop_length]
    rfl
  | cons t ts =>
    cases hk : t.kind with
    | operator op => exact absurd hk (hstop.kind_ne op)
    | id | opening =>
      rw [drive_error hk hsuf rfl]
      simp [finish, hk]
      rfl
    | closing =>
      have hclose : drive all (.behind g v []) log (t :: ts) =
          drive all (.surplus (g.close v) (all.length - (t :: ts).length)) log ts :=
        drive_ok hk rfl
      rw [hclose, drive_surplus, drop_place hsuf]
      simp only [finish, List.all_cons, hk, beq_self_eq_true, Bool.true_and, if_true]
      rfl

/-- **The parser is the machine**, however many expressions beyond
    `maxDepth + 1` it may nest. -/
theorem readTokens_eq (n : Nat) (ts : List Token) :
    readTokens (maxDepth + 1 + n) ts = drive ts start [] ts := by
  have hr : Reads ts 0 .disjunction (expression ts.length (maxDepth + 1 + n)) :=
    expression_reads (Nat.le_refl _) _ (Nat.zero_le _) (by omega)
  have hstart := hr .empty [] ⟨ts, 0, []⟩ rfl rfl rfl (List.suffix_refl ts)
  rw [readTokens, start]
  generalize expression ts.length (maxDepth + 1 + n) ⟨ts, 0, []⟩ = o at hstart
  cases hstart with
  | rejected hd => exact hd.symm
  | @accepted e after s' hd hr' hn hg =>
    obtain ⟨rest, depth, log⟩ := after
    obtain ⟨g, v, w, rfl, hread, rfl, hstop, -⟩ := hg
    have hdepth : depth = 0 := hn
    have hw : g.close v = w := hread
    subst hdepth hw
    exact (finish_eq hr' hstop).trans hd.symm

/-- Driving the machine is running it: the parser ends where the run ends,
    and is refused what the run is refused. -/
theorem drive_run (s : State) (log : List Event) (hsuf : ts <:+ all) :
    (∀ s', machine.run (all.length - ts.length) s (Token.kinds ts) = .ok s' →
      ∃ log', drive all s log ts = drive all s' log' []) ∧
    ∀ e, machine.run (all.length - ts.length) s (Token.kinds ts) = .error e →
      ∃ last, drive all s log ts = .rejected e.cause (all.drop e.place) last := by
  induction ts generalizing s log with
  | nil =>
    refine ⟨fun s' h => ?_, fun e h => ?_⟩
    · cases h
      exact ⟨log, rfl⟩
    · cases h
  | cons t ts ih =>
    have hts : ts <:+ all := (List.suffix_cons t ts).trans hsuf
    rw [Token.kinds, List.map_cons, run, place_succ hsuf]
    cases hk : machine.step (all.length - (t :: ts).length) s t.kind with
    | error e =>
      refine ⟨fun s' h => ?_, fun e' h => ?_⟩
      · cases h
      · cases h
        exact ⟨_, by rw [drive, hk]⟩
    | ok u =>
      have hstep : drive all s log (t :: ts) =
          drive all u ((events s t.kind).reverse ++ log) ts := drive_ok rfl hk
      rw [hstep]
      exact ih _ _ hts

/-- Driving the machine over a whole input. -/
theorem drive_start (ts : List Token) :
    (∀ s, machine.run 0 start (Token.kinds ts) = .ok s →
      ∃ log, drive ts start [] ts = drive ts s log []) ∧
    ∀ e, machine.run 0 start (Token.kinds ts) = .error e →
      ∃ last, drive ts start [] ts = .rejected e.cause (ts.drop e.place) last := by
  have h := drive_run start [] (List.suffix_refl ts)
  rwa [Nat.sub_self] at h

/-- What the machine accepts, the parser accepts. -/
theorem readTokens_of_ok {w : Written} (h : machine.read (Token.kinds ts) = .ok w) :
    ∃ after, readTokens (maxDepth + 1) ts = .accepted w.toExpr after := by
  obtain ⟨s, hs, hc⟩ := read_eq_ok h
  obtain ⟨log, hlog⟩ := (drive_start ts).1 s hs
  rw [List.length_map] at hc
  refine ⟨⟨ts.drop (complete ts.length s), 0,
    surplusEvents (ts.drop (complete ts.length s)) ++ log⟩, ?_⟩
  rw [readTokens_eq 0, hlog, drive, hc]

/-- What the machine refuses, the parser refuses, for the same cause and at
    the same token. -/
theorem readTokens_of_error {e : Refusal} (h : machine.read (Token.kinds ts) = .error e) :
    ∃ last, readTokens (maxDepth + 1) ts = .rejected e.cause (ts.drop e.place) last := by
  rw [readTokens_eq 0]
  rw [Machine.read] at h
  cases hs : machine.run 0 start (Token.kinds ts) with
  | error e' =>
    rw [hs] at h
    cases h
    exact (drive_start ts).2 e hs
  | ok s =>
    rw [hs] at h
    obtain ⟨log, hlog⟩ := (drive_start ts).1 s hs
    have hc : conclude ts.length s = .error e := by
      simpa only [List.length_map] using h
    exact ⟨_, by rw [hlog, drive, hc]⟩

end Parser

/-! ## Texts -/

section
open LicenseExpr.Parser
variable {text : String} {ts : List Token}

/-- Reading a text whose tokens the parser accepts. -/
theorem read_of_accepted {e : Expr} {after : Cursor} (ht : Token.tokenize text = .ok ts)
    (hne : ts ≠ []) (h : readTokens (maxDepth + 1) ts = .accepted e after) :
    LicenseExpr.read text = ⟨.ok e, after.log.reverse⟩ := by
  cases ts with
  | nil => exact absurd rfl hne
  | cons t ts => simp only [LicenseExpr.read, ht, h]

/-- Reading a text whose tokens the parser refuses. -/
theorem read_of_rejected {cause : SyntaxError.Cause} {site : List Token} {last : Cursor}
    (ht : Token.tokenize text = .ok ts) (hne : ts ≠ [])
    (h : readTokens (maxDepth + 1) ts = .rejected cause site last) :
    LicenseExpr.read text = ⟨.error (errorAt text.utf8ByteSize cause site), last.log.reverse⟩ := by
  cases ts with
  | nil => exact absurd rfl hne
  | cons t ts => simp only [LicenseExpr.read, ht, h]

theorem parse_of_ok {w : Written} (ht : Token.tokenize text = .ok ts)
    (h : machine.read (Token.kinds ts) = .ok w) : parse text = .ok w.toExpr := by
  obtain ⟨after, hr⟩ := readTokens_of_ok h
  have hne : ts ≠ [] := by
    rintro rfl
    cases h
  rw [parse, read_of_accepted ht hne hr]

theorem parse_of_error {e : Machine.Refusal} (ht : Token.tokenize text = .ok ts) (hne : ts ≠ [])
    (h : machine.read (Token.kinds ts) = .error e) :
    parse text = .error (errorAt text.utf8ByteSize e.cause (ts.drop e.place)) := by
  obtain ⟨last, hr⟩ := readTokens_of_error h
  rw [parse, read_of_rejected ht hne hr]

/-- **A text is an expression** exactly if the machine accepts its tokens. -/
theorem parse_eq_ok {e : Expr} : parse text = .ok e ↔
    ∃ ts w, Token.tokenize text = .ok ts ∧ machine.read (Token.kinds ts) = .ok w ∧
      w.toExpr = e := by
  constructor
  · intro h
    cases ht : Token.tokenize text with
    | error e' => simp [parse, read, ht] at h
    | ok ts =>
      cases hm : machine.read (Token.kinds ts) with
      | ok w =>
        rw [parse_of_ok ht hm] at h
        exact ⟨ts, w, rfl, hm, Except.ok.inj h⟩
      | error e' =>
        by_cases hne : ts = []
        · subst hne
          simp [parse, read, ht] at h
        · rw [parse_of_error ht hne hm] at h
          cases h
  · rintro ⟨ts, w, ht, hm, rfl⟩
    exact parse_of_ok ht hm

end

end LicenseExpr
