/-
  What the parser logs.

  * `Logs` says, rule by rule, what there is to log about a token, and
    `LogsAll` about tokens from left to right; `tokenEvents` computes it
    (`logs_iff`, `logsAll_iff`);
  * each step of the machine logs that about the token that it takes
    (`events_of_step`), hence so does a run (`drive_append`), and nothing is
    logged about the token that it refuses or about a later one;
  * `Reached` says how many tokens the parser has taken when it ends, and what
    it leaves behind the expression;
  * `read_events`: the events of a text are those of the tokens that the
    parser has taken, and a warning if closing parentheses are left.
-/
import LicenseExpr.Log
import LicenseExpr.Proofs.Contributions
import LicenseExpr.Proofs.Diagnosis
import LicenseExpr.Proofs.Language

namespace LicenseExpr

open Legacy
open Token (Kind kinds)

/-! ## Events of tokens -/

/-- What is logged about a token; the flag says whether `WITH` stands directly
    before it. -/
def tokenEvents : Bool → Kind → List Event
  | true, .id word _ => exceptionEvents word
  | false, .id word plus => licenseEvents word plus
  | _, _ => []

theorem idsOnly_tokenEvents : Token.IdsOnly tokenEvents where
  operator := by rintro (_ | _) op <;> rfl
  opening := by rintro (_ | _) <;> rfl
  closing := by rintro (_ | _) <;> rfl

/-- The rules for what is to be logged about a token. -/
inductive Logs : Bool → Kind → List Event → Prop
  /-- A combined id is expanded, and then its license half is rewritten. -/
  | combined {word plus c v} : c ∈ combined → foldCase c.id = foldCase word →
      v ∈ versioned → v.id = c.license →
      Logs false (.id word plus) [.expandedCombined word c.license c.exception,
        .rewroteLicense c.license plus (v.successor plus)]
  /-- A license id with two successors is rewritten to one of them. -/
  | versioned {word plus v} : v ∈ versioned → foldCase v.id = foldCase word →
      Logs false (.id word plus) [.rewroteLicense word plus (v.successor plus)]
  | license {word plus} : ¬ IsCombined word → ¬ IsVersioned word → Logs false (.id word plus) []
  /-- An exception id with a successor is rewritten. -/
  | renamed {word plus r} : r ∈ exceptions → foldCase r.id = foldCase word →
      Logs true (.id word plus) [.rewroteException word r.successor]
  | exception {word plus} : ¬ IsRenamed word → Logs true (.id word plus) []
  | operator {behindWith op} : Logs behindWith (.operator op) []
  | opening {behindWith} : Logs behindWith .opening []
  | closing {behindWith} : Logs behindWith .closing []

/-- What is to be logged about tokens, one after the other; the flag says
    whether `WITH` stands directly before the first one. -/
inductive LogsAll : Bool → List Kind → List Event → Prop
  | nil {behindWith} : LogsAll behindWith [] []
  | cons {behindWith k ks es fs} : Logs behindWith k es →
      LogsAll (k == .operator .withException) ks fs → LogsAll behindWith (k :: ks) (es ++ fs)

section
variable {b : Bool} {k : Kind} {ks : List Kind} {es : List Event}

theorem logs_tokenEvents (b : Bool) (k : Kind) : Logs b k (tokenEvents b k) := by
  cases k with
  | operator op => cases b <;> exact .operator
  | opening => cases b <;> exact .opening
  | closing => cases b <;> exact .closing
  | id word plus =>
    cases b with
    | true =>
      rw [tokenEvents, exceptionEvents]
      cases h : exception? word with
      | some r =>
        obtain ⟨hr, hw⟩ := exception?_eq_some_iff.1 h
        exact .renamed hr hw
      | none => exact .exception (exception?_eq_none_iff.1 h)
    | false =>
      rw [tokenEvents, licenseEvents]
      cases h : combined? word with
      | some c =>
        obtain ⟨hc, hw⟩ := combined?_eq_some_iff.1 h
        obtain ⟨v, hv, hvc⟩ := versioned_license_combined c hc
        simp only
        rw [versionedEvents, versioned?_eq_some_iff.2 ⟨hv, congrArg foldCase hvc⟩]
        exact .combined hc hw hv hvc
      | none =>
        simp only
        rw [versionedEvents]
        cases h' : versioned? word with
        | some v =>
          obtain ⟨hv, hw⟩ := versioned?_eq_some_iff.1 h'
          exact .versioned hv hw
        | none => exact .license (combined?_eq_none_iff.1 h) (versioned?_eq_none_iff.1 h')

/-- The rules leave no choice. -/
theorem logs_iff : Logs b k es ↔ es = tokenEvents b k := by
  constructor
  · intro h
    cases h with
    | @combined word plus c v hc hw hv hvc =>
      rw [tokenEvents, licenseEvents, combined?_eq_some_iff.2 ⟨hc, hw⟩]
      simp only
      rw [versionedEvents, versioned?_eq_some_iff.2 ⟨hv, congrArg foldCase hvc⟩]
    | @versioned word plus v hv hw =>
      have hnot : ¬ IsCombined word := by
        rintro ⟨key, hkey, hk⟩
        exact not_isCombined_versioned v hv ⟨key, hkey, hk.trans hw.symm⟩
      rw [tokenEvents, licenseEvents, combined?_eq_none_iff.2 hnot]
      simp only
      rw [versionedEvents, versioned?_eq_some_iff.2 ⟨hv, hw⟩]
    | license hc hv =>
      rw [tokenEvents, licenseEvents, combined?_eq_none_iff.2 hc]
      simp only
      rw [versionedEvents, versioned?_eq_none_iff.2 hv]
    | renamed hr hw => rw [tokenEvents, exceptionEvents, exception?_eq_some_iff.2 ⟨hr, hw⟩]
    | exception h => rw [tokenEvents, exceptionEvents, exception?_eq_none_iff.2 h]
    | operator => rw [idsOnly_tokenEvents.operator]
    | opening => rw [idsOnly_tokenEvents.opening]
    | closing => rw [idsOnly_tokenEvents.closing]
  · rintro rfl
    exact logs_tokenEvents b k

theorem logsAll_iff : LogsAll b ks es ↔ es = Token.collect tokenEvents b ks := by
  constructor
  · intro h
    induction h with
    | nil => rfl
    | cons hk _ ih => rw [Token.collect, logs_iff.1 hk, ih]
  · rintro rfl
    induction ks generalizing b with
    | nil => exact .nil
    | cons k ks ih => exact .cons (logs_tokenEvents b k) ih

/-- Rewriting an id is logged for debugging only. -/
theorem LogsAll.level_eq (h : LogsAll b ks es) : ∀ ev ∈ es, ev.record.level = .debug := by
  induction h with
  | nil => exact List.forall_mem_nil _
  | cons hk _ ih =>
    refine List.forall_mem_append.2 ⟨?_, ih⟩
    cases hk with
    | combined => exact List.forall_mem_cons.2 ⟨rfl, List.forall_mem_singleton.2 rfl⟩
    | versioned | renamed => exact List.forall_mem_singleton.2 rfl
    | license | exception | operator | opening | closing => exact List.forall_mem_nil _

end

/-! ## Events of runs -/

/-- An exception id has to come: `WITH` has just been read. -/
def Machine.State.isExcepting : Machine.State → Bool
  | .excepting _ _ _ => true
  | _ => false

namespace Parser

open Machine

section
variable {all before rest : List Token} {s s' : State} {p : Nat} {k : Kind} {log : List Event}

/-- **What a step logs** is what there is to log about its token, and the next
    state knows whether that was `WITH`. -/
theorem events_of_step (h : machine.step p s k = .ok s') :
    events s k = tokenEvents s.isExcepting k ∧
      s'.isExcepting = (k == .operator .withException) := by
  cases s with
  | operand f outer =>
    cases k with
    | id => cases h; exact ⟨rfl, rfl⟩
    | opening =>
      rw [Machine.step] at h
      split at h
      · cases h
      · cases h; exact ⟨rfl, rfl⟩
    | operator | closing => cases h
  | behind f w outer =>
    cases k with
    | operator op =>
      cases op with
      | and | or => cases h; exact ⟨rfl, rfl⟩
      | withException =>
        rw [Machine.step] at h
        split at h
        · cases h; exact ⟨rfl, rfl⟩
        · cases h
    | closing => cases outer <;> cases h <;> exact ⟨rfl, rfl⟩
    | id | opening => cases outer <;> cases h
  | excepting f w outer =>
    cases k with
    | id word plus =>
      cases plus with
      | true => cases h
      | false => cases h; exact ⟨rfl, rfl⟩
    | operator | opening | closing => cases h
  | surplus w q =>
    cases k with
    | closing => cases h; exact ⟨rfl, rfl⟩
    | id | operator | opening => cases h

/-- **What a run logs** is what there is to log about its tokens. -/
theorem drive_append (hsuf : before ++ rest <:+ all)
    (h : machine.run (all.length - (before ++ rest).length) s (kinds before) = .ok s') :
    drive all s log (before ++ rest) =
      drive all s' ((Token.collect tokenEvents s.isExcepting (kinds before)).reverse ++ log)
        rest := by
  -- along the tokens; the state carries on whether `WITH` has just been read
  induction before generalizing s log with
  | nil =>
    cases h
    rfl
  | cons t before ih =>
    rw [List.cons_append] at hsuf h ⊢
    have hsuf' : before ++ rest <:+ all := (List.suffix_cons t _).trans hsuf
    rw [Token.kinds_cons, run, place_succ hsuf] at h
    cases hstep : machine.step (all.length - (t :: (before ++ rest)).length) s t.kind with
    | error e => rw [hstep] at h; cases h
    | ok u =>
      rw [hstep] at h
      obtain ⟨hevents, hexcepting⟩ := events_of_step hstep
      rw [drive_ok rfl hstep, ih hsuf' h, Token.kinds_cons, Token.collect,
        hevents, hexcepting, List.reverse_append, List.append_assoc]

/-- A run from the start of the input. -/
theorem drive_start_append {ts : List Token} (hts : ts = before ++ rest)
    (h : machine.run 0 start (kinds before) = .ok s) : drive ts start [] ts =
      drive ts s (Token.collect tokenEvents false (kinds before)).reverse rest := by
  subst hts
  rw [← List.append_nil (List.reverse _)]
  exact drive_append (List.suffix_refl (before ++ rest)) (by rw [Nat.sub_self]; exact h)

end

end Parser

/-! ## How far the parser gets -/

/-- With this result, the parser has taken the first `n` tokens of a text, and
    has left the tokens `surplus` behind the expression. -/
inductive Reached (text : String) (ts : List Token) :
    Except SyntaxError Expr → Nat → List Token → Prop
  | accepted {a : Analysis} {e} : a.Fits text → a.written.toExpr = e →
      Reached text ts (.ok e) ts.length (ts.drop a.kinds.length)
  | ended {err} : err.AtEnd text.utf8ByteSize → Reached text ts (.error err) ts.length []
  /-- A parenthesis lacks its partner, which is known at the end only. -/
  | unclosed {err t} : t ∈ ts → err.At t → err.cause = .unmatchedParenthesis →
      t.kind = .opening → Reached text ts (.error err) ts.length []
  | stopped {err before t after} : ts = before ++ t :: after → err.At t →
      (err.cause = .unmatchedParenthesis → t.kind ≠ .opening) →
      Reached text ts (.error err) before.length []

section
variable {text : String} {ts : List Token}

/-- The parser has taken a certain number of tokens only. -/
theorem Reached.unique {result : Except SyntaxError Expr} {n n' : Nat} {us us' : List Token}
    (ht : Token.tokenize text = .ok ts) (h : Reached text ts result n us)
    (h' : Reached text ts result n' us') : n = n' ∧ us = us' := by
  have split : ∀ {before t after}, ts = before ++ t :: after → t ∈ ts := by
    rintro before t after rfl
    exact List.mem_append_right before List.mem_cons_self
  cases h with
  | accepted ha =>
    cases h' with
    | accepted hb => rw [ha.unique hb]; exact ⟨rfl, rfl⟩
  | ended hend =>
    cases h' with
    | ended | unclosed => exact ⟨rfl, rfl⟩
    | stopped hsplit hat => exact absurd hend (hat.not_atEnd ht (split hsplit))
  | unclosed hmem hat hcause hopen =>
    cases h' with
    | ended | unclosed => exact ⟨rfl, rfl⟩
    | stopped hsplit hat' hnot =>
      obtain rfl := SyntaxError.At.unique ht hmem (split hsplit) hat hat'
      exact absurd hopen (hnot hcause)
  | stopped hsplit hat hnot =>
    cases h' with
    | ended hend => exact absurd hend (hat.not_atEnd ht (split hsplit))
    | unclosed hmem hat' hcause hopen =>
      obtain rfl := SyntaxError.At.unique ht hmem (split hsplit) hat' hat
      exact absurd hopen (hnot hcause)
    | stopped hsplit' hat' =>
      have ho := (Token.tokenize_eq_ok_iff.1 ht).offsets.2
      obtain ⟨rfl, -⟩ := split_unique ho hsplit hsplit' (hat.1.symm.trans hat'.1)
      exact ⟨rfl, rfl⟩

end

/-! ## What is logged when the parser gets there -/

open LicenseExpr.Parser

theorem level_surplusEvents (us : List Token) :
    ∀ ev ∈ surplusEvents us, ev.record.level = .warn := by
  cases us with
  | nil => exact List.forall_mem_nil _
  | cons t us => exact List.forall_mem_singleton.2 rfl

theorem reverse_surplusEvents (us : List Token) :
    (surplusEvents us).reverse = surplusEvents us := by
  cases us <;> rfl

section
variable {text : String} {ts : List Token}

/-- An expression has been read: all the tokens have been taken. -/
theorem reached_of_conclude_ok {s : Machine.State} {w : Written} (ht : Token.tokenize text = .ok ts)
    (hs : machine.run 0 Machine.start (kinds ts) = .ok s)
    (hc : Machine.conclude ts.length s = .ok w) : ∃ surplus,
      Reached text ts (.ok w.toExpr) ts.length surplus ∧ drive ts Machine.start [] ts =
        .accepted w.toExpr ⟨surplus, 0,
          surplusEvents surplus ++ (Token.collect tokenEvents false (kinds ts)).reverse⟩ := by
  refine ⟨ts.drop (complete ts.length s), ?_, ?_⟩
  · obtain ⟨us, n, hk, hw, hd, hcase⟩ :=
      Machine.exists_derives_of_conclude hs (by rw [Token.length_kinds]; exact hc)
    have hplace : complete ts.length s = us.length := by
      rcases hcase with rfl | ⟨rfl, hne⟩
      · rfl
      · have hlength := congrArg List.length hk
        rw [Token.length_kinds, List.replicate_zero, List.append_nil] at hlength
        cases s with
        | surplus v q => exact absurd rfl (hne v q)
        | operand | behind | excepting => exact hlength
    rw [hplace]
    exact .accepted (a := ⟨us, n, w⟩) ⟨⟨ts, ht, hk⟩, hw, hd⟩ rfl
  · rw [drive_start_append (List.append_nil ts).symm hs, drive, hc]

/-- The text ends too early: all the tokens have been taken. -/
theorem reached_of_conclude_error (text : String) {s : Machine.State} {e : Machine.Refusal}
    (hs : machine.run 0 Machine.start (kinds ts) = .ok s)
    (hc : Machine.conclude ts.length s = .error e) :
    Reached text ts (.error (errorAt text.utf8ByteSize e.cause (ts.drop e.place))) ts.length [] ∧
      ∃ last, drive ts Machine.start [] ts = .rejected e.cause (ts.drop e.place) last ∧
        last.log = (Token.collect tokenEvents false (kinds ts)).reverse := by
  have hlog : drive ts Machine.start [] ts = .rejected e.cause (ts.drop e.place)
      ⟨[], s.depth, (Token.collect tokenEvents false (kinds ts)).reverse⟩ := by
    rw [drive_start_append (List.append_nil ts).symm hs, drive, hc]
  refine ⟨?_, _, hlog, rfl⟩
  have hsite := (incomplete_of_conclude text.utf8ByteSize hs
    (by rw [Token.length_kinds]; exact hc)).site
  rcases hsite with ⟨-, hend⟩ | ⟨hcause, before, t, after, rfl, hat, hlast⟩
  · exact .ended hend
  · have hopens := hlast.unclosed.opens
    rw [Token.kinds_append, ← Token.length_kinds before, List.getElem?_append_right (Nat.le_refl _),
      Nat.sub_self] at hopens
    exact .unclosed (List.mem_append_right before List.mem_cons_self) hat hcause
      (Option.some.inj hopens)

/-- A token is refused: those before it have been taken. -/
theorem reached_of_run_error (text : String) {e : Machine.Refusal}
    (h : machine.run 0 Machine.start (kinds ts) = .error e) : ∃ n,
      Reached text ts (.error (errorAt text.utf8ByteSize e.cause (ts.drop e.place))) n [] ∧
        ∃ last, drive ts Machine.start [] ts = .rejected e.cause (ts.drop e.place) last ∧
          last.log = (Token.collect tokenEvents false (kinds (ts.take n))).reverse := by
  obtain ⟨us, k, vs, s, hk, hs, hstep⟩ := Machine.exists_step_error h
  obtain ⟨before, t, after, hts, rfl, rfl, -⟩ := Token.exists_split_of_kinds hk
  rw [Token.length_kinds, Nat.zero_add] at hstep
  have hplace : ts.length - (t :: after).length = before.length := by
    rw [hts, List.length_append, Nat.add_sub_cancel]
  have hlog : drive ts Machine.start [] ts = .rejected e.cause (ts.drop e.place)
      ⟨ts.drop e.place, s.depth, (Token.collect tokenEvents false (kinds before)).reverse⟩ := by
    rw [drive_start_append hts hs, drive, hplace, hstep]
  rcases Machine.step_error hstep with ⟨hp, hcause⟩ | ⟨w, rfl, hcause, -⟩
  · refine ⟨before.length, ?_, _, hlog, ?_⟩
    · have hat : errorAt text.utf8ByteSize e.cause (ts.drop e.place) =
          ⟨e.cause, t.offset, t.text⟩ := by
        rw [hp, hts, errorAt_split]
      rw [hat]
      refine .stopped hts ⟨rfl, rfl⟩ fun hc => ?_
      rw [hcause hc]
      exact Token.opening_ne_closing.symm
    · rw [hts, List.take_left]
  · -- the closing parentheses before the token contribute nothing
    have hr := Machine.reads_of_run hs
    generalize hq : e.place = q at hr hlog ⊢
    generalize hb : kinds before = ks at hr hlog hk
    cases hr with
    | @surplus _ us n hw =>
      rw [List.replicate_succ, List.append_assoc, List.cons_append] at hk
      obtain ⟨before', t', after', hts', rfl, ht', -⟩ := Token.exists_split_of_kinds hk
      rw [Token.length_kinds] at hlog ⊢
      refine ⟨before'.length, ?_, _, hlog, ?_⟩
      · rw [hts', errorAt_split]
        refine .stopped rfl ⟨rfl, rfl⟩ fun _ => ?_
        rw [ht']
        exact Token.opening_ne_closing.symm
      · rw [idsOnly_tokenEvents.collect_append_closings, hts', List.take_left]

end

/-- **The log records exactly the rewrites that have been done**, in the order
    of the text, and also if the text is refused.  A text without tokens logs
    nothing.  Otherwise the parser takes a certain number of tokens, which the
    result tells, and logs what there is to log about each of them; behind
    that, it warns if closing parentheses are left over. -/
theorem read_events (text : String) :
    (∀ err, Token.tokenize text = .error err → (read text).events = []) ∧
    (Token.tokenize text = .ok [] → (read text).events = []) ∧
    ∀ ts, Token.tokenize text = .ok ts → ts ≠ [] → ∃ n surplus es,
      (Reached text ts (parse text) n surplus ∧
        ∀ m us, Reached text ts (parse text) m us → m = n ∧ us = surplus) ∧
      LogsAll false (kinds (ts.take n)) es ∧ (∀ ev ∈ es, ev.record.level = .debug) ∧
      (∀ ev ∈ surplusEvents surplus, ev.record.level = .warn) ∧
      (read text).events = es ++ surplusEvents surplus := by
  refine ⟨fun err ht => by rw [read, ht], fun ht => by rw [read, ht], fun ts ht hne => ?_⟩
  obtain ⟨n, surplus, hreached, hevents⟩ : ∃ n surplus, Reached text ts (parse text) n surplus ∧
      (read text).events =
        Token.collect tokenEvents false (kinds (ts.take n)) ++ surplusEvents surplus := by
    cases hs : machine.run 0 Machine.start (kinds ts) with
    | error e =>
      obtain ⟨n, hr, last, hdrive, hlog⟩ := reached_of_run_error text hs
      have hread := read_of_rejected ht hne ((readTokens_eq 0 ts).trans hdrive)
      refine ⟨n, [], by rw [parse, hread]; exact hr, ?_⟩
      rw [hread, hlog, List.reverse_reverse]
      exact (List.append_nil _).symm
    | ok s =>
      cases hc : Machine.conclude ts.length s with
      | error e =>
        obtain ⟨hr, last, hdrive, hlog⟩ := reached_of_conclude_error text hs hc
        have hread := read_of_rejected ht hne ((readTokens_eq 0 ts).trans hdrive)
        refine ⟨ts.length, [], by rw [parse, hread]; exact hr, ?_⟩
        rw [hread, hlog, List.reverse_reverse, List.take_length]
        exact (List.append_nil _).symm
      | ok w =>
        obtain ⟨surplus, hr, hdrive⟩ := reached_of_conclude_ok ht hs hc
        have hread := read_of_accepted ht hne ((readTokens_eq 0 ts).trans hdrive)
        refine ⟨ts.length, surplus, by rw [parse, hread]; exact hr, ?_⟩
        rw [hread, List.reverse_append, List.reverse_reverse, List.take_length,
          reverse_surplusEvents]
  have hlogs := logsAll_iff.2 (rfl : _ = Token.collect tokenEvents false (kinds (ts.take n)))
  exact ⟨n, surplus, _, ⟨hreached, fun m us h => h.unique ht hreached⟩, hlogs, hlogs.level_eq,
    level_surplusEvents surplus, hevents⟩

/-- The token that is refused, an id with a successor, leaves no trace. -/
theorem read_events_refused : ∃ ts err,
    Token.tokenize "GPL-2.0-with-GCC-exception+ OR mit WITH Classpath-exception gpl-3.0" = .ok ts ∧
      ts ≠ [] ∧ parse "GPL-2.0-with-GCC-exception+ OR mit WITH Classpath-exception gpl-3.0" =
        .error err ∧ err.cause = .unexpectedToken ∧ err.fragment = "gpl-3.0" ∧
      (read "GPL-2.0-with-GCC-exception+ OR mit WITH Classpath-exception gpl-3.0").events =
        [.expandedCombined "GPL-2.0-with-GCC-exception" "GPL-2.0" "GCC-exception-2.0",
          .rewroteLicense "GPL-2.0" true "GPL-2.0-or-later",
          .rewroteException "Classpath-exception" "Classpath-exception-2.0"] := by
  have hgpl := @Token.Spells.id _ _ "gpl-3.0" false (by decide) Token.ends_nil .nil
  have hclasspath := @Token.Spells.id _ _ "Classpath-exception" false (by decide)
    (Token.ends_cons (by decide)) hgpl.blank
  have hmit := @Token.Spells.id _ _ "mit" false (by decide) (Token.ends_cons (by decide))
    (hclasspath.operator .withException)
  have htext : Token.Spells
      "GPL-2.0-with-GCC-exception+ OR mit WITH Classpath-exception gpl-3.0".toList _ :=
    @Token.Spells.id _ _ "GPL-2.0-with-GCC-exception" true (by decide)
      (Token.ends_cons (by decide)) (hmit.operator .or)
  obtain ⟨ts, ht, hk⟩ := htext.tokenize_eq
  obtain ⟨before, t, after, rfl, hbefore, hkind, -⟩ :=
    Token.exists_split_of_kinds (show kinds ts = [_, _, _, _, _] ++ _ :: [] from hk)
  have hne : before ++ t :: after ≠ [] :=
    List.append_ne_nil_of_right_ne_nil _ (List.cons_ne_nil _ _)
  have hlength : before.length = 5 := by rw [← Token.length_kinds, hbefore]; rfl
  have hcurrent : CurrentLicense "mit" false := by decide
  have hsingle : machine.single (.id "mit" false) = true :=
    congrArg Expr.isLicense (resolveLicense_of_current hcurrent)
  have hread : machine.read (kinds (before ++ t :: after)) =
      .error ⟨.unexpectedToken, before.length⟩ := by
    rw [hk, hlength]
    simp [Machine.read, Machine.run, Machine.step, Machine.start, Written.isAtom, hsingle]
  have hparse := parse_of_error ht hne hread
  simp only [errorAt_split] at hparse
  refine ⟨_, _, ht, hne, hparse, rfl, by rw [Token.text, hkind]; rfl, ?_⟩
  obtain ⟨n, surplus, es, ⟨-, hunique⟩, hlogs, -, -, hevents⟩ := (read_events _).2.2 _ ht hne
  rw [hparse] at hunique
  obtain ⟨rfl, rfl⟩ := hunique before.length [] (.stopped rfl ⟨rfl, rfl⟩ fun h => by cases h)
  have hcombined : Logs false (.id "GPL-2.0-with-GCC-exception" true) _ :=
    .combined (c := ⟨"GPL-2.0-with-GCC-exception", "GPL-2.0", "GCC-exception-2.0"⟩)
      (v := ⟨"GPL-2.0", "GPL-2.0-only", "GPL-2.0-or-later"⟩) (by simp [combined]) rfl
        (by simp [versioned]) rfl
  have hlicense : Logs false (.id "mit" false) [] := .license hcurrent.2.2 hcurrent.2.1
  have hrenamed : Logs true (.id "Classpath-exception" false) _ :=
    .renamed (r := ⟨"Classpath-exception", "Classpath-exception-2.0"⟩) (by simp [exceptions]) rfl
  have hall := LogsAll.cons hcombined (.cons (@Logs.operator _ .or) (.cons hlicense
    (.cons (@Logs.operator _ .withException) (.cons hrenamed .nil))))
  rw [List.take_left, hbefore] at hlogs
  rw [hevents, (logsAll_iff.1 hlogs).trans (logsAll_iff.1 hall).symm]
  rfl

end LicenseExpr
