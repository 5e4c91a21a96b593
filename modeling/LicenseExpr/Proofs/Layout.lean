/-
  The layout of a text.

  * `ReadAlike`: two texts are read as the same tree, or refused for the same
    cause at the same place, however far into the texts that is;
  * tokens are of the same kinds wherever they stand (`Scans.spells`), and
    characters that no word can go on with are scanned apart from those before
    them (`Scans.scan_append`, `Breaks.append`);
  * `exists_tokenize_of_blanks`: so the tokens around blanks keep their kinds
    if other blanks take the place of those;
  * `parse_congr_kinds`: texts with tokens of the same kinds are read alike,
    whatever blanks there are between them.
-/
import LicenseExpr.Proofs.ByteOrder
import LicenseExpr.Proofs.Diagnosis
import LicenseExpr.Proofs.LegacyIds

namespace LicenseExpr

open Token (kinds)

/-- The texts, with these tokens, are read alike. -/
inductive ReadAlike (text text' : String) (ts ts' : List Token) : Prop
  /-- They denote the same tree. -/
  | tree {e : Expr} : parse text = .ok e → parse text' = .ok e → ReadAlike text text' ts ts'
  /-- They are refused for the same cause at the same place. -/
  | error {err err' : SyntaxError} : parse text = .error err → parse text' = .error err' →
      err.cause = err'.cause → SamePlace text text' ts ts' err err' → ReadAlike text text' ts ts'

/-- A non-empty text of blanks. -/
def IsBlanks (s : String) : Prop :=
  s.toList ≠ [] ∧ ∀ c ∈ s.toList, isBlank c = true

/-! ## Blanks between tokens -/

namespace Token

variable {o : Nat} {cs us run : List Char} {ts : List Token} {err : SyntaxError}

/-- **Tokens are of the same kinds wherever they stand.** -/
theorem Scans.spells (h : Scans o cs ts) : Spells cs (kinds ts) := by
  induction h with
  | nil => exact .nil
  | blank hc _ ih =>
    intro o
    obtain ⟨ts, hts, hk⟩ := ih (o + Char.utf8Size _)
    exact ⟨ts, .blank hc hts, hk⟩
  | opening _ ih => exact ih.opening
  | closing _ ih => exact ih.closing
  | word hw he _ ih => exact ih.word _ hw he

theorem map_append_map (r : Except SyntaxError (List Token)) (vs ws : List Token) :
    (r.map (ws ++ ·)).map (vs ++ ·) = r.map (vs ++ ws ++ ·) := by
  cases r with
  | error err => rfl
  | ok ts => exact congrArg Except.ok (List.append_assoc vs ws ts).symm

/-- Characters that no word can go on with are scanned apart from those
    before them. -/
theorem Scans.scan_append (h : Scans o cs ts) (hus : Ends us) :
    scan o (cs ++ us) [] = (scan (o + total Char.utf8Size cs) us []).map (ts ++ ·) := by
  induction h with
  | @nil o => cases h : scan o us [] <;> simp [h, Except.map]
  | blank hc _ ih => rw [List.cons_append, scan_blank hc, ih, total_cons, Nat.add_assoc]
  | @opening o cs ts _ ih =>
    rw [List.cons_append, scan_opening, ih, Nat.add_assoc]
    exact map_append_map _ [_] ts
  | @closing o cs ts _ ih =>
    rw [List.cons_append, scan_closing, ih, Nat.add_assoc]
    exact map_append_map _ [_] ts
  | @word o w plus cs ts hw he _ ih =>
    rw [List.append_assoc, scan_word o hw fun hp => (he hp).append hus, ih, total_append,
      utf8ByteSize_eq_total, Nat.add_assoc]
    exact map_append_map _ [_] ts

/-- What follows does not mend a character that is in no token. -/
theorem Breaks.append (h : Breaks o cs err) (hus : Ends us) : Breaks o (cs ++ us) err := by
  induction h with
  | malformed hid hopen hclose hblank => exact .malformed hid hopen hclose hblank
  | blank hc _ ih => exact .blank hc ih
  | opening _ ih => exact .opening ih
  | closing _ ih => exact .closing ih
  | word hw he _ ih =>
    rw [List.append_assoc]
    exact .word hw (fun hp => (he hp).append hus) ih

theorem scan_blanks (hrun : ∀ c ∈ run, isBlank c = true) (o : Nat) (us : List Char) :
    scan o (run ++ us) [] = scan (o + total Char.utf8Size run) us [] := by
  induction run generalizing o with
  | nil => rfl
  | cons c run ih =>
    obtain ⟨hc, hrun⟩ := List.forall_mem_cons.1 hrun
    rw [List.cons_append, scan_blank hc, ih hrun, total_cons, Nat.add_assoc]

/-- No word goes on with a blank. -/
theorem ends_blanks (hne : run ≠ []) (hrun : ∀ c ∈ run, isBlank c = true) (us : List Char) :
    Ends (run ++ us) := by
  obtain ⟨c, rest, rfl⟩ := List.exists_cons_of_ne_nil hne
  have hc : isBlank c = true := hrun c List.mem_cons_self
  refine ends_cons ⟨isIdChar_of_isBlank hc, ?_⟩
  rintro rfl
  exact absurd hc (by decide)

/-- **Blanks may take the place of blanks**: the tokens are of the same kinds. -/
theorem exists_tokenize_of_blanks {before run run' after : String} (hrun : IsBlanks run)
    (hrun' : IsBlanks run') (h : tokenize (before ++ run ++ after) = .ok ts) :
    ∃ ts', tokenize (before ++ run' ++ after) = .ok ts' ∧ kinds ts = kinds ts' := by
  have htext : ∀ run : String, (before ++ run ++ after).toList =
      before.toList ++ (run.toList ++ after.toList) := fun run => by simp
  rw [tokenize, htext] at h
  rcases scans_or_breaks 0 before.toList with ⟨us, hus⟩ | ⟨err, herr⟩
  · rw [hus.scan_append (ends_blanks hrun.1 hrun.2 _), scan_blanks hrun.2] at h
    cases hvs : scan (0 + total Char.utf8Size before.toList + total Char.utf8Size run.toList)
        after.toList [] with
    | error err =>
      rw [hvs] at h
      cases h
    | ok vs =>
      rw [hvs] at h
      cases h
      obtain ⟨vs', hvs', hk⟩ := (scan_eq_ok_iff.1 hvs).spells
        (0 + total Char.utf8Size before.toList + total Char.utf8Size run'.toList)
      refine ⟨us ++ vs', ?_, by rw [kinds_append, kinds_append, hk]⟩
      rw [tokenize, htext, hus.scan_append (ends_blanks hrun'.1 hrun'.2 _), scan_blanks hrun'.2,
        hvs'.scan_eq, Except.map]
  · rw [(herr.append (ends_blanks hrun.1 hrun.2 _)).scan_eq] at h
    cases h

end Token

/-! ## Kinds of tokens -/

/-- What comes of tokens is told by their kinds. -/
theorem readAlike_of_kinds {text text' : String} {ts ts' : List Token}
    (ht : Token.tokenize text = .ok ts) (ht' : Token.tokenize text' = .ok ts')
    (h : kinds ts = kinds ts') : ReadAlike text text' ts ts' := by
  cases hm : Parser.machine.read (kinds ts) with
  | ok w => exact .tree (parse_of_ok ht hm) (parse_of_ok ht' (h ▸ hm))
  | error e =>
    have hlength : ts.length = ts'.length := by
      rw [← Token.length_kinds, h, Token.length_kinds]
    obtain ⟨err, err', herr, herr', hcause, hplace⟩ :=
      exists_errors_of_refused ht ht' hlength hm (h ▸ hm)
    exact .error herr herr' hcause hplace

/-- **A text is read by the kinds of its tokens**, never by its layout: texts
    with tokens of the same kinds are read alike, and so is a text in which
    other blanks take the place of some. -/
theorem parse_congr_kinds {text : String} {ts : List Token} (ht : Token.tokenize text = .ok ts) :
    (∀ text' ts', Token.tokenize text' = .ok ts' → kinds ts = kinds ts' →
      ReadAlike text text' ts ts') ∧
    ∀ before run run' after : String, text = before ++ run ++ after → IsBlanks run →
      IsBlanks run' → ∃ ts', Token.tokenize (before ++ run' ++ after) = .ok ts' ∧
        kinds ts = kinds ts' ∧ ReadAlike text (before ++ run' ++ after) ts ts' := by
  refine ⟨fun text' ts' ht' hk => readAlike_of_kinds ht ht' hk, ?_⟩
  rintro before run run' after rfl hrun hrun'
  obtain ⟨ts', ht', hk⟩ := Token.exists_tokenize_of_blanks hrun hrun' ht
  exact ⟨ts', ht', hk, readAlike_of_kinds ht ht' hk⟩

/-- A wide blank and a line break take the place of a space, in a text that is
    read and in one that is refused behind them. -/
theorem parse_congr_kinds_wide :
    (∃ ts ts', Token.tokenize "MIT AND ISC+" = .ok ts ∧
      Token.tokenize "MIT\u3000\nAND ISC+" = .ok ts' ∧ kinds ts = kinds ts' ∧
        parse "MIT AND ISC+" =
          .ok (.compound (.license "MIT" false) .and (.license "ISC" true)) ∧
        parse "MIT\u3000\nAND ISC+" =
          .ok (.compound (.license "MIT" false) .and (.license "ISC" true))) ∧
    ∃ ts ts', Token.tokenize "MIT AND )" = .ok ts ∧
      Token.tokenize "MIT\u3000\nAND )" = .ok ts' ∧ kinds ts = kinds ts' ∧
        ∃ err err', parse "MIT AND )" = .error err ∧ parse "MIT\u3000\nAND )" = .error err' ∧
          err = ⟨.unmatchedParenthesis, 8, ")"⟩ ∧ err' = ⟨.unmatchedParenthesis, 11, ")"⟩ ∧
            SamePlace "MIT AND )" "MIT\u3000\nAND )" ts ts' err err' := by
  have hspace : IsBlanks " " := ⟨by decide, List.all_eq_true.1 rfl⟩
  have hwide : IsBlanks "\u3000\n" := ⟨by decide, List.all_eq_true.1 rfl⟩
  constructor
  · have ht : Token.tokenize "MIT AND ISC+" =
        .ok [⟨.id "MIT" false, 0⟩, ⟨.operator .and, 4⟩, ⟨.id "ISC" true, 8⟩] := by
      decide +kernel
    have hmit : resolveLicense "MIT" false = .license "MIT" false :=
      resolveLicense_of_current (by decide)
    have hisc : resolveLicense "ISC" true = .license "ISC" true :=
      resolveLicense_of_current (by decide)
    have hparse := parse_of_ok ht (w := .compound (.id "MIT" false) .and (.id "ISC" true)) rfl
    simp only [Written.toExpr, hmit, hisc] at hparse
    obtain ⟨ts', ht', hk, halike⟩ :=
      (parse_congr_kinds ht).2 "MIT" " " "\u3000\n" "AND ISC+" (by decide) hspace hwide
    rw [show "MIT" ++ "\u3000\n" ++ "AND ISC+" = "MIT\u3000\nAND ISC+" by decide] at ht' halike
    cases halike with
    | tree he he' =>
      cases hparse.symm.trans he
      exact ⟨_, ts', ht, ht', hk, he, he'⟩
    | error herr => cases hparse.symm.trans herr
  · have ht : Token.tokenize "MIT AND )" =
        .ok [⟨.id "MIT" false, 0⟩, ⟨.operator .and, 4⟩, ⟨.closing, 8⟩] := by
      decide +kernel
    have ht' : Token.tokenize "MIT\u3000\nAND )" =
        .ok [⟨.id "MIT" false, 0⟩, ⟨.operator .and, 7⟩, ⟨.closing, 11⟩] := by
      decide +kernel
    have herror := parse_of_error ht (List.cons_ne_nil _ _) (e := ⟨.unmatchedParenthesis, 2⟩) rfl
    have herror' :=
      parse_of_error ht' (List.cons_ne_nil _ _) (e := ⟨.unmatchedParenthesis, 2⟩) rfl
    cases (parse_congr_kinds ht).1 _ _ ht' rfl with
    | tree he => cases herror.symm.trans he
    | error h h' _ hplace =>
      exact ⟨_, _, ht, ht', rfl, _, _, h, h', Except.error.inj (h.symm.trans herror),
        Except.error.inj (h'.symm.trans herror'), hplace⟩

end LicenseExpr
