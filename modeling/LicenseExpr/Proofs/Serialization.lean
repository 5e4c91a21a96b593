/-
  Expressions in JSON text and back.

  * `StringFormat.IsJsonText` is what JSON text promises of strings, whoever
    writes and reads it;
  * the characters of well-spaced texts need no escape (`WellSpaced.plain`);
  * `serialize_exact`: so an expression that has been read is written as its
    well-spaced text between two quotes, and read again from there;
  * `Json.textFormat` keeps the promise (`isJsonText_textFormat`): a character
    that is escaped as in a JSON string is read as itself (`lexFrom_escape`),
    so a string that is written in JSON is read back (`read?_quote`).
-/
import LicenseExpr.Expr.Json
import LicenseExpr.Json.Reader
import LicenseExpr.Proofs.RoundTrip
import LicenseExpr.Proofs.Spacing

namespace LicenseExpr

/-! ## Strings in JSON text -/

/-- What JSON text promises of strings; `escape c` is how the character `c`
    stands in one. -/
structure StringFormat.IsJsonText {ε : Type} (F : StringFormat String ε)
    (escape : Char → List Char) : Prop where
  /-- A string stands between two quotes, character by character. -/
  write_eq : ∀ s, F.write s = .ok ("\"" ++ String.ofList (s.toList.flatMap escape) ++ "\"")
  /-- Quotes, backslashes and control characters apart, a character stands as
      it is. -/
  escape_eq : ∀ c, c ≠ '"' → c ≠ '\\' → 0x20 ≤ c.toNat → escape c = [c]
  /-- A string is read as it was written. -/
  read_write : ∀ s text, F.write s = .ok text → F.read text = .ok s

/-- A string with nothing to escape stands as it is between two quotes. -/
theorem StringFormat.IsJsonText.write_plain {ε : Type} {F : StringFormat String ε}
    {escape : Char → List Char} (hF : F.IsJsonText escape) {s : String}
    (h : ∀ c ∈ s.toList, escape c = [c]) : F.write s = .ok ("\"" ++ s ++ "\"") := by
  rw [hF.write_eq, List.flatMap_congr h, List.flatMap_singleton', String.ofList_toList]

/-! ## A writer and a reader -/

namespace Json

section
variable {rest read : List Char} {found : List Lexeme}

theorem hexValue?_hexDigit (n : Nat) : hexValue? (hexDigit n) = some (n % 16) := by
  have hdigit : ∀ d < 16, hexValue? (Nat.digitChar d) = some d := by decide
  exact hdigit _ (Nat.mod_lt n (by decide))

/-- Four hexadecimal digits of a control character. -/
theorem lexFrom_unit {c : Char} (h : c.toNat < 0x20) :
    lexFrom (['\\', 'u', '0', '0', hexDigit (c.toNat / 16), hexDigit c.toNat] ++ rest)
      (.string read none) found = lexFrom rest (.string (c :: read) none) found := by
  have hvalue : 16 * (c.toNat / 16 % 16) + c.toNat % 16 = c.toNat := by omega
  have hunit : addUnit read none c.toNat = some (.string (c :: read) none) := by
    have hhigh : isHighUnit c.toNat = false := by simp [isHighUnit]; omega
    have hlow : isLowUnit c.toNat = false := by simp [isLowUnit]; omega
    simp [addUnit, hhigh, hlow]
  have hzero : hexValue? '0' = some 0 := by decide
  simp [lexFrom, step, hzero, hexValue?_hexDigit, hvalue, hunit]

/-- In a string, an escaped character is read as itself. -/
theorem lexFrom_escape (c : Char) :
    lexFrom (escape c ++ rest) (.string read none) found =
      lexFrom rest (.string (c :: read) none) found := by
  fun_cases escape c with
  | case1 h | case2 _ h | case3 _ _ h | case4 _ _ _ h | case5 _ _ _ _ h | case6 _ _ _ _ _ h
  | case7 _ _ _ _ _ _ h => subst h; rfl
  | case8 _ _ _ _ _ _ _ hcontrol => exact lexFrom_unit hcontrol
  | case9 hquote hback _ _ _ _ _ hcontrol =>
    rw [List.singleton_append, lexFrom]
    simp only [step, if_neg hback, if_neg hquote, if_neg hcontrol]
    rfl

/-- The rest of a string up to its closing quote. -/
theorem lexFrom_string (cs : List Char) :
    lexFrom (cs.flatMap escape ++ '"' :: rest) (.string read none) found =
      lexFrom rest .between (.string (String.ofList (read.reverse ++ cs)) :: found) := by
  induction cs generalizing read with
  | nil =>
    rw [List.append_nil]
    rfl
  | cons c cs ih =>
    rw [List.flatMap_cons, List.append_assoc, lexFrom_escape, ih, List.reverse_cons,
      List.append_assoc, List.singleton_append]

end

/-- **A string is read as it was written**, whatever characters it has. -/
theorem read?_quote (s : String) : read? (quote s) = some (.string s) := by
  have hquote : (quote s).toList = '"' :: (s.toList.flatMap escape ++ ['"']) := by
    simp [quote]
  have hlex : lex (quote s) = some [.string s] := by
    rw [lex, hquote]
    have hrest : lexFrom (s.toList.flatMap escape ++ ['"']) (.string [] none) [] = _ :=
      lexFrom_string s.toList
    rw [List.reverse_nil, List.nil_append, String.ofList_toList] at hrest
    exact hrest
  rw [read?, hlex]
  rfl

theorem escape_eq_self {c : Char} (hquote : c ≠ '"') (hback : c ≠ '\\')
    (hcontrol : 0x20 ≤ c.toNat) : escape c = [c] := by
  fun_cases escape c with
  | case1 h => exact absurd h hquote
  | case2 _ h => exact absurd h hback
  | case3 _ _ h | case4 _ _ _ h | case5 _ _ _ _ h | case6 _ _ _ _ _ h | case7 _ _ _ _ _ _ h =>
    subst h
    exact absurd hcontrol (by decide)
  | case8 _ _ _ _ _ _ _ h => omega
  | case9 => rfl

/-- JSON text as a format; the error for a text that is no JSON says nothing. -/
def textFormat : StringFormat String (Option ReadError) where
  write s := .ok (quote s)
  read text :=
    match read? text with
    | some j => (valueFormat.read j).mapError some
    | none => .error none
  custom message := some (.malformed message)

theorem isJsonText_textFormat : textFormat.IsJsonText escape where
  write_eq _ := rfl
  escape_eq _ := escape_eq_self
  read_write := by
    rintro s _ ⟨⟩
    simp only [textFormat, read?_quote]
    rfl

end Json

/-! ## Expressions -/

/-- No character of a well-spaced text is a quote, a backslash or a control
    character. -/
theorem WellSpaced.plain {cs : List Char} (h : WellSpaced cs) :
    ∀ c ∈ cs, c ≠ '"' ∧ c ≠ '\\' ∧ 0x20 ≤ c.toNat := by
  intro c hc
  rcases h.alphabet c hc with hid | rfl | rfl | rfl | rfl
  · have hrange := isIdChar_toNat hid
    have hne : ∀ d : Char, d.toNat < 45 ∨ d.toNat = 92 → c ≠ d := by
      rintro d hd rfl
      omega
    exact ⟨hne _ (by decide), hne _ (by decide), by omega⟩
  all_goals decide

namespace Expr

/-- **The serialized form is clean and exact.**  A tree that has been read is
    written to JSON text as a well-spaced text between two quotes, with nothing
    escaped, and what is written is read as the same tree. -/
theorem serialize_exact {ε : Type} {F : StringFormat String ε}
    {escape : Char → List Char} (hF : F.IsJsonText escape) {text : String} {e : Expr}
    (h : parse text = .ok e) :
    WellSpaced e.print.toList ∧ (∀ c ∈ e.print.toList, escape c = [c]) ∧
      e.serialize F = .ok ("\"" ++ e.print ++ "\"") ∧
        deserialize F ("\"" ++ e.print ++ "\"") = .ok e := by
  have hcanonical := canonical_of_parse h
  have hspaced : WellSpaced e.print.toList := by
    rw [print_eq_text]
    exact wellSpaced_text (hcanonical.current.imp (fun _ _ hl => hl.1) fun _ hx => hx.1)
  have hescape : ∀ c ∈ e.print.toList, escape c = [c] := fun c hc =>
    have ⟨hquote, hback, hcontrol⟩ := hspaced.plain c hc
    hF.escape_eq c hquote hback hcontrol
  have hwrite := hF.write_plain hescape
  refine ⟨hspaced, hescape, hwrite, ?_⟩
  rw [deserialize, hF.read_write _ _ hwrite]
  simp only [hcanonical.parse_print]

/-- Blanks of other kinds, an id that looks like an operator, a combined id,
    and a surplus parenthesis. -/
theorem serialize_exact_group :
    Json.textFormat.IsJsonText Json.escape ∧
      ∃ e, parse "(gpl-2.0+\tOR mit)AND\nAND+ AND gpl-3.0-with-gcc-exception)" = .ok e ∧
        e.print = "(GPL-2.0-or-later OR mit) AND AND+ AND GPL-3.0-only WITH GCC-exception-3.1" ∧
        WellSpaced e.print.toList ∧ (∀ c ∈ e.print.toList, Json.escape c = [c]) ∧
        e.serialize Json.textFormat = .ok
          "\"(GPL-2.0-or-later OR mit) AND AND+ AND GPL-3.0-only WITH GCC-exception-3.1\"" ∧
        deserialize Json.textFormat
          "\"(GPL-2.0-or-later OR mit) AND AND+ AND GPL-3.0-only WITH GCC-exception-3.1\"" =
            .ok e := by
  have ht : Token.tokenize "(gpl-2.0+\tOR mit)AND\nAND+ AND gpl-3.0-with-gcc-exception)" =
      .ok [⟨.opening, 0⟩, ⟨.id "gpl-2.0" true, 1⟩, ⟨.operator .or, 10⟩, ⟨.id "mit" false, 13⟩,
        ⟨.closing, 16⟩, ⟨.operator .and, 17⟩, ⟨.id "AND" true, 21⟩, ⟨.operator .and, 26⟩,
        ⟨.id "gpl-3.0-with-gcc-exception" false, 30⟩, ⟨.closing, 56⟩] := by
    decide +kernel
  have hparse := parse_of_ok ht (w := .compound (.compound (.group (.compound
    (.id "gpl-2.0" true) .or (.id "mit" false))) .and (.id "AND" true)) .and
      (.id "gpl-3.0-with-gcc-exception" false)) rfl
  have hversioned : resolveLicense "gpl-2.0" true = license "GPL-2.0-or-later" false :=
    resolveLicense_of_versioned (v := ⟨"GPL-2.0", "GPL-2.0-only", "GPL-2.0-or-later"⟩)
      (by simp [Legacy.versioned]) (foldCase_eq_iff.2 (by decide)) true
  have hcombined : resolveLicense "gpl-3.0-with-gcc-exception" false =
      compound (license "GPL-3.0-only" false) .withException (exception "GCC-exception-3.1") :=
    resolveLicense_of_combined
      (c := ⟨"GPL-3.0-with-GCC-exception", "GPL-3.0", "GCC-exception-3.1"⟩)
      (v := ⟨"GPL-3.0", "GPL-3.0-only", "GPL-3.0-or-later"⟩) (by simp [Legacy.combined])
      (foldCase_eq_iff.2 (by decide)) (by simp [Legacy.versioned]) rfl false
  have hmit : resolveLicense "mit" false = license "mit" false :=
    resolveLicense_of_current (by decide)
  have hand : resolveLicense "AND" true = license "AND" true :=
    resolveLicense_of_current (by decide)
  simp only [Written.toExpr, hversioned, hcombined, hmit, hand] at hparse
  obtain ⟨e, hparse, hprint⟩ : ∃ e,
      parse "(gpl-2.0+\tOR mit)AND\nAND+ AND gpl-3.0-with-gcc-exception)" = .ok e ∧
        e.print = "(GPL-2.0-or-later OR mit) AND AND+ AND GPL-3.0-only WITH GCC-exception-3.1" :=
    ⟨_, hparse, by rw [print_eq_text]; decide⟩
  obtain ⟨hspaced, hescape, hwrite, hread⟩ := serialize_exact Json.isJsonText_textFormat hparse
  rw [hprint] at hwrite hread
  exact ⟨Json.isJsonText_textFormat, e, hparse, hprint, hspaced, hescape, hwrite, hread⟩

end Expr

end LicenseExpr
