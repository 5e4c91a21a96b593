/-
  Reports on canonical texts.

  * a report has a canonical form exactly if the text is an expression, and
    then it is the text of the tree (`canonical_build_iff`);
  * apart from the input and the status, a report depends on the tree alone
    (`ofExpr_congr`);
  * `build_canonical`: a canonical form is reported to be its own canonical
    form, with the same licenses and the same unknown ids.
-/
import LicenseExpr.Proofs.ByteOrder
import LicenseExpr.Proofs.RoundTrip
import LicenseExpr.Report

namespace LicenseExpr

namespace Report

variable {input c : String} {r : Registry} {e : Expr}

theorem build_of_ok (h : parse input = .ok e) (r : Registry) :
    build input r = ofExpr input e r := by
  rw [build, h]

theorem build_of_error {err : SyntaxError} (h : parse input = .error err) (r : Registry) :
    build input r = ofError input err := by
  rw [build, h]

/-- The canonical form in a report is the text of the tree that the input is
    read as. -/
theorem canonical_build_iff :
    (build input r).canonical = some c ↔ ∃ e, parse input = .ok e ∧ e.print = c := by
  cases h : parse input with
  | error err =>
    rw [build_of_error h]
    exact ⟨nofun, fun ⟨_, he, _⟩ => nomatch he⟩
  | ok e =>
    rw [build_of_ok h]
    constructor
    · intro hc
      exact ⟨e, rfl, Option.some.inj hc⟩
    · rintro ⟨e', he, hc⟩
      cases he
      exact congrArg some hc

/-- Two reports on one tree differ at most in the input and in the status. -/
theorem ofExpr_congr (input input' : String) (e : Expr) (r : Registry) :
    ofExpr input' e r = { ofExpr input e r with
      input := input'
      status := if e.print = input' then .canonical else .normalized } := rfl

/-- **Normalizing is idempotent**: the canonical form of a text is reported to
    be canonical, with the licenses and the unknown ids of the text. -/
theorem build_canonical (h : (build input r).canonical = some c) :
    build c r = { input := c, status := .canonical, canonical := some c,
                  licenses := (build input r).licenses, unknown := (build input r).unknown,
                  error := none } := by
  obtain ⟨e, he, rfl⟩ := canonical_build_iff.1 h
  have hagain : parse e.print = .ok e := (Expr.canonical_of_parse he).parse_print
  rw [build_of_ok hagain, build_of_ok he, ofExpr_congr input, if_pos rfl]
  rfl

/-- Surplus parentheses are dropped and a combined id is expanded; an id that
    the registry does not know stays unknown. -/
theorem build_canonical_surplus :
    ∃ r, (build "(mit AND (Foo OR gpl-2.0-with-gcc-exception)))" r).canonical =
        some "mit AND (Foo OR GPL-2.0-only WITH GCC-exception-2.0)" ∧
      build "mit AND (Foo OR GPL-2.0-only WITH GCC-exception-2.0)" r =
        { input := "mit AND (Foo OR GPL-2.0-only WITH GCC-exception-2.0)", status := .canonical,
          canonical := some "mit AND (Foo OR GPL-2.0-only WITH GCC-exception-2.0)",
          licenses := [⟨"GPL-2.0-only", false⟩, ⟨"MIT", false⟩], unknown := ["Foo"],
          error := none } := by
  have hgpl := @Token.Spells.id _ _ "gpl-2.0-with-gcc-exception" false (by decide)
    (Token.ends_cons (by decide)) Token.Spells.nil.closing.closing.closing
  have hfoo := @Token.Spells.id _ _ "Foo" false (by decide) (Token.ends_cons (by decide))
    (hgpl.operator .or)
  have hmit := @Token.Spells.id _ _ "mit" false (by decide) (Token.ends_cons (by decide))
    (hfoo.opening.operator .and)
  have htext : Token.Spells "(mit AND (Foo OR gpl-2.0-with-gcc-exception)))".toList _ :=
    hmit.opening
  obtain ⟨ts, ht, hk⟩ := htext.tokenize_eq
  have hparse := parse_of_ok ht (w := .group (.compound (.id "mit" false) .and (.group (.compound
    (.id "Foo" false) .or (.id "gpl-2.0-with-gcc-exception" false))))) (by rw [hk]; rfl)
  have hcombined : resolveLicense "gpl-2.0-with-gcc-exception" false =
      .compound (.license "GPL-2.0-only" false) .withException (.exception "GCC-exception-2.0") :=
    resolveLicense_of_combined (c := ⟨"GPL-2.0-with-GCC-exception", "GPL-2.0", "GCC-exception-2.0"⟩)
      (v := ⟨"GPL-2.0", "GPL-2.0-only", "GPL-2.0-or-later"⟩) (by simp [Legacy.combined])
        (foldCase_eq_iff.2 (by decide)) (by simp [Legacy.versioned]) rfl false
  have hcurrent : ∀ w, CurrentLicense w false → resolveLicense w false = .license w false :=
    fun w h => resolveLicense_of_current h
  simp only [Written.toExpr, hcombined, hcurrent "mit" (by decide), hcurrent "Foo" (by decide)]
    at hparse
  have hc : ∀ r, (build "(mit AND (Foo OR gpl-2.0-with-gcc-exception)))" r).canonical =
      some "mit AND (Foo OR GPL-2.0-only WITH GCC-exception-2.0)" :=
    fun r => canonical_build_iff.2 ⟨_, hparse, by rw [Expr.print_eq_text]; decide⟩
  have hids : (Expr.leftDeep .and (.license "mit" false) (Expr.operands .and
      (Expr.leftDeep .or (.license "Foo" false) (Expr.operands .or (.compound
        (.license "GPL-2.0-only" false) .withException
          (.exception "GCC-exception-2.0")))))).licenseIds = ["Foo", "GPL-2.0-only", "mit"] := by
    refine sortUnique_eq_iff.2 ⟨by decide, fun s => ?_⟩
    simp [Expr.leftDeep, Expr.operands, Leaf.licenseId?]
    tauto
  have hknown : ∀ id, (Registry.ofEntries "3.28" [⟨"MIT", false⟩, ⟨"GPL-2.0-only", false⟩]
      []).license? id = if foldCase "GPL-2.0-only" = foldCase id then some ⟨"GPL-2.0-only", false⟩
        else if foldCase "MIT" = foldCase id then some ⟨"MIT", false⟩ else none := by
    intro id
    simp [Registry.license?, Registry.ofEntries, Registry.index, Std.HashMap.getElem?_insert]
  refine ⟨.ofEntries "3.28" [⟨"MIT", false⟩, ⟨"GPL-2.0-only", false⟩] [], hc _, ?_⟩
  rw [build_canonical (hc _), build_of_ok hparse]
  simp only [ofExpr, hids, Registry.knowsLicense, hknown, foldCase_eq_iff]
  decide

end Report

end LicenseExpr
