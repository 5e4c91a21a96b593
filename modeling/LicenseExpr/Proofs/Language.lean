/-
  The language of the parser.

  * an `Analysis` of a text takes its tokens for those of a written expression
    and a number of closing parentheses behind them;
  * `parse_iff_fits`: a text is read as a tree exactly if it has an analysis
    for that tree, and no text has two analyses.
-/
import LicenseExpr.Proofs.Descent

namespace LicenseExpr

open Token (Kind)

/-- A way to take the tokens of a text. -/
structure Analysis where
  /-- The tokens of the expression. -/
  kinds : List Kind
  /-- The number of closing parentheses behind them. -/
  surplus : Nat
  /-- What the tokens of the expression spell. -/
  written : Written

/-- The analysis fits the text: these are its tokens, the grammar derives the
    expression from them, and no more parentheses are open at once than the
    parser admits. -/
structure Analysis.Fits (a : Analysis) (text : String) : Prop where
  tokens : ∃ ts, Token.tokenize text = .ok ts ∧
    Token.kinds ts = a.kinds ++ List.replicate a.surplus .closing
  derived : Derives Written.isSingle .disjunction a.kinds a.written
  shallow : Token.depth a.kinds ≤ Parser.maxDepth

namespace Analysis
variable {a b : Analysis} {text : String}

theorem Fits.parse (h : a.Fits text) : parse text = .ok a.written.toExpr := by
  obtain ⟨ts, ht, hk⟩ := h.tokens
  exact parse_of_ok ht (Machine.read_eq_ok_iff.2 ⟨a.kinds, a.surplus, hk, h.derived, h.shallow⟩)

theorem exists_fits {e : Expr} (h : LicenseExpr.parse text = .ok e) :
    ∃ a : Analysis, a.Fits text ∧ a.written.toExpr = e := by
  obtain ⟨ts, w, ht, hm, he⟩ := parse_eq_ok.1 h
  obtain ⟨ks, k, hk, hd, hn⟩ := Machine.read_eq_ok_iff.1 hm
  exact ⟨⟨ks, k, w⟩, ⟨⟨ts, ht, hk⟩, hd, hn⟩, he⟩

/-- A text has at most one analysis. -/
theorem Fits.unique (ha : a.Fits text) (hb : b.Fits text) : a = b := by
  obtain ⟨ts, ht, hka⟩ := ha.tokens
  obtain ⟨us, hu, hkb⟩ := hb.tokens
  rw [ht] at hu
  cases hu
  obtain ⟨ks, k, v⟩ := a
  obtain ⟨ls, l, w⟩ := b
  obtain ⟨hk, hn⟩ := Machine.closings_unique ha.derived hb.derived (hka.symm.trans hkb)
  have hk : ks = ls := hk
  have hn : k = l := hn
  subst hk hn
  have hw : v = w := Machine.derives_unique ha.derived hb.derived
  rw [hw]

end Analysis

/-- **The parser accepts exactly its grammar** and builds the tree that the
    grammar prescribes: a text is read as the tree `e` if and only if its
    tokens spell an expression for `e` with closing parentheses behind it.  No
    text can be taken in two ways: the tokens of the expression, the number of
    parentheses behind them and what the tokens spell are unique. -/
theorem parse_iff_fits (text : String) :
    (∀ e, parse text = .ok e ↔ ∃ a : Analysis, a.Fits text ∧ a.written.toExpr = e) ∧
      ∀ a b : Analysis, a.Fits text → b.Fits text → a = b := by
  refine ⟨fun e => ⟨Analysis.exists_fits, ?_⟩, fun _ _ => Analysis.Fits.unique⟩
  rintro ⟨a, ha, rfl⟩
  exact ha.parse

end LicenseExpr
