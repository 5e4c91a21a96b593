/-
  What the tokens of a text contribute to its tree.

  * `Token.collect f` goes over tokens from left to right; `f` is told of each
    token whether `WITH` stands directly before it, which makes an id an
    exception id;
  * `idLeaves` are the leaves that a token contributes, with its id resolved;
  * `Derives.leaves_eq`: the leaves of what is derived are those of its tokens,
    in the same order, however groups are dissolved;
  * `leaves_parse`: so no license of a text is lost, invented, repeated or
    moved, and the license ids of the tree are those of the ids that do not
    follow `WITH`.
-/
import LicenseExpr.Expr.Leaves
import LicenseExpr.Proofs.ByteOrder
import LicenseExpr.Proofs.Descent
import LicenseExpr.Proofs.LegacyIds

namespace LicenseExpr

open Token (Kind kinds)

namespace Token

variable {α : Type} {f : Bool → Kind → List α} {b : Bool} {ks us : List Kind}

/-! ## Collecting over tokens -/

/-- Collects what `f` makes of tokens, one after the other.  `f` is told
    whether `WITH` stands directly before a token, and the first argument says
    it of the first token. -/
def collect (f : Bool → Kind → List α) : Bool → List Kind → List α
  | _, [] => []
  | behindWith, k :: ks => f behindWith k ++ collect f (k == .operator .withException) ks

/-- Whether `WITH` stands directly before what follows `ks`; `b` says it of
    the first token of `ks`. -/
def endsWithWith (b : Bool) (ks : List Kind) : Bool :=
  ks.foldl (fun _ k => k == .operator .withException) b

theorem endsWithWith_iff :
    endsWithWith false ks = true ↔ ks.getLast? = some (.operator .withException) := by
  obtain rfl | ⟨us, k, rfl⟩ := List.eq_nil_or_concat ks
  · exact ⟨nofun, nofun⟩
  · rw [List.concat_eq_append, endsWithWith, List.foldl_append, List.getLast?_concat,
      Option.some_inj]
    exact beq_iff_eq

theorem collect_append (f : Bool → Kind → List α) (b : Bool) (ks us : List Kind) :
    collect f b (ks ++ us) = collect f b ks ++ collect f (endsWithWith b ks) us := by
  induction ks generalizing b with
  | nil => rfl
  | cons k ks ih => rw [List.cons_append, collect, collect, ih, List.append_assoc]; rfl

theorem mem_collect_iff {a : α} : a ∈ collect f b ks ↔
    ∃ before k after, ks = before ++ k :: after ∧ a ∈ f (endsWithWith b before) k := by
  induction ks generalizing b with
  | nil =>
    refine ⟨nofun, ?_⟩
    rintro ⟨before, k, after, h, -⟩
    cases before <;> cases h
  | cons k ks ih =>
    rw [collect, List.mem_append, ih]
    constructor
    · rintro (ha | ⟨before, k', after, rfl, ha⟩)
      · exact ⟨[], k, ks, rfl, ha⟩
      · exact ⟨k :: before, k', after, rfl, ha⟩
    · rintro ⟨before, k', after, h, ha⟩
      cases before with
      | nil => cases h; exact Or.inl ha
      | cons _ before => cases h; exact Or.inr ⟨before, k', after, rfl, ha⟩

/-- Nothing is made of operators and parentheses. -/
structure IdsOnly (f : Bool → Kind → List α) : Prop where
  operator : ∀ b op, f b (.operator op) = []
  opening : ∀ b, f b .opening = []
  closing : ∀ b, f b .closing = []

theorem IdsOnly.collect_closings (hf : IdsOnly f) (b : Bool) (n : Nat) :
    collect f b (List.replicate n .closing) = [] := by
  induction n generalizing b with
  | zero => rfl
  | succ n ih => rw [List.replicate_succ, collect, hf.closing, ih, List.append_nil]

theorem IdsOnly.collect_append_closings (hf : IdsOnly f) (b : Bool) (ks : List Kind) (n : Nat) :
    collect f b (ks ++ List.replicate n .closing) = collect f b ks := by
  rw [collect_append, hf.collect_closings, List.append_nil]

theorem IdsOnly.collect_infix (hf : IdsOnly f) (op : Operator) :
    collect f b (ks ++ .operator op :: us) =
      collect f b ks ++ collect f (Kind.operator op == .operator .withException) us := by
  rw [collect_append, collect, hf.operator, List.nil_append]

theorem IdsOnly.collect_group (hf : IdsOnly f) :
    collect f b (.opening :: ks ++ [.closing]) = collect f false ks := by
  rw [List.cons_append, collect, hf.opening, List.nil_append]
  exact hf.collect_append_closings _ ks 1

end Token

/-! ## Leaves -/

/-- The leaves that an id stands for, as an exception id directly behind
    `WITH` and as a license id elsewhere. -/
def idLeaves : Bool → Kind → List Leaf
  | true, .id word _ => (resolveException word).leaves
  | false, .id word plus => (resolveLicense word plus).leaves
  | _, _ => []

theorem idsOnly_idLeaves : Token.IdsOnly idLeaves where
  operator := by rintro (_ | _) op <;> rfl
  opening := by rintro (_ | _) <;> rfl
  closing := by rintro (_ | _) <;> rfl

theorem Expr.leaves_join {op : Operator} (l r : Expr) :
    (leftDeep op l (r.operands op)).leaves = l.leaves ++ r.leaves :=
  map_join List.append_assoc (fun l r => leaves_compound l op r) l r

/-- **The leaves of what is derived are those of its tokens**, in order. -/
theorem Derives.leaves_eq {single : Written → Bool} {layer : Layer} {ks : List Kind} {w : Written}
    (h : Derives single layer ks w) : w.toExpr.leaves = Token.collect idLeaves false ks := by
  have hf := idsOnly_idLeaves
  -- along the derivation; what stands between the parts contributes nothing
  induction h with
  | id => exact (List.append_nil _).symm
  | group _ ih => rw [hf.collect_group]; exact ih
  | term _ ih | conjunction _ ih | disjunction _ ih => exact ih
  | @excepted ks w x _ _ ih =>
    rw [hf.collect_infix, ← ih, Written.toExpr, Expr.leaves_compound]
    exact congrArg _ (List.append_nil _).symm
  | and _ _ ihl ihr | or _ _ ihl ihr =>
    rw [hf.collect_infix, Written.toExpr, Expr.leaves_join, ihl, ihr]
    rfl

/-- The license leaves that tokens contribute come from the ids that do not
    follow `WITH`. -/
theorem license_mem_collect_iff {ks : List Kind} {id : String} :
    (∃ orLater, Leaf.license id orLater ∈ Token.collect idLeaves false ks) ↔
      ∃ before word plus after, ks = before ++ .id word plus :: after ∧
        before.getLast? ≠ some (.operator .withException) ∧
          ∃ orLater, Leaf.license id orLater ∈ (resolveLicense word plus).leaves := by
  constructor
  · rintro ⟨orLater, h⟩
    obtain ⟨before, k, after, rfl, hk⟩ := Token.mem_collect_iff.1 h
    cases hb : Token.endsWithWith false before with
    | true =>
      rw [hb] at hk
      cases k with
      | id word plus =>
        -- an exception is no license
        obtain ⟨x, hx⟩ := exists_resolveException word
        rw [idLeaves, hx, Expr.leaves_exception] at hk
        cases List.mem_singleton.1 hk
      | operator | opening | closing => cases hk
    | false =>
      rw [hb] at hk
      cases k with
      | id word plus =>
        refine ⟨before, word, plus, after, rfl, ?_, orLater, hk⟩
        rw [Ne, ← Token.endsWithWith_iff, hb]
        exact Bool.false_ne_true
      | operator | opening | closing => cases hk
  · rintro ⟨before, word, plus, after, rfl, hb, orLater, hleaf⟩
    refine ⟨orLater, Token.mem_collect_iff.2 ⟨before, _, after, rfl, ?_⟩⟩
    rwa [Bool.eq_false_iff.2 (mt Token.endsWithWith_iff.1 hb)]

/-- **No license is lost, invented, repeated or moved**: the leaves of the
    tree that a text is read as are the leaves of its ids, from left to right.
    So the license ids of the tree, in the order of their bytes and each once,
    are those of the license leaves that the ids not following `WITH` stand
    for. -/
theorem leaves_parse {text : String} {ts : List Token} {e : Expr}
    (ht : Token.tokenize text = .ok ts) (h : parse text = .ok e) :
    e.leaves = Token.collect idLeaves false (kinds ts) ∧
      e.licenseIds.Pairwise (fun s t => bytes s < bytes t) ∧
        ∀ id, id ∈ e.licenseIds ↔ ∃ before word plus after,
          kinds ts = before ++ .id word plus :: after ∧
            before.getLast? ≠ some (.operator .withException) ∧
              ∃ orLater, Leaf.license id orLater ∈ (resolveLicense word plus).leaves := by
  have hleaves : e.leaves = Token.collect idLeaves false (kinds ts) := by
    obtain ⟨ts', w, ht', hm, rfl⟩ := parse_eq_ok.1 h
    rw [ht] at ht'
    cases ht'
    obtain ⟨ks, n, hk, hd, -⟩ := Machine.read_eq_ok_iff.1 hm
    rw [hk, idsOnly_idLeaves.collect_append_closings, hd.leaves_eq]
  refine ⟨hleaves, (pairwise_sortUnique _).imp bytes_lt_bytes, fun id => ?_⟩
  rw [Expr.mem_licenseIds, hleaves, license_mem_collect_iff]

/-- The operands of a group join those of the chain around it, and a combined
    id contributes two leaves. -/
theorem leaves_parse_group : ∃ ts e,
    Token.tokenize "A AND (B AND gpl-2.0-with-gcc-exception+) OR C WITH Font-exception" = .ok ts ∧
      parse "A AND (B AND gpl-2.0-with-gcc-exception+) OR C WITH Font-exception" = .ok e ∧
        e.leaves = [.license "A" false, .license "B" false, .license "GPL-2.0-or-later" false,
          .exception "GCC-exception-2.0", .license "C" false, .exception "Font-exception-2.0"] ∧
        e.licenseIds = ["A", "B", "C", "GPL-2.0-or-later"] ∧
        (e.leaves = Token.collect idLeaves false (kinds ts) ∧
          e.licenseIds.Pairwise (fun s t => bytes s < bytes t) ∧
            ∀ id, id ∈ e.licenseIds ↔ ∃ before word plus after,
              kinds ts = before ++ .id word plus :: after ∧
                before.getLast? ≠ some (.operator .withException) ∧
                  ∃ orLater, Leaf.license id orLater ∈ (resolveLicense word plus).leaves) := by
  have hfont := @Token.Spells.id _ _ "Font-exception" false (by decide) Token.ends_nil .nil
  have hc := @Token.Spells.id _ _ "C" false (by decide) (Token.ends_cons (by decide))
    (hfont.operator .withException)
  have hgpl := @Token.Spells.id _ _ "gpl-2.0-with-gcc-exception" true (by decide)
    (Token.ends_cons (by decide)) (hc.operator .or).closing
  have hb := @Token.Spells.id _ _ "B" false (by decide) (Token.ends_cons (by decide))
    (hgpl.operator .and)
  have ha : Token.Spells
      "A AND (B AND gpl-2.0-with-gcc-exception+) OR C WITH Font-exception".toList _ :=
    @Token.Spells.id _ _ "A" false (by decide) (Token.ends_cons (by decide))
      (hb.opening.operator .and)
  obtain ⟨ts, ht, hk⟩ := ha.tokenize_eq
  have hcurrent : ∀ w, CurrentLicense w false → resolveLicense w false = .license w false :=
    fun w h => resolveLicense_of_current h
  have hlicense := hcurrent "C" (by decide)
  have hsingle : Parser.machine.single (.id "C" false) = true := congrArg Expr.isLicense hlicense
  have hid : ∀ w p, Derives Written.isSingle .atom [.id w p] (.id w p) := fun _ _ => .id
  have hgroup := Derives.group (.disjunction (.and (.conjunction (.term (hid "B" false)))
    (.term (hid "gpl-2.0-with-gcc-exception" true))))
  have hchain := Derives.and (.conjunction (.term (hid "A" false))) (.term hgroup)
  have hderived := Derives.or (.disjunction hchain)
    (.conjunction (.excepted (x := "Font-exception") (hid "C" false) hsingle))
  have hparse := parse_of_ok ht (Machine.read_eq_ok_iff.2 ⟨_, 0, hk, hderived, by decide⟩)
  have hcombined : resolveLicense "gpl-2.0-with-gcc-exception" true =
      .compound (.license "GPL-2.0-or-later" false) .withException
        (.exception "GCC-exception-2.0") :=
    resolveLicense_of_combined (c := ⟨"GPL-2.0-with-GCC-exception", "GPL-2.0", "GCC-exception-2.0"⟩)
      (v := ⟨"GPL-2.0", "GPL-2.0-only", "GPL-2.0-or-later"⟩) (by simp [Legacy.combined])
        (foldCase_eq_iff.2 (by decide)) (by simp [Legacy.versioned]) rfl true
  have hexception : resolveException "Font-exception" = .exception "Font-exception-2.0" :=
    resolveException_of_mem (r := ⟨"Font-exception", "Font-exception-2.0"⟩)
      (by simp [Legacy.exceptions]) rfl
  simp only [Written.toExpr, hcombined, hcurrent "A" (by decide), hcurrent "B" (by decide),
    hlicense, hexception] at hparse
  obtain ⟨e, hparse, hleaves⟩ : ∃ e, parse
      "A AND (B AND gpl-2.0-with-gcc-exception+) OR C WITH Font-exception" = .ok e ∧
        e.leaves = [.license "A" false, .license "B" false, .license "GPL-2.0-or-later" false,
          .exception "GCC-exception-2.0", .license "C" false, .exception "Font-exception-2.0"] :=
    ⟨_, hparse, by simp [Expr.leftDeep, Expr.operands]⟩
  have hids : e.licenseIds = ["A", "B", "C", "GPL-2.0-or-later"] := by
    rw [Expr.licenseIds, hleaves]
    exact sortUnique_eq_iff.2 ⟨by decide, fun _ => List.Perm.mem_iff (by decide)⟩
  exact ⟨ts, e, ht, hparse, hleaves, hids, leaves_parse ht hparse⟩

end LicenseExpr
