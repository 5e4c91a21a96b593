/-
  The blanks of printed expressions.

  * `OperatorAt cs before rest`: between `before` and `rest`, the characters
    have the word of an operator that is no part of a longer word;
  * a text is `WellSpaced` if it is made of identifier characters, `+`,
    parentheses and single blanks, none of them at an end of the text or at the
    inner side of a parenthesis, and if blanks stand exactly around the words
    of operators;
  * a word without blanks is well-spaced, and so are a well-spaced text in
    parentheses (`WellSpaced.enclosed`) and two of them around an operator
    (`WellSpaced.around_operator`);
  * `wellSpaced_text`: so is the text of every tree with ids that can be
    written, whatever its shape.
-/
import LicenseExpr.Proofs.Printing
import LicenseExpr.Proofs.Tiling
import Mathlib.Data.List.Chain

namespace LicenseExpr

open Token (WordAt Ends)

/-- Between `before` and `rest` there is the word of an operator, and nothing
    that the word goes on with. -/
def OperatorAt (cs before rest : List Char) : Prop :=
  ∃ op : Operator, WordAt cs before op.word false rest

/-- These characters may stand side by side: no blank is beside another one, or
    at the inner side of a parenthesis. -/
def MayMeet (c d : Char) : Prop :=
  (c = ' ' → d ≠ ' ' ∧ d ≠ ')') ∧ (d = ' ' → c ≠ '(')

/-- The characters are those of an expression, with single blanks that stand
    exactly around operators. -/
structure WellSpaced (cs : List Char) : Prop where
  alphabet : ∀ c ∈ cs, isIdChar c = true ∨ c = '+' ∨ c = '(' ∨ c = ')' ∨ c = ' '
  first : ∃ c ∈ cs.head?, c ≠ ' ' ∧ c ≠ ')'
  last : ∃ c ∈ cs.getLast?, c ≠ ' ' ∧ c ≠ '('
  neighbours : cs.IsChain MayMeet
  /-- Around every operator there are blanks. -/
  around : ∀ before rest, OperatorAt cs before rest →
    (∃ b, before = b ++ [' ']) ∧ ∃ r, rest = ' ' :: r
  /-- Beside every blank there is an operator. -/
  beside : ∀ before rest, cs = before ++ ' ' :: rest →
    (∃ b, OperatorAt cs b (' ' :: rest)) ∨ ∃ r, OperatorAt cs (before ++ [' ']) r

/-! ## Places around a character -/

section
variable {l m before rest : List Char} {c d : Char} {run : String} {plus : Bool}

/-- Where a character stands behind a part of a text, at its end or before it. -/
theorem append_cons_eq_append_cons_iff : l ++ c :: m = before ++ d :: rest ↔
    (∃ r, l = before ++ d :: r ∧ rest = r ++ c :: m) ∨ (l = before ∧ c = d ∧ m = rest) ∨
      ∃ b, before = l ++ c :: b ∧ m = b ++ d :: rest := by
  constructor
  · intro h
    rcases List.append_eq_append_iff.1 h with ⟨x, rfl, hx⟩ | ⟨x, rfl, hx⟩
    · rcases List.cons_eq_append_iff.1 hx with ⟨rfl, hd⟩ | ⟨b, rfl, hm⟩
      · obtain ⟨rfl, rfl⟩ := List.cons.inj hd
        exact Or.inr (Or.inl ⟨(List.append_nil l).symm, rfl, rfl⟩)
      · exact Or.inr (Or.inr ⟨b, rfl, hm⟩)
    · rcases List.cons_eq_append_iff.1 hx with ⟨rfl, hd⟩ | ⟨r, rfl, hm⟩
      · obtain ⟨rfl, rfl⟩ := List.cons.inj hd
        exact Or.inr (Or.inl ⟨List.append_nil before, rfl, rfl⟩)
      · exact Or.inl ⟨r, rfl, hm⟩
  · rintro (⟨r, rfl, rfl⟩ | ⟨rfl, rfl, rfl⟩ | ⟨b, rfl, rfl⟩) <;> simp

/-- A word has no other characters than identifier characters and `+`. -/
theorem Token.WordAt.not_mem {cs : List Char} (h : WordAt cs before run plus rest)
    (hc : isIdChar c = false) (hplus : c ≠ '+') :
    c ∉ run.toList ++ if plus then ['+'] else [] := by
  rw [List.mem_append]
  rintro (hrun | hsuffix)
  · rw [h.word.2 c hrun] at hc
    cases hc
  · cases plus with
    | true => exact hplus (List.mem_singleton.1 hsuffix)
    | false => cases hsuffix

/-- A word stays one in front of a character that it cannot go on with. -/
theorem Token.WordAt.append_cons (h : WordAt l before run plus rest) (hc : isIdChar c = false)
    (hplus : c ≠ '+') : WordAt (l ++ c :: m) before run plus (rest ++ c :: m) := by
  refine ⟨by rw [h.split, List.append_assoc], h.word, h.starts, fun hp => ?_⟩
  exact (h.stops hp).append (Token.ends_cons ⟨hc, hplus⟩)

/-- So it does behind a character that it cannot begin with. -/
theorem Token.WordAt.cons_append (h : WordAt m before run plus rest) (hc : isIdChar c = false) :
    WordAt (l ++ c :: m) (l ++ c :: before) run plus rest := by
  have hcut : Token.CutOff (l ++ [c]) m := by
    intro d hd hid
    rw [List.getLast?_concat] at hd
    cases hd
    rw [hc] at hid
    cases hid
  have := h.behind hcut
  simpa only [List.append_assoc, List.singleton_append] using this

/-- **A word is on one side** of a character that words do not have. -/
theorem wordAt_append_cons_iff (hc : isIdChar c = false) (hplus : c ≠ '+') :
    WordAt (l ++ c :: m) before run plus rest ↔
      (∃ r, rest = r ++ c :: m ∧ WordAt l before run plus r) ∨
        ∃ b, before = l ++ c :: b ∧ WordAt m b run plus rest := by
  constructor
  · intro h
    have hnot := h.not_mem hc hplus
    have hleft : ∀ r, l = before ++ (run.toList ++ if plus then ['+'] else []) ++ r →
        rest = r ++ c :: m → ∃ r, rest = r ++ c :: m ∧ WordAt l before run plus r := by
      rintro r hl rfl
      refine ⟨r, rfl, hl, h.word, h.starts, fun hp d hd => h.stops hp d ?_⟩
      rw [List.head?_append, Option.mem_def.1 hd]
      rfl
    rcases List.append_eq_append_iff.1 h.split with ⟨x, hx, hm⟩ | ⟨r, hl, hm⟩
    · rcases List.cons_eq_append_iff.1 hm with ⟨rfl, hrest⟩ | ⟨x, rfl, hsplit⟩
      · exact Or.inl (hleft [] (by rw [hx, List.append_nil, List.append_nil]) hrest)
      -- the character does not end the word, so it stands before it
      rcases List.append_eq_append_iff.1 hx with ⟨y, -, hy⟩ | ⟨y, rfl, hy⟩
      · exact absurd (hy ▸ List.mem_append_right y List.mem_cons_self) hnot
      · rcases List.cons_eq_append_iff.1 hy with ⟨-, hword⟩ | ⟨b, rfl, rfl⟩
        · exact absurd (hword ▸ List.mem_cons_self) hnot
        · refine Or.inr ⟨b, rfl, hsplit, h.word, fun d hd => h.starts d ?_, h.stops⟩
          rw [List.getLast?_append, List.getLast?_cons, Option.mem_def.1 hd]
          rfl
    · exact Or.inl (hleft r hl hm)
  · rintro (⟨r, rfl, h⟩ | ⟨b, rfl, h⟩)
    · exact h.append_cons hc hplus
    · exact h.cons_append hc

/-- In a single word there is no other word. -/
theorem Token.WordAt.of_word {w : String} {plus' : Bool} (hw : IsWord w)
    (h : WordAt (w.toList ++ if plus then ['+'] else []) before run plus' rest) :
    before = [] ∧ run = w ∧ plus' = plus ∧ rest = [] := by
  have hself : WordAt (w.toList ++ if plus then ['+'] else []) [] w plus [] :=
    ⟨by rw [List.append_nil, List.nil_append], hw, nofun, fun _ => Token.ends_nil⟩
  obtain ⟨a, ha, hid⟩ := h.exists_first
  have hinside : before ++ [a] <+: w.toList := by
    rcases Token.concat_prefix_append_iff.1 ha with ha | ⟨q, -, hq⟩
    · exact ha
    · cases plus with
      | false => exact absurd hq Token.not_concat_prefix_nil
      | true =>
        obtain ⟨-, rfl⟩ := Token.concat_prefix_singleton_iff.1 hq
        exact absurd hid (by decide)
  obtain rfl := h.eq_nil_of_inside hself (List.nil_append before).symm hinside
  obtain ⟨rfl, rfl⟩ := h.unique hself
  refine ⟨rfl, rfl, rfl, ?_⟩
  simpa using h.split

theorem not_operatorAt_nil : ¬ OperatorAt [] before rest := by
  rintro ⟨op, h⟩
  obtain ⟨a, ha, -⟩ := h.exists_first
  exact Token.not_concat_prefix_nil ha

theorem operatorAt_append_cons_iff (hc : isIdChar c = false) (hplus : c ≠ '+') :
    OperatorAt (l ++ c :: m) before rest ↔ (∃ r, rest = r ++ c :: m ∧ OperatorAt l before r) ∨
      ∃ b, before = l ++ c :: b ∧ OperatorAt m b rest := by
  simp only [OperatorAt, wordAt_append_cons_iff hc hplus, exists_or]
  constructor
  · rintro (⟨op, r, hr, h⟩ | ⟨op, b, hb, h⟩)
    · exact Or.inl ⟨r, hr, op, h⟩
    · exact Or.inr ⟨b, hb, op, h⟩
  · rintro (⟨r, hr, op, h⟩ | ⟨b, hb, op, h⟩)
    · exact Or.inl ⟨op, r, hr, h⟩
    · exact Or.inr ⟨op, b, hb, h⟩

/-- The operators of a text in parentheses are those of the text. -/
theorem operatorAt_enclosed_iff : OperatorAt ('(' :: l ++ [')']) before rest ↔
    ∃ b r, before = '(' :: b ∧ rest = r ++ [')'] ∧ OperatorAt l b r := by
  have hopen : OperatorAt ([] ++ '(' :: (l ++ [')'])) before rest ↔ _ :=
    operatorAt_append_cons_iff (by decide) (by decide)
  rw [List.nil_append] at hopen
  rw [List.cons_append, hopen]
  simp only [operatorAt_append_cons_iff (c := ')') (by decide) (by decide), not_operatorAt_nil,
    and_false, exists_false, false_or, or_false, List.nil_append]
  constructor
  · rintro ⟨b, hb, r, hr, h⟩
    exact ⟨b, r, hb, hr, h⟩
  · rintro ⟨b, r, hb, hr, h⟩
    exact ⟨b, hb, r, hr, h⟩

/-- The word of an operator stands in itself. -/
theorem operatorAt_word_iff (op : Operator) :
    OperatorAt op.word.toList before rest ↔ before = [] ∧ rest = [] := by
  constructor
  · rintro ⟨op', h⟩
    have hself : WordAt (op.word.toList ++ if false then ['+'] else []) before op'.word false
        rest := by
      simpa using h
    obtain ⟨hbefore, -, -, hrest⟩ := hself.of_word (isWord_operator op)
    exact ⟨hbefore, hrest⟩
  · rintro ⟨rfl, rfl⟩
    exact ⟨op, by simp, isWord_operator op, nofun, fun _ => Token.ends_nil⟩

/-- The operators of two texts around an operator are those of the texts and
    the one between them. -/
theorem operatorAt_infix_iff (op : Operator) :
    OperatorAt (l ++ ' ' :: (op.word.toList ++ ' ' :: m)) before rest ↔
      (∃ r, rest = r ++ ' ' :: (op.word.toList ++ ' ' :: m) ∧ OperatorAt l before r) ∨
        (before = l ++ [' '] ∧ rest = ' ' :: m) ∨
          ∃ b, before = l ++ ' ' :: (op.word.toList ++ ' ' :: b) ∧ OperatorAt m b rest := by
  rw [operatorAt_append_cons_iff (by decide) (by decide)]
  refine or_congr_right ?_
  simp only [operatorAt_append_cons_iff (c := ' ') (by decide) (by decide), operatorAt_word_iff]
  constructor
  · rintro ⟨b, rfl, ⟨r, rfl, rfl, rfl⟩ | ⟨b, rfl, h⟩⟩
    · exact Or.inl ⟨rfl, rfl⟩
    · exact Or.inr ⟨b, rfl, h⟩
  · rintro (⟨rfl, rfl⟩ | ⟨b, rfl, h⟩)
    · exact ⟨[], rfl, Or.inl ⟨[], rfl, rfl, rfl⟩⟩
    · exact ⟨_, rfl, Or.inr ⟨b, rfl, h⟩⟩

end

/-! ## Neighbours -/

theorem mayMeet_of_ne {c d : Char} (hc : c ≠ ' ') (hd : d ≠ ' ') : MayMeet c d :=
  ⟨fun h => absurd h hc, fun h => absurd h hd⟩

/-- Characters without a blank may stand side by side. -/
theorem isChain_of_not_blank {cs : List Char} (h : ∀ c ∈ cs, c ≠ ' ') : cs.IsChain MayMeet := by
  induction cs with
  | nil => exact .nil
  | cons c cs ih =>
    obtain ⟨hc, hcs⟩ := List.forall_mem_cons.1 h
    exact List.isChain_cons.2 ⟨fun d hd => mayMeet_of_ne hc (hcs d (List.mem_of_mem_head? hd)),
      ih hcs⟩

/-- A blank may stand between texts that do not meet it with another one, or
    with the inner side of a parenthesis. -/
theorem isChain_append_blank {l m : List Char} (hl : l.IsChain MayMeet) (hm : m.IsChain MayMeet)
    (hlast : ∀ c ∈ l.getLast?, c ≠ ' ' ∧ c ≠ '(') (hfirst : ∀ c ∈ m.head?, c ≠ ' ' ∧ c ≠ ')') :
    (l ++ ' ' :: m).IsChain MayMeet := by
  refine hl.append (List.isChain_cons.2 ⟨fun d hd => ?_, hm⟩) fun c hc d hd => ?_
  · exact ⟨fun _ => hfirst d hd, nofun⟩
  · cases hd
    exact ⟨fun h => absurd h (hlast c hc).1, fun _ => (hlast c hc).2⟩

/-! ## What is well-spaced -/

namespace WellSpaced
variable {l m : List Char}

/-- A license or an exception is well-spaced: there is no blank in it, and it
    is no operator. -/
theorem word {id : String} {plus : Bool} (h : IsLicenseName id plus) :
    WellSpaced (id.toList ++ if plus then ['+'] else []) := by
  have hchars : ∀ c ∈ id.toList ++ (if plus then ['+'] else []), isIdChar c = true ∨ c = '+' := by
    intro c hc
    rcases List.mem_append.1 hc with hc | hc
    · exact Or.inl (h.1.2 c hc)
    · cases plus with
      | true => exact Or.inr (List.mem_singleton.1 hc)
      | false => cases hc
  have hother : ∀ c ∈ id.toList ++ (if plus then ['+'] else []), c ≠ ' ' ∧ c ≠ '(' ∧ c ≠ ')' := by
    intro c hc
    refine ⟨?_, ?_, ?_⟩ <;> rintro rfl <;> exact absurd (hchars _ hc) (by decide)
  have hne : id.toList ++ (if plus then ['+'] else []) ≠ [] := fun hnil =>
    h.1.1 (List.append_eq_nil_iff.1 hnil).1
  exact
    { alphabet := fun c hc => (hchars c hc).imp_right Or.inl
      first := by
        have hc := hother _ (List.head_mem hne)
        exact ⟨_, List.head?_eq_some_head hne, hc.1, hc.2.2⟩
      last := by
        have hc := hother _ (List.getLast_mem hne)
        exact ⟨_, List.getLast?_eq_some_getLast hne, hc.1, hc.2.1⟩
      neighbours := isChain_of_not_blank fun c hc => (hother c hc).1
      around := by
        rintro before rest ⟨op, hop⟩
        obtain ⟨-, hid, hplus, -⟩ := hop.of_word h.1
        exact absurd hid.symm (h.2 hplus.symm op)
      beside := fun before rest hsplit =>
        absurd rfl (hother ' ' (hsplit ▸ List.mem_append_right _ List.mem_cons_self)).1 }

/-- Parentheses around a well-spaced text keep it well-spaced. -/
theorem enclosed (h : WellSpaced l) : WellSpaced ('(' :: l ++ [')']) where
  alphabet := by
    intro c hc
    simp only [List.cons_append, List.mem_cons, List.mem_append, List.not_mem_nil, or_false] at hc
    rcases hc with rfl | hc | rfl
    · decide
    · exact h.alphabet c hc
    · decide
  first := ⟨'(', rfl, by decide⟩
  last := ⟨')', List.getLast?_concat, by decide⟩
  neighbours := by
    obtain ⟨c, hc, hblank, -⟩ := h.first
    obtain ⟨d, hd, hblank', -⟩ := h.last
    rw [List.cons_append, List.isChain_cons, List.isChain_append]
    refine ⟨fun a ha => ?_, h.neighbours, .singleton _, fun a ha b hb => ?_⟩
    · rw [List.head?_append, Option.mem_def.1 hc] at ha
      cases ha
      exact mayMeet_of_ne (by decide) hblank
    · rw [Option.mem_def.1 hd] at ha
      cases ha
      cases hb
      exact mayMeet_of_ne hblank' (by decide)
  around := by
    intro before rest hop
    obtain ⟨b, r, rfl, rfl, hl⟩ := operatorAt_enclosed_iff.1 hop
    obtain ⟨⟨b, rfl⟩, r, rfl⟩ := h.around _ _ hl
    exact ⟨⟨'(' :: b, rfl⟩, r ++ [')'], rfl⟩
  beside := by
    intro before rest hsplit
    rcases append_cons_eq_append_cons_iff (l := []).1 hsplit with
      ⟨r, hnil, -⟩ | ⟨-, hc, -⟩ | ⟨b, rfl, hsplit'⟩
    · exact absurd hnil (by simp)
    · exact absurd hc (by decide)
    rcases append_cons_eq_append_cons_iff.1 hsplit' with
      ⟨r, hl, rfl⟩ | ⟨-, hc, -⟩ | ⟨b, -, hnil⟩
    · rcases h.beside b r hl with ⟨b', hop⟩ | ⟨r', hop⟩
      · exact Or.inl ⟨_, operatorAt_enclosed_iff.2 ⟨b', _, rfl, rfl, hop⟩⟩
      · exact Or.inr ⟨_, operatorAt_enclosed_iff.2 ⟨_, r', rfl, rfl, hop⟩⟩
    · exact absurd hc (by decide)
    · exact absurd hnil (by simp)

/-- Two well-spaced texts around an operator and blanks are well-spaced. -/
theorem around_operator (op : Operator) (hl : WellSpaced l) (hm : WellSpaced m) :
    WellSpaced (l ++ ' ' :: (op.word.toList ++ ' ' :: m)) where
  alphabet := by
    intro c hc
    simp only [List.mem_append, List.mem_cons] at hc
    rcases hc with hc | rfl | hc | rfl | hc
    · exact hl.alphabet c hc
    · decide
    · exact Or.inl ((isWord_operator op).2 c hc)
    · decide
    · exact hm.alphabet c hc
  first := by
    obtain ⟨c, hc, hfirst⟩ := hl.first
    exact ⟨c, by rw [List.head?_append, Option.mem_def.1 hc]; rfl, hfirst⟩
  last := by
    obtain ⟨c, hc, hlast⟩ := hm.last
    refine ⟨c, ?_, hlast⟩
    simp only [List.getLast?_append, List.getLast?_cons, Option.mem_def.1 hc]
    rfl
  neighbours := by
    have hword := isWord_operator op
    obtain ⟨c, hc, hlast⟩ := hl.last
    obtain ⟨d, hd, hfirst⟩ := hm.first
    have hmiddle : (op.word.toList ++ ' ' :: m).IsChain MayMeet := by
      refine isChain_append_blank (isChain_of_not_blank hword.not_blank) hm.neighbours
        (fun a ha => ?_) fun a ha => ?_
      · have hmem := List.mem_of_mem_getLast? ha
        exact ⟨hword.not_blank a hmem, (hword.not_parenthesis a hmem).1⟩
      · exact Option.mem_unique hd ha ▸ hfirst
    refine isChain_append_blank hl.neighbours hmiddle (fun a ha => ?_) fun a ha => ?_
    · exact Option.mem_unique hc ha ▸ hlast
    · rw [List.head?_append_of_ne_nil _ hword.1] at ha
      have hmem := List.mem_of_mem_head? ha
      exact ⟨hword.not_blank a hmem, (hword.not_parenthesis a hmem).2⟩
  around := by
    intro before rest hop
    rcases (operatorAt_infix_iff op).1 hop with ⟨r, rfl, hleft⟩ | ⟨rfl, rfl⟩ | ⟨b, rfl, hright⟩
    · obtain ⟨hb, r, rfl⟩ := hl.around _ _ hleft
      exact ⟨hb, _, rfl⟩
    · exact ⟨⟨l, rfl⟩, m, rfl⟩
    · obtain ⟨⟨b, rfl⟩, hr⟩ := hm.around _ _ hright
      exact ⟨⟨l ++ ' ' :: (op.word.toList ++ ' ' :: b), by simp⟩, hr⟩
  beside := by
    intro before rest hsplit
    rcases append_cons_eq_append_cons_iff.1 hsplit with
      ⟨r, rfl, rfl⟩ | ⟨rfl, -, rfl⟩ | ⟨b, rfl, hsplit'⟩
    · rcases hl.beside _ _ rfl with ⟨b', hop⟩ | ⟨r', hop⟩
      · exact Or.inl ⟨b', (operatorAt_infix_iff op).2 (Or.inl ⟨_, rfl, hop⟩)⟩
      · exact Or.inr ⟨_, (operatorAt_infix_iff op).2 (Or.inl ⟨r', rfl, hop⟩)⟩
    · exact Or.inr ⟨_, (operatorAt_infix_iff op).2 (Or.inr (Or.inl ⟨rfl, rfl⟩))⟩
    rcases append_cons_eq_append_cons_iff.1 hsplit' with
      ⟨r, hword, -⟩ | ⟨rfl, -, rfl⟩ | ⟨b, rfl, rfl⟩
    · have hblank : ' ' ∈ op.word.toList := hword ▸ List.mem_append_right b List.mem_cons_self
      exact absurd rfl ((isWord_operator op).not_blank ' ' hblank)
    · exact Or.inl ⟨_, (operatorAt_infix_iff op).2 (Or.inr (Or.inl ⟨rfl, rfl⟩))⟩
    · rcases hm.beside _ _ rfl with ⟨b', hop⟩ | ⟨r', hop⟩
      · exact Or.inl ⟨_, (operatorAt_infix_iff op).2 (Or.inr (Or.inr ⟨b', rfl, hop⟩))⟩
      · refine Or.inr ⟨r', (operatorAt_infix_iff op).2 (Or.inr (Or.inr ⟨_, ?_, hop⟩))⟩
        simp

end WellSpaced

/-- **The text of a tree is well-spaced** if its ids can be written, whatever
    the shape of the tree. -/
theorem Expr.wellSpaced_text {e : Expr} (h : e.All IsLicenseName IsName) :
    WellSpaced e.text.toList := by
  have operand : ∀ (parent : Operator) (e : Expr), WellSpaced e.text.toList →
      WellSpaced (e.operandText parent).toList := by
    intro parent e he
    rw [operandText]
    split
    · have := he.enclosed
      simpa [parenthesized] using this
    · exact he
  induction e with
  | license id orLater =>
    have : WellSpaced (id.toList ++ if orLater then ['+'] else []) := WellSpaced.word h
    cases orLater <;> simpa [text, licenseText] using this
  | exception id =>
    have hname : IsName id := h
    have := WellSpaced.word (hname.isLicenseName false)
    simpa [text] using this
  | compound l op r ihl ihr =>
    have := (operand op l (ihl h.1)).around_operator op (operand op r (ihr h.2))
    rw [text_compound]
    simpa using this

end LicenseExpr
