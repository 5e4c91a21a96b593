/-
  The tokens of a text tile it.

  * a character is `Stray` if it is none that tokens are made of, no blank,
    and no `+` directly behind an identifier character; a `FirstStray` one has
    none before it;
  * a `Lexeme` of a text is a parenthesis in it, or a word (`WordAt`): a run of
    identifier characters that goes on neither before it nor behind it, with
    the `+` directly behind it if there is one;
  * a `Tiling` of a text consists of lexemes that stand one behind the other
    and between which there are only blanks;
  * what a step of scanning takes is cut off between words (`CutOff`), so the
    lexemes, the stray characters and the blanks of what is left are those of
    the whole text (`Scans.lexemes`, `Scans.covers`, `Breaks.firstStray`);
  * lexemes that overlap are the same (`Lexeme.eq_of_covers`), so a text has
    only one tiling, and none if there is a stray character in it;
  * `tokenize_tiling`: scanning fails exactly if there is a stray character,
    of which it reports the first one, and else finds the tiling.
-/
import LicenseExpr.Proofs.Fragments

namespace LicenseExpr

namespace Token

/-! ## Stray characters -/

/-- The number of bytes that characters take. -/
abbrev byteSize (cs : List Char) : Nat :=
  total Char.utf8Size cs

/-- Behind the characters `before`, the character `c` is in no token and no
    blank. -/
structure Stray (before : List Char) (c : Char) : Prop where
  notId : isIdChar c = false
  notParenthesis : c ≠ '(' ∧ c ≠ ')'
  notBlank : isBlank c = false
  /-- A `+` may stand directly behind an identifier character. -/
  notSuffix : c = '+' → ∀ d ∈ before.getLast?, isIdChar d = false

/-- The characters have a stray one behind `before`, and none before it. -/
structure FirstStray (cs before : List Char) (c : Char) : Prop where
  stands : before ++ [c] <+: cs
  stray : Stray before c
  first : ∀ b d, b ++ [d] <+: before → ¬ Stray b d

/-! ## Lexemes -/

/-- Behind `before`, the characters have a word: a run of identifier
    characters that goes on neither before it nor behind it, and the `+`
    directly behind it if there is one. -/
structure WordAt (cs before : List Char) (run : String) (plus : Bool) (rest : List Char) :
    Prop where
  split : cs = before ++ (run.toList ++ if plus then ['+'] else []) ++ rest
  word : IsWord run
  starts : ∀ c ∈ before.getLast?, isIdChar c = false
  stops : plus = false → Ends rest

/-- What a word is: an operator if it is the bare word of one, and an id
    otherwise. -/
inductive IsKindOf (run : String) : Bool → Kind → Prop
  | operator (op : Operator) : run = op.word → IsKindOf run false (.operator op)
  | id {plus : Bool} : (plus = false → ∀ op : Operator, run ≠ op.word) →
      IsKindOf run plus (.id run plus)

/-- The token is what the characters have at its offset. -/
inductive Lexeme (cs : List Char) : Token → Prop
  | opening {before rest} : cs = before ++ '(' :: rest → Lexeme cs ⟨.opening, byteSize before⟩
  | closing {before rest} : cs = before ++ ')' :: rest → Lexeme cs ⟨.closing, byteSize before⟩
  | word {before run plus rest kind} : WordAt cs before run plus rest → IsKindOf run plus kind →
      Lexeme cs ⟨kind, byteSize before⟩

/-- A byte of the text is in the token. -/
def Covers (t : Token) (place : Nat) : Prop :=
  t.offset ≤ place ∧ place < t.offset + t.text.utf8ByteSize

/-- The tokens tile the text. -/
structure Tiling (text : String) (ts : List Token) : Prop where
  ascending : ts.Pairwise (·.offset < ·.offset)
  disjoint : ts.Pairwise fun t u => t.offset + t.text.utf8ByteSize ≤ u.offset
  slices : ∀ t ∈ ts, Stands 0 text.toList t.offset t.text
  lexemes : ∀ t ∈ ts, Lexeme text.toList t
  /-- Everything outside the tokens is blank. -/
  covers : ∀ before c, before ++ [c] <+: text.toList → isBlank c = false →
    ∃ t ∈ ts, t.Covers (byteSize before)

/-! ## Places in a text -/

/-- A place in a concatenation is in the first part or in the second. -/
theorem concat_prefix_append_iff {α : Type} {l m b : List α} {a : α} :
    b ++ [a] <+: l ++ m ↔ b ++ [a] <+: l ∨ ∃ q, b = l ++ q ∧ q ++ [a] <+: m := by
  rw [prefix_append_iff]
  constructor
  · rintro (h | ⟨q, hq, hsplit⟩)
    · exact Or.inl h
    · rcases List.eq_nil_or_concat q with rfl | ⟨q, d, rfl⟩
      · exact Or.inl ⟨[], by rw [List.append_nil, hsplit, List.append_nil]⟩
      · rw [List.concat_eq_append] at hsplit hq
        rw [← List.append_assoc] at hsplit
        obtain ⟨rfl, hd⟩ := List.append_inj' hsplit rfl
        cases hd
        exact Or.inr ⟨q, rfl, hq⟩
  · rintro (h | ⟨q, rfl, hq⟩)
    · exact Or.inl h
    · exact Or.inr ⟨q ++ [a], hq, List.append_assoc l q [a]⟩

theorem concat_prefix_singleton_iff {α : Type} {b : List α} {a d : α} :
    b ++ [d] <+: [a] ↔ b = [] ∧ d = a := by
  constructor
  · intro h
    have hlength := h.length_le
    simp only [List.length_append, List.length_singleton] at hlength
    exact ⟨List.eq_nil_of_length_eq_zero (by omega), List.mem_singleton.1 (h.subset (by simp))⟩
  · rintro ⟨rfl, rfl⟩
    exact List.prefix_refl _

theorem not_concat_prefix_nil {α : Type} {b : List α} {d : α} : ¬ b ++ [d] <+: [] := by
  intro h
  exact absurd (List.prefix_nil.1 h) (by simp)

/-- A character takes at least one byte. -/
theorem byteSize_lt_of_prefix {b l : List Char} {c : Char} (h : b ++ [c] <+: l) :
    byteSize b < byteSize l := by
  obtain ⟨rest, rfl⟩ := h
  have := c.utf8Size_pos
  simp only [byteSize, total_append, total_cons, total_nil]
  omega

/-- The character at a byte of a part of a text is in this part. -/
theorem exists_of_byteSize {cs b l rest before : List Char} {c : Char}
    (hsplit : cs = b ++ l ++ rest) (h : before ++ [c] <+: cs) (hle : byteSize b ≤ byteSize before)
    (hlt : byteSize before < byteSize b + byteSize l) :
    ∃ q, before = b ++ q ∧ q ++ [c] <+: l := by
  rw [hsplit, List.append_assoc] at h
  rcases concat_prefix_append_iff.1 h with hb | ⟨q, rfl, hq⟩
  · have := byteSize_lt_of_prefix hb
    omega
  rcases concat_prefix_append_iff.1 hq with hl | ⟨q, rfl, -⟩
  · exact ⟨q, rfl, hl⟩
  · simp only [byteSize, total_append] at hlt
    omega

/-! ## Cutting characters off -/

/-- No word goes on from `l` to `cs`. -/
def CutOff (l cs : List Char) : Prop :=
  ∀ c ∈ l.getLast?, isIdChar c = true → Ends cs

section
variable {l cs before rest : List Char} {c : Char} {run : String} {plus : Bool} {t : Token}

theorem cutOff_singleton (h : isIdChar c = false) (cs : List Char) : CutOff [c] cs := by
  intro d hd hid
  have hd : c = d := Option.some.inj hd
  rw [← hd, h] at hid
  cases hid

theorem cutOff_word {w : String} (he : plus = false → Ends cs) :
    CutOff (Kind.ofWord w plus).text.toList cs := by
  intro d hd hid
  cases plus with
  | false => exact he rfl
  | true =>
    rw [toList_text_ofWord, if_pos rfl, List.getLast?_concat] at hd
    cases hd
    exact absurd hid (by decide)

/-- Behind a cut, it does not matter what stands before it. -/
theorem stray_append_iff (hcut : CutOff l cs) (h : before ++ [c] <+: cs) :
    Stray (l ++ before) c ↔ Stray before c := by
  have hlast : c = '+' → ((∀ d ∈ (l ++ before).getLast?, isIdChar d = false) ↔
      ∀ d ∈ before.getLast?, isIdChar d = false) := by
    intro hc
    rw [List.getLast?_append]
    cases hb : before.getLast? with
    | some d => rfl
    | none =>
      rw [List.getLast?_eq_none_iff] at hb
      subst hb hc
      refine ⟨fun _ => nofun, fun _ d hd => Bool.eq_false_iff.2 fun hid => ?_⟩
      obtain ⟨rest, rfl⟩ := h
      exact (hcut d hd hid '+' rfl).2 rfl
  constructor
  · rintro ⟨hid, hparen, hblank, hplus⟩
    exact ⟨hid, hparen, hblank, fun hc => (hlast hc).1 (hplus hc)⟩
  · rintro ⟨hid, hparen, hblank, hplus⟩
    exact ⟨hid, hparen, hblank, fun hc => (hlast hc).2 (hplus hc)⟩

theorem FirstStray.behind (h : FirstStray cs before c) (hcut : CutOff l cs)
    (hl : ∀ b d, b ++ [d] <+: l → ¬ Stray b d) : FirstStray (l ++ cs) (l ++ before) c where
  stands := by
    rw [List.append_assoc]
    exact (List.prefix_append_right_inj l).2 h.stands
  stray := (stray_append_iff hcut h.stands).2 h.stray
  first := by
    intro b d hbd
    rcases concat_prefix_append_iff.1 hbd with hbd | ⟨q, rfl, hq⟩
    · exact hl b d hbd
    · have hcs : q ++ [d] <+: cs := hq.trans ((List.prefix_append _ _).trans h.stands)
      rw [stray_append_iff hcut hcs]
      exact h.first q d hq

/-- A word starts with an identifier character. -/
theorem WordAt.exists_first (h : WordAt cs before run plus rest) :
    ∃ a, before ++ [a] <+: cs ∧ isIdChar a = true := by
  obtain ⟨a, w, ha⟩ := List.exists_cons_of_ne_nil h.word.1
  refine ⟨a, ⟨w ++ ((if plus then ['+'] else []) ++ rest), ?_⟩, h.word.2 a ?_⟩
  · rw [h.split, ha]
    simp
  · rw [ha]
    exact List.mem_cons_self

theorem WordAt.behind (h : WordAt cs before run plus rest) (hcut : CutOff l cs) :
    WordAt (l ++ cs) (l ++ before) run plus rest where
  split := by rw [h.split]; simp only [List.append_assoc]
  word := h.word
  starts := by
    intro d hd
    rw [List.getLast?_append] at hd
    cases hb : before.getLast? with
    | some d' =>
      rw [hb] at hd
      cases hd
      exact h.starts d hb
    | none =>
      rw [hb] at hd
      rw [List.getLast?_eq_none_iff] at hb
      refine Bool.eq_false_iff.2 fun hid => ?_
      -- the first character of the run would go on with what stands before the cut
      obtain ⟨a, ha, hrun⟩ := h.exists_first
      rw [hb] at ha
      obtain ⟨rest, rfl⟩ := ha
      have hend := (hcut d hd hid a rfl).1
      rw [hrun] at hend
      cases hend
  stops := h.stops

theorem Lexeme.behind (h : Lexeme cs t) (hcut : CutOff l cs) :
    Lexeme (l ++ cs) ⟨t.kind, byteSize l + t.offset⟩ := by
  cases h with
  | opening hsplit =>
    rw [← total_append]
    exact .opening (by rw [hsplit, List.append_assoc])
  | closing hsplit =>
    rw [← total_append]
    exact .closing (by rw [hsplit, List.append_assoc])
  | word hword hkind =>
    rw [← total_append]
    exact .word (hword.behind hcut) hkind

end

/-! ## Words and blanks -/

/-- A word ends with an identifier character. -/
theorem exists_getLast?_word {w : String} (hw : IsWord w) :
    ∃ d ∈ w.toList.getLast?, isIdChar d = true :=
  ⟨_, List.getLast?_eq_some_getLast hw.1, hw.2 _ (List.getLast_mem hw.1)⟩

/-- No character of a word is stray. -/
theorem not_stray_word {w : String} (hw : IsWord w) (plus : Bool) (b : List Char) (d : Char)
    (h : b ++ [d] <+: (Kind.ofWord w plus).text.toList) : ¬ Stray b d := by
  intro hstray
  rw [toList_text_ofWord] at h
  rcases concat_prefix_append_iff.1 h with h | ⟨q, rfl, hq⟩
  · have hid := hw.2 d (h.subset (by simp))
    rw [hstray.notId] at hid
    cases hid
  · cases plus with
    | false => exact not_concat_prefix_nil hq
    | true =>
      obtain ⟨rfl, hd⟩ := concat_prefix_singleton_iff.1 hq
      rw [List.append_nil] at hstray
      obtain ⟨e, he, hid⟩ := exists_getLast?_word hw
      rw [hstray.notSuffix hd e he] at hid
      cases hid

theorem not_stray_singleton {a : Char}
    (ha : isIdChar a = true ∨ a = '(' ∨ a = ')' ∨ isBlank a = true) (b : List Char) (d : Char)
    (h : b ++ [d] <+: [a]) : ¬ Stray b d := by
  intro hstray
  obtain ⟨rfl, rfl⟩ := concat_prefix_singleton_iff.1 h
  rcases ha with ha | rfl | rfl | ha
  · exact absurd ha (by simp [hstray.notId])
  · exact hstray.notParenthesis.1 rfl
  · exact hstray.notParenthesis.2 rfl
  · exact absurd ha (by simp [hstray.notBlank])

section
variable {o : Nat} {cs before : List Char} {ts : List Token} {c : Char} {err : SyntaxError}

/-- **Scanning fails at the first stray character.** -/
theorem Breaks.firstStray (h : Breaks o cs err) : ∃ before c, FirstStray cs before c ∧
    err = ⟨.malformedToken, o + byteSize before, c.toString⟩ := by
  have behind : ∀ {o n : Nat} {l cs : List Char} {err : SyntaxError}, byteSize l = n →
      CutOff l cs → (∀ b d, b ++ [d] <+: l → ¬ Stray b d) →
      (∃ before c, FirstStray cs before c ∧
        err = ⟨.malformedToken, o + n + byteSize before, c.toString⟩) →
      ∃ before c, FirstStray (l ++ cs) before c ∧
        err = ⟨.malformedToken, o + byteSize before, c.toString⟩ := by
    rintro o n l cs err rfl hcut hl ⟨before, c, hfirst, rfl⟩
    refine ⟨l ++ before, c, hfirst.behind hcut hl, ?_⟩
    rw [Nat.add_assoc, ← total_append]
  induction h with
  | @malformed o c cs hid hopen hclose hblank =>
    refine ⟨[], c, ⟨⟨cs, rfl⟩, ⟨hid, ⟨hopen, hclose⟩, hblank, fun _ => nofun⟩, ?_⟩, rfl⟩
    intro b d hbd
    exact absurd hbd not_concat_prefix_nil
  | @blank o c cs err hc _ ih =>
    have hl := not_stray_singleton (Or.inr (Or.inr (Or.inr hc)))
    exact behind (l := [c]) rfl (cutOff_singleton (isIdChar_of_isBlank hc) cs) hl ih
  | @opening o cs err _ ih =>
    have hl := not_stray_singleton (a := '(') (Or.inr (Or.inl rfl))
    exact behind (l := ['(']) rfl (cutOff_singleton (by decide) cs) hl ih
  | @closing o cs err _ ih =>
    have hl := not_stray_singleton (a := ')') (Or.inr (Or.inr (Or.inl rfl)))
    exact behind (l := [')']) rfl (cutOff_singleton (by decide) cs) hl ih
  | @word o w plus cs err hw he _ ih =>
    have hsize := (utf8ByteSize_eq_total (Kind.ofWord w plus).text).symm
    exact behind hsize (cutOff_word he) (not_stray_word hw plus) ih

theorem isKindOf_ofWord (w : String) (plus : Bool) : IsKindOf w plus (Kind.ofWord w plus) := by
  cases plus with
  | true => exact .id nofun
  | false =>
    rw [Kind.ofWord]
    cases h : Operator.ofWord? w with
    | some op => exact .operator op (Operator.ofWord?_eq_some_iff.1 h)
    | none =>
      refine .id fun _ op hop => ?_
      rw [Operator.ofWord?_eq_some_iff.2 hop] at h
      cases h

/-- **The tokens are lexemes** of the characters, from the byte `o` on. -/
theorem Scans.lexemes (h : Scans o cs ts) :
    ∀ t ∈ ts, ∃ place, t.offset = o + place ∧ Lexeme cs ⟨t.kind, place⟩ := by
  have behind : ∀ {o n : Nat} {l cs : List Char} {t : Token}, byteSize l = n → CutOff l cs →
      (∃ place, t.offset = o + n + place ∧ Lexeme cs ⟨t.kind, place⟩) →
      ∃ place, t.offset = o + place ∧ Lexeme (l ++ cs) ⟨t.kind, place⟩ := by
    rintro o n l cs t rfl hcut ⟨place, ht, hlex⟩
    exact ⟨byteSize l + place, by rw [ht, Nat.add_assoc], hlex.behind hcut⟩
  induction h with
  | nil => exact List.forall_mem_nil _
  | @blank o c cs ts hc _ ih =>
    intro t ht
    exact behind (l := [c]) rfl (cutOff_singleton (isIdChar_of_isBlank hc) cs) (ih t ht)
  | @opening o cs ts _ ih =>
    refine List.forall_mem_cons.2 ⟨⟨0, rfl, @Lexeme.opening _ [] cs rfl⟩, fun t ht => ?_⟩
    exact behind (l := ['(']) rfl (cutOff_singleton (by decide) cs) (ih t ht)
  | @closing o cs ts _ ih =>
    refine List.forall_mem_cons.2 ⟨⟨0, rfl, @Lexeme.closing _ [] cs rfl⟩, fun t ht => ?_⟩
    exact behind (l := [')']) rfl (cutOff_singleton (by decide) cs) (ih t ht)
  | @word o w plus cs ts hw he _ ih =>
    have hsplit : (Kind.ofWord w plus).text.toList ++ cs =
        [] ++ (w.toList ++ if plus then ['+'] else []) ++ cs := by
      rw [toList_text_ofWord, List.nil_append]
    have hword : WordAt _ [] w plus cs := ⟨hsplit, hw, nofun, he⟩
    refine List.forall_mem_cons.2 ⟨⟨0, rfl, .word hword (isKindOf_ofWord w plus)⟩, fun t ht => ?_⟩
    exact behind (utf8ByteSize_eq_total _).symm (cutOff_word he) (ih t ht)

/-- Every token ends before the next one starts. -/
theorem Scans.disjoint (h : Scans o cs ts) :
    ts.Pairwise fun t u => t.offset + t.text.utf8ByteSize ≤ u.offset := by
  induction h with
  | nil => exact List.Pairwise.nil
  | blank _ _ ih => exact ih
  | opening hs ih | closing hs ih | word _ _ hs ih =>
    exact List.pairwise_cons.2 ⟨fun u hu => hs.offsets.1 u hu, ih⟩

/-- **Everything outside the tokens is blank.** -/
theorem Scans.covers (h : Scans o cs ts) : ∀ before c, before ++ [c] <+: cs → isBlank c = false →
    ∃ t ∈ ts, t.Covers (o + byteSize before) := by
  have behind : ∀ {o : Nat} {l cs : List Char} {k : Kind} {ts : List Token}, k.text.toList = l →
      (∀ before c, before ++ [c] <+: cs → isBlank c = false →
        ∃ u ∈ ts, u.Covers (o + k.text.utf8ByteSize + byteSize before)) →
      ∀ before c, before ++ [c] <+: l ++ cs → isBlank c = false →
        ∃ u ∈ (⟨k, o⟩ :: ts : List Token), u.Covers (o + byteSize before) := by
    rintro o _ cs k ts rfl ih before c hbefore hc
    rcases concat_prefix_append_iff.1 hbefore with ht | ⟨q, rfl, hq⟩
    · have hlt := byteSize_lt_of_prefix ht
      rw [byteSize, byteSize, ← utf8ByteSize_eq_total] at hlt
      exact ⟨⟨k, o⟩, List.mem_cons_self, Nat.le_add_right _ _, Nat.add_lt_add_left hlt _⟩
    · obtain ⟨u, hu, hcovers⟩ := ih q c hq hc
      refine ⟨u, List.mem_cons_of_mem _ hu, ?_⟩
      rwa [byteSize, total_append, ← utf8ByteSize_eq_total, ← Nat.add_assoc]
  induction h with
  | nil =>
    intro before c h
    exact absurd h not_concat_prefix_nil
  | @blank o a cs ts ha _ ih =>
    intro before c h hc
    rcases concat_prefix_append_iff (l := [a]).1 h with h | ⟨q, rfl, hq⟩
    · obtain ⟨-, rfl⟩ := concat_prefix_singleton_iff.1 h
      rw [ha] at hc
      cases hc
    · obtain ⟨u, hu, hcovers⟩ := ih q c hq hc
      exact ⟨u, hu, by rwa [byteSize, total_append, ← Nat.add_assoc]⟩
  | opening _ ih => exact behind (l := ['(']) (k := .opening) (by decide) ih
  | closing _ ih => exact behind (l := [')']) (k := .closing) (by decide) ih
  | word _ _ _ ih => exact behind rfl ih

theorem tiling_of_tokenize {text : String} (h : tokenize text = .ok ts) : Tiling text ts := by
  have hs := tokenize_eq_ok_iff.1 h
  refine ⟨hs.offsets.2, hs.disjoint, hs.stands, fun t ht => ?_, fun before c hc hblank => ?_⟩
  · obtain ⟨place, hplace, hlex⟩ := hs.lexemes t ht
    rw [Nat.zero_add] at hplace
    rwa [← hplace] at hlex
  · obtain ⟨t, ht, hcovers⟩ := hs.covers before c hc hblank
    exact ⟨t, ht, by rwa [Nat.zero_add] at hcovers⟩

end

/-! ## There is only one tiling -/

section
variable {cs before : List Char} {c : Char} {t u : Token} {run run' : String} {plus plus' : Bool}
  {rest rest' : List Char}

theorem WordAt.unique (h : WordAt cs before run plus rest)
    (h' : WordAt cs before run' plus' rest') : run = run' ∧ plus = plus' := by
  have hsplit : run.toList ++ ((if plus then ['+'] else []) ++ rest) =
      run'.toList ++ ((if plus' then ['+'] else []) ++ rest') := by
    have := h.split.symm.trans h'.split
    simpa only [List.append_assoc, List.append_cancel_left_eq] using this
  -- each run is what can be taken from the front
  have hrun : ∀ {run plus rest}, WordAt cs before run plus rest →
      (run.toList ++ ((if plus then ['+'] else []) ++ rest)).takeWhile isIdChar = run.toList := by
    intro run plus rest h
    have hstop : ∀ a ∈ ((if plus then ['+'] else []) ++ rest).head?, isIdChar a = false := by
      cases plus with
      | true => exact fun a ha => by cases ha; decide
      | false => exact fun a ha => (h.stops rfl a ha).1
    rw [List.takeWhile_append_of_pos h.word.2, (takeWhile_eq_nil hstop).1, List.append_nil]
  have hruns : run.toList = run'.toList := by rw [← hrun h, hsplit, hrun h']
  rw [hruns, List.append_cancel_left_eq] at hsplit
  refine ⟨String.toList_inj.1 hruns, ?_⟩
  cases plus with
  | true =>
    cases plus' with
    | true => rfl
    | false =>
      have hsplit : '+' :: rest = rest' := hsplit
      exact absurd rfl (h'.stops rfl '+' (by rw [← hsplit]; rfl)).2
  | false =>
    cases plus' with
    | true =>
      have hsplit : rest = '+' :: rest' := hsplit
      exact absurd rfl (h.stops rfl '+' (by rw [hsplit]; rfl)).2
    | false => rfl

theorem IsKindOf.unique {k k' : Kind} (h : IsKindOf run plus k) (h' : IsKindOf run plus k') :
    k = k' := by
  cases h with
  | operator op hop =>
    cases h' with
    | operator op' hop' =>
      have := Operator.ofWord?_eq_some_iff.2 hop
      rw [Operator.ofWord?_eq_some_iff.2 hop'] at this
      rw [Option.some.inj this]
    | id hne => exact absurd hop (hne rfl op)
  | id hne =>
    cases h' with
    | operator op hop => exact absurd hop (hne rfl op)
    | id => rfl

theorem IsKindOf.toList_text {k : Kind} (h : IsKindOf run plus k) :
    k.text.toList = run.toList ++ if plus then ['+'] else [] := by
  cases h with
  | operator op hop => simp [Kind.text, hop]
  | id => cases plus <;> simp [Kind.text]

/-- What a character of the text is to a lexeme that covers it. -/
inductive Inside (cs before : List Char) (c : Char) : Token → Prop
  | opening : c = '(' → Inside cs before c ⟨.opening, byteSize before⟩
  | closing : c = ')' → Inside cs before c ⟨.closing, byteSize before⟩
  /-- A character of the run of a word. -/
  | run {start q run plus rest kind} : WordAt cs start run plus rest → IsKindOf run plus kind →
      before = start ++ q → q ++ [c] <+: run.toList → Inside cs before c ⟨kind, byteSize start⟩
  /-- The `+` of a word. -/
  | suffix {start run plus rest kind} : WordAt cs start run plus rest → IsKindOf run plus kind →
      before = start ++ run.toList → c = '+' → Inside cs before c ⟨kind, byteSize start⟩

theorem Lexeme.inside (h : Lexeme cs t) (hc : before ++ [c] <+: cs)
    (hcovers : t.Covers (byteSize before)) : Inside cs before c t := by
  obtain ⟨hle, hlt⟩ := hcovers
  -- a parenthesis is a lexeme of one character
  have single : ∀ {b rest : List Char} {a : Char}, cs = b ++ a :: rest →
      byteSize b ≤ byteSize before → byteSize before < byteSize b + byteSize [a] →
      before = b ∧ c = a := by
    intro b rest a hsplit hle hlt
    rw [List.append_cons] at hsplit
    obtain ⟨q, rfl, hq⟩ := exists_of_byteSize hsplit hc hle hlt
    obtain ⟨rfl, rfl⟩ := concat_prefix_singleton_iff.1 hq
    exact ⟨List.append_nil b, rfl⟩
  cases h with
  | opening hsplit =>
    obtain ⟨rfl, rfl⟩ := single hsplit hle hlt
    exact .opening rfl
  | closing hsplit =>
    obtain ⟨rfl, rfl⟩ := single hsplit hle hlt
    exact .closing rfl
  | @word start run plus rest kind hword hkind =>
    rw [utf8ByteSize_eq_total, text, hkind.toList_text] at hlt
    obtain ⟨q, rfl, hq⟩ := exists_of_byteSize hword.split hc hle hlt
    rcases concat_prefix_append_iff.1 hq with hq | ⟨q', rfl, hq'⟩
    · exact .run hword hkind rfl hq
    · cases plus with
      | false => exact absurd hq' not_concat_prefix_nil
      | true =>
        obtain ⟨rfl, hplus⟩ := concat_prefix_singleton_iff.1 hq'
        rw [List.append_nil]
        exact .suffix hword hkind rfl hplus

/-- No stray character is in a lexeme. -/
theorem Inside.not_stray (h : Inside cs before c t) : ¬ Stray before c := by
  intro hstray
  cases h with
  | opening hc => exact hstray.notParenthesis.1 hc
  | closing hc => exact hstray.notParenthesis.2 hc
  | run hword _ _ hq =>
    have hid := hword.word.2 c (hq.subset (by simp))
    rw [hstray.notId] at hid
    cases hid
  | suffix hword _ hsplit hplus =>
    obtain ⟨e, he, hid⟩ := exists_getLast?_word hword.word
    have hlast : e ∈ before.getLast? := by
      rw [hsplit, List.getLast?_append, Option.mem_def.1 he]
      rfl
    rw [hstray.notSuffix hplus e hlast] at hid
    cases hid

/-- A character that is in no word is a parenthesis. -/
theorem Inside.parenthesis (h : Inside cs before c t) (hid : isIdChar c = false) (hplus : c ≠ '+') :
    c = '(' ∧ t = ⟨.opening, byteSize before⟩ ∨ c = ')' ∧ t = ⟨.closing, byteSize before⟩ := by
  cases h with
  | opening hc => exact Or.inl ⟨hc, rfl⟩
  | closing hc => exact Or.inr ⟨hc, rfl⟩
  | run hword _ _ hq =>
    rw [hword.word.2 c (hq.subset (by simp))] at hid
    cases hid
  | suffix _ _ _ hc => exact absurd hc hplus

/-- **No word starts inside the run of another one**, which would go on before
    it. -/
theorem WordAt.eq_nil_of_inside {start q : List Char} {a : Char}
    (h : WordAt cs before run plus rest) (h' : WordAt cs start run' plus' rest')
    (hsplit : before = start ++ q) (hq : q ++ [a] <+: run'.toList) : q = [] := by
  rcases List.eq_nil_or_concat q with hnil | ⟨q', d, rfl⟩
  · exact hnil
  · rw [List.concat_eq_append] at hsplit hq
    have hlast : d ∈ before.getLast? := by
      rw [hsplit, ← List.append_assoc, List.getLast?_concat]
      rfl
    have hid := h'.word.2 d (hq.subset (by simp))
    rw [h.starts d hlast] at hid
    cases hid

/-- **Lexemes that overlap are the same.** -/
theorem Lexeme.eq_of_covers (ht : Lexeme cs t) (hu : Lexeme cs u) (h : u.Covers t.offset) :
    t = u := by
  cases ht with
  | @opening before rest hsplit =>
    have hc : before ++ ['('] <+: cs := ⟨rest, by rw [hsplit, ← List.append_cons]⟩
    rcases (hu.inside hc h).parenthesis (by decide) (by decide) with ⟨-, hu⟩ | ⟨hc, -⟩
    · exact hu.symm
    · exact absurd hc (by decide)
  | @closing before rest hsplit =>
    have hc : before ++ [')'] <+: cs := ⟨rest, by rw [hsplit, ← List.append_cons]⟩
    rcases (hu.inside hc h).parenthesis (by decide) (by decide) with ⟨hc, -⟩ | ⟨-, hu⟩
    · exact absurd hc (by decide)
    · exact hu.symm
  | @word before run plus rest kind hword hkind =>
    obtain ⟨a, hc, hid⟩ := hword.exists_first
    cases hu.inside hc h with
    | opening hc | closing hc | suffix _ _ _ hc => exact absurd hid (by rw [hc]; decide)
    | @run start q run' plus' rest' kind' hword' hkind' hsplit hq =>
      obtain rfl := hword.eq_nil_of_inside hword' hsplit hq
      rw [List.append_nil] at hsplit
      subst hsplit
      obtain ⟨rfl, rfl⟩ := hword.unique hword'
      rw [hkind.unique hkind']

/-- A lexeme starts with a character that is no blank. -/
theorem Lexeme.exists_char (h : Lexeme cs t) :
    ∃ before c, before ++ [c] <+: cs ∧ isBlank c = false ∧ t.offset = byteSize before := by
  cases h with
  | @opening before rest hsplit =>
    exact ⟨before, '(', ⟨rest, by rw [hsplit, ← List.append_cons]⟩, by decide, rfl⟩
  | @closing before rest hsplit =>
    exact ⟨before, ')', ⟨rest, by rw [hsplit, ← List.append_cons]⟩, by decide, rfl⟩
  | @word before run plus rest kind hword =>
    obtain ⟨a, hc, hid⟩ := hword.exists_first
    refine ⟨before, a, hc, Bool.eq_false_iff.2 fun hblank => ?_, rfl⟩
    rw [isIdChar_of_isBlank hblank] at hid
    cases hid

end

namespace Tiling
variable {text : String} {ts us : List Token} {before : List Char} {c : Char}

theorem not_stray (h : Tiling text ts) (hc : before ++ [c] <+: text.toList) : ¬ Stray before c := by
  intro hstray
  obtain ⟨t, ht, hcovers⟩ := h.covers before c hc hstray.notBlank
  exact ((h.lexemes t ht).inside hc hcovers).not_stray hstray

theorem subset (ht : Tiling text ts) (hu : Tiling text us) : ts ⊆ us := by
  intro t hmem
  have hlex := ht.lexemes t hmem
  obtain ⟨before, c, hc, hblank, hoffset⟩ := hlex.exists_char
  obtain ⟨u, humem, hcovers⟩ := hu.covers before c hc hblank
  rw [← hoffset] at hcovers
  rwa [hlex.eq_of_covers (hu.lexemes u humem) hcovers]

/-- **A text has at most one tiling.** -/
theorem unique (ht : Tiling text ts) (hu : Tiling text us) : ts = us :=
  ht.ascending.eq_of_mem_iff hu.ascending fun _ =>
    ⟨fun h => ht.subset hu h, fun h => hu.subset ht h⟩

end Tiling

/-- **Tokens are an exact tiling of the text.**  Scanning fails if and only if
    some character is stray, and then it reports the first one at its byte
    offset.  Otherwise the tokens are the one list of lexemes that stand in the
    text one behind the other and leave only blanks. -/
theorem tokenize_tiling (text : String) :
    ((∃ err, tokenize text = .error err) ↔
      ∃ before c, before ++ [c] <+: text.toList ∧ Stray before c) ∧
    (∀ err, tokenize text = .error err → ∃ before c, FirstStray text.toList before c ∧
      err = ⟨.malformedToken, byteSize before, c.toString⟩) ∧
    ∀ ts, tokenize text = .ok ts ↔ Tiling text ts := by
  have hfirst : ∀ err, tokenize text = .error err → ∃ before c, FirstStray text.toList before c ∧
      err = ⟨.malformedToken, byteSize before, c.toString⟩ := by
    intro err herr
    obtain ⟨before, c, hstray, hat⟩ := (tokenize_eq_error_iff.1 herr).firstStray
    rw [Nat.zero_add] at hat
    exact ⟨before, c, hstray, hat⟩
  refine ⟨⟨?_, ?_⟩, hfirst, fun ts => ⟨tiling_of_tokenize, fun htiling => ?_⟩⟩
  · rintro ⟨err, herr⟩
    obtain ⟨before, c, hstray, -⟩ := hfirst err herr
    exact ⟨before, c, hstray.stands, hstray.stray⟩
  · rintro ⟨before, c, hc, hstray⟩
    cases h : tokenize text with
    | error err => exact ⟨err, rfl⟩
    | ok ts => exact absurd hstray ((tiling_of_tokenize h).not_stray hc)
  · cases h : tokenize text with
    | error err =>
      obtain ⟨before, c, hstray, -⟩ := hfirst err h
      exact absurd hstray.stray (htiling.not_stray hstray.stands)
    | ok us => rw [htiling.unique (tiling_of_tokenize h)]

/-- A word with a suffix is no operator, and the next word starts behind it. -/
example : tokenize "A+B (AND+" = .ok [⟨.id "A" true, 0⟩, ⟨.id "B" false, 2⟩, ⟨.opening, 4⟩,
    ⟨.id "AND" true, 5⟩] := by
  decide +kernel

end Token

end LicenseExpr
