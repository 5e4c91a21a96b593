/-
  How tokens are spelled.

  * `Scans o cs ts`: the characters `cs`, which start `o` bytes into a text,
    are blanks and the tokens `ts`; a word without `+` reaches as far as
    identifier characters go;
  * `Breaks o cs err`: they are so up to a character that is in no token,
    which `err` is about;
  * `scan_eq_ok_iff`, `scan_eq_error_iff`: this is what `Token.scan` computes,
    and how it fails;
  * the tokens of a text are lexical (`Scans.lexical`), stand one behind the
    other (`Scans.offsets`), and open as many parentheses as the text does, at
    once (`Scans.depth`) and in all (`Scans.count_opening`);
  * `Spells cs ks`: wherever they stand, the characters `cs` have tokens of
    the kinds `ks`.
-/
import LicenseExpr.Proofs.Grammar
import LicenseExpr.Token.Lexer

namespace LicenseExpr

/-! ## Words -/

/-- A non-empty text of identifier characters. -/
def IsWord (w : String) : Prop :=
  w.toList ≠ [] ∧ ∀ c ∈ w.toList, isIdChar c = true

instance (w : String) : Decidable (IsWord w) :=
  decidable_of_iff (w.toList ≠ [] ∧ w.toList.all isIdChar = true)
    (and_congr_right fun _ => List.all_eq_true)

/-- A word that is not taken for an operator. -/
def IsName (w : String) : Prop :=
  IsWord w ∧ ∀ op : Operator, w ≠ op.word

/-- A license id as it may be written: with a `+` behind it, even the word of
    an operator is an id. -/
def IsLicenseName (w : String) (plus : Bool) : Prop :=
  IsWord w ∧ (plus = false → ∀ op : Operator, w ≠ op.word)

/-- A name may be written as a license id, with a `+` or without. -/
theorem IsName.isLicenseName {w : String} (h : IsName w) (plus : Bool) : IsLicenseName w plus :=
  ⟨h.1, fun _ => h.2⟩

/-- No blank stands in a word. -/
theorem IsWord.not_blank {w : String} (h : IsWord w) : ∀ c ∈ w.toList, c ≠ ' ' := by
  rintro c hc rfl
  exact absurd (h.2 _ hc) (by decide)

/-- No parenthesis stands in a word. -/
theorem IsWord.not_parenthesis {w : String} (h : IsWord w) :
    ∀ c ∈ w.toList, c ≠ '(' ∧ c ≠ ')' := by
  intro c hc
  have hid : isIdChar c = true := h.2 c hc
  constructor <;> rintro rfl <;> exact absurd hid (by decide)

theorem isWord_operator (op : Operator) : IsWord op.word := by
  cases op <;> decide

theorem isIdChar_toNat {c : Char} (h : isIdChar c = true) :
    c.toNat = 45 ∨ c.toNat = 46 ∨ (48 ≤ c.toNat ∧ c.toNat ≤ 57) ∨
      (65 ≤ c.toNat ∧ c.toNat ≤ 90) ∨ (97 ≤ c.toNat ∧ c.toNat ≤ 122) := by
  have hc : ((((decide ('A'.val ≤ c.val ∧ c.val ≤ 'Z'.val) ||
    (decide ('a'.val ≤ c.val) && decide (c.val ≤ 'z'.val))) ||
      (decide ('0'.val ≤ c.val) && decide (c.val ≤ '9'.val))) || c == '.') || c == '-') = true := h
  simp only [Bool.or_eq_true, Bool.and_eq_true, decide_eq_true_eq, beq_iff_eq,
    UInt32.le_iff_toNat_le] at hc
  rcases hc with ((((⟨h₁, h₂⟩ | ⟨h₁, h₂⟩) | ⟨h₁, h₂⟩) | rfl) | rfl)
  · exact Or.inr (Or.inr (Or.inr (Or.inl ⟨h₁, h₂⟩)))
  · exact Or.inr (Or.inr (Or.inr (Or.inr ⟨h₁, h₂⟩)))
  · exact Or.inr (Or.inr (Or.inl ⟨h₁, h₂⟩))
  · exact Or.inr (Or.inl rfl)
  · exact Or.inl rfl

/-- Blanks are no identifier characters. -/
theorem isIdChar_of_isBlank {c : Char} (h : isBlank c = true) : isIdChar c = false := by
  refine Bool.eq_false_iff.2 fun hc => ?_
  have := isIdChar_toNat hc
  simp only [isBlank, blankRanges, List.any_cons, List.any_nil, Bool.or_false, Bool.or_eq_true,
    Bool.and_eq_true, decide_eq_true_eq] at h
  omega

theorem not_parenthesis_of_isBlank {c : Char} (h : isBlank c = true) : c ≠ '(' ∧ c ≠ ')' := by
  constructor <;> rintro rfl <;> exact absurd h (by decide)

namespace Token

/-- The characters do not go on with a word that ends before them. -/
def Ends (cs : List Char) : Prop :=
  ∀ c ∈ cs.head?, isIdChar c = false ∧ c ≠ '+'

/-- The characters, from the byte `o` on, are blanks and these tokens. -/
inductive Scans : Nat → List Char → List Token → Prop
  | nil {o} : Scans o [] []
  | blank {o c cs ts} : isBlank c = true → Scans (o + c.utf8Size) cs ts → Scans o (c :: cs) ts
  | opening {o cs ts} : Scans (o + 1) cs ts → Scans o ('(' :: cs) (⟨.opening, o⟩ :: ts)
  | closing {o cs ts} : Scans (o + 1) cs ts → Scans o (')' :: cs) (⟨.closing, o⟩ :: ts)
  | word {o w plus cs ts} : IsWord w → (plus = false → Ends cs) →
      Scans (o + (Kind.ofWord w plus).text.utf8ByteSize) cs ts →
      Scans o ((Kind.ofWord w plus).text.toList ++ cs) (⟨.ofWord w plus, o⟩ :: ts)

/-- The characters, from the byte `o` on, are blanks and tokens up to a
    character that is in no token. -/
inductive Breaks : Nat → List Char → SyntaxError → Prop
  | malformed {o c cs} : isIdChar c = false → c ≠ '(' → c ≠ ')' → isBlank c = false →
      Breaks o (c :: cs) ⟨.malformedToken, o, c.toString⟩
  | blank {o c cs err} : isBlank c = true → Breaks (o + c.utf8Size) cs err →
      Breaks o (c :: cs) err
  | opening {o cs err} : Breaks (o + 1) cs err → Breaks o ('(' :: cs) err
  | closing {o cs err} : Breaks (o + 1) cs err → Breaks o (')' :: cs) err
  | word {o w plus cs err} : IsWord w → (plus = false → Ends cs) →
      Breaks (o + (Kind.ofWord w plus).text.utf8ByteSize) cs err →
      Breaks o ((Kind.ofWord w plus).text.toList ++ cs) err

/-! ## Scanning -/

theorem scan_seen_one (o : Nat) (cs : List Char) (t : Token) :
    scan o cs [t] = (scan o cs []).map (t :: ·) :=
  scan_seen o cs [t]

theorem takeWhile_eq_nil {cs : List Char} (h : ∀ c ∈ cs.head?, isIdChar c = false) :
    cs.takeWhile isIdChar = [] ∧ cs.dropWhile isIdChar = cs := by
  cases cs with
  | nil => exact ⟨rfl, rfl⟩
  | cons c cs => simp [h c rfl]

theorem toList_text_ofWord (w : String) (plus : Bool) :
    (Kind.ofWord w plus).text.toList = w.toList ++ if plus then ['+'] else [] := by
  rw [Kind.text_ofWord]
  cases plus <;> simp

/-- No parenthesis stands in the text of a word. -/
theorem forall_mem_text_ofWord {w : String} (hw : IsWord w) (plus : Bool) :
    ∀ c ∈ (Kind.ofWord w plus).text.toList, c ≠ '(' ∧ c ≠ ')' := by
  intro c hc
  rw [toList_text_ofWord, List.mem_append] at hc
  rcases hc with hc | hc
  · exact hw.not_parenthesis c hc
  · cases plus with
    | true => cases List.mem_singleton.1 hc; decide
    | false => cases hc

/-- A word is cut off where it ends. -/
theorem scan_word {w : String} {plus : Bool} {cs : List Char} (o : Nat) (hw : IsWord w)
    (he : plus = false → Ends cs) :
    scan o ((Kind.ofWord w plus).text.toList ++ cs) [] =
      (scan (o + (Kind.ofWord w plus).text.utf8ByteSize) cs []).map
        (⟨.ofWord w plus, o⟩ :: ·) := by
  obtain ⟨hne, hall⟩ := hw
  obtain ⟨c, w', hcw⟩ : ∃ c w', w.toList = c :: w' := List.exists_cons_of_ne_nil hne
  rw [hcw] at hall
  have hc : isIdChar c = true := hall c List.mem_cons_self
  have hw' : ∀ a ∈ w', isIdChar a = true := fun a ha => hall a (List.mem_cons_of_mem _ ha)
  have hrest : ∀ a ∈ ((if plus then ['+'] else []) ++ cs).head?, isIdChar a = false := by
    cases plus with
    | true => exact fun a ha => by cases ha; decide
    | false => exact fun a ha => (he rfl a ha).1
  have hplus : takePlus ((if plus then ['+'] else []) ++ cs) = (plus, cs) := by
    cases plus with
    | true => rfl
    | false =>
      cases cs with
      | nil => rfl
      | cons a cs =>
        have ha : a ≠ '+' := (he rfl a rfl).2
        simp [takePlus, ha]
  have htake : (w' ++ ((if plus then ['+'] else []) ++ cs)).takeWhile isIdChar = w' := by
    rw [List.takeWhile_append_of_pos hw', (takeWhile_eq_nil hrest).1, List.append_nil]
  have hdrop : (w' ++ ((if plus then ['+'] else []) ++ cs)).dropWhile isIdChar =
      (if plus then ['+'] else []) ++ cs := by
    rw [List.dropWhile_append_of_pos hw', (takeWhile_eq_nil hrest).2]
  have hword : String.ofList (c :: w') = w := by rw [← hcw, String.ofList_toList]
  rw [toList_text_ofWord, hcw, List.append_assoc, List.cons_append, scan, if_pos hc, htake, hdrop,
    hword, hplus]
  exact scan_seen_one _ _ _

/-- A word that starts here, and what is behind it. -/
theorem exists_word {c : Char} (rest : List Char) (hc : isIdChar c = true) :
    ∃ w plus cs, IsWord w ∧ (plus = false → Ends cs) ∧
      c :: rest = (Kind.ofWord w plus).text.toList ++ cs := by
  have hall : ∀ a ∈ c :: rest.takeWhile isIdChar, isIdChar a = true := by
    intro a ha
    rcases List.mem_cons.1 ha with rfl | ha
    · exact hc
    · exact List.all_eq_true.1 List.all_takeWhile a ha
  have hsplit : c :: rest = (c :: rest.takeWhile isIdChar) ++ rest.dropWhile isIdChar := by
    rw [List.cons_append, List.takeWhile_append_dropWhile]
  have hhead : ∀ a ∈ (rest.dropWhile isIdChar).head?, isIdChar a = false := by
    intro a ha
    have := List.head?_dropWhile_not isIdChar rest
    rw [Option.mem_def.1 ha] at this
    exact this
  have hword : IsWord (String.ofList (c :: rest.takeWhile isIdChar)) := by
    rw [IsWord, String.toList_ofList]
    exact ⟨List.cons_ne_nil _ _, hall⟩
  cases hd : rest.dropWhile isIdChar with
  | nil =>
    refine ⟨_, false, [], hword, fun _ a ha => (nomatch ha), ?_⟩
    rw [hsplit, hd, toList_text_ofWord, String.toList_ofList]
    simp
  | cons a cs =>
    by_cases ha : a = '+'
    · refine ⟨_, true, cs, hword, nofun, ?_⟩
      rw [hsplit, hd, toList_text_ofWord, String.toList_ofList, ha]
      simp
    · refine ⟨_, false, a :: cs, hword, fun _ b hb => ?_, ?_⟩
      · cases hb
        exact ⟨hhead a (by rw [hd]; rfl), ha⟩
      · rw [hsplit, hd, toList_text_ofWord, String.toList_ofList]
        simp

theorem scan_opening (o : Nat) (cs : List Char) :
    scan o ('(' :: cs) [] = (scan (o + 1) cs []).map (⟨.opening, o⟩ :: ·) := by
  rw [scan, if_neg (by decide), if_pos rfl, scan_seen_one]

theorem scan_closing (o : Nat) (cs : List Char) :
    scan o (')' :: cs) [] = (scan (o + 1) cs []).map (⟨.closing, o⟩ :: ·) := by
  rw [scan, if_neg (by decide), if_neg (by decide), if_pos rfl, scan_seen_one]

theorem scan_blank {c : Char} (hc : isBlank c = true) (o : Nat) (cs : List Char) :
    scan o (c :: cs) [] = scan (o + c.utf8Size) cs [] := by
  obtain ⟨hopen, hclose⟩ := not_parenthesis_of_isBlank hc
  rw [scan, if_neg (by simp [isIdChar_of_isBlank hc]), if_neg hopen, if_neg hclose, if_pos hc]

theorem Scans.scan_eq {o : Nat} {cs : List Char} {ts : List Token} (h : Scans o cs ts) :
    scan o cs [] = .ok ts := by
  induction h with
  | nil => rw [scan, List.reverse_nil]
  | blank hc _ ih => rw [scan_blank hc, ih]
  | opening _ ih => rw [scan_opening, ih, Except.map]
  | closing _ ih => rw [scan_closing, ih, Except.map]
  | word hw he _ ih => rw [scan_word _ hw he, ih, Except.map]

theorem Breaks.scan_eq {o : Nat} {cs : List Char} {err : SyntaxError} (h : Breaks o cs err) :
    scan o cs [] = .error err := by
  induction h with
  | malformed hid hopen hclose hblank =>
    rw [scan, if_neg (by simp [hid]), if_neg hopen, if_neg hclose, if_neg (by simp [hblank])]
  | blank hc _ ih => rw [scan_blank hc, ih]
  | opening _ ih => rw [scan_opening, ih, Except.map]
  | closing _ ih => rw [scan_closing, ih, Except.map]
  | word hw he _ ih => rw [scan_word _ hw he, ih, Except.map]

/-- **Characters are blanks and tokens**, or they are so up to one that is in
    no token. -/
theorem scans_or_breaks (o : Nat) (cs : List Char) :
    (∃ ts, Scans o cs ts) ∨ ∃ err, Breaks o cs err := by
  -- on the number of characters, as a word takes several at once
  induction hn : cs.length using Nat.strongRecOn generalizing o cs with
  | _ n ih =>
    subst hn
    cases cs with
    | nil => exact Or.inl ⟨[], .nil⟩
    | cons c rest =>
      have hrest : rest.length < (c :: rest).length := Nat.lt_succ_self _
      by_cases hc : isIdChar c = true
      · obtain ⟨w, plus, us, hw, he, hsplit⟩ := exists_word rest hc
        have hus : us.length < (c :: rest).length := by
          have : 0 < w.toList.length := List.length_pos_iff.2 hw.1
          rw [hsplit, toList_text_ofWord, List.length_append, List.length_append]
          omega
        rw [hsplit]
        rcases ih _ hus (o + (Kind.ofWord w plus).text.utf8ByteSize) us rfl with
          ⟨ts, hts⟩ | ⟨err, herr⟩
        · exact Or.inl ⟨_, .word hw he hts⟩
        · exact Or.inr ⟨err, .word hw he herr⟩
      by_cases hopen : c = '('
      · subst hopen
        rcases ih _ hrest (o + 1) rest rfl with ⟨ts, hts⟩ | ⟨err, herr⟩
        · exact Or.inl ⟨_, .opening hts⟩
        · exact Or.inr ⟨err, .opening herr⟩
      by_cases hclose : c = ')'
      · subst hclose
        rcases ih _ hrest (o + 1) rest rfl with ⟨ts, hts⟩ | ⟨err, herr⟩
        · exact Or.inl ⟨_, .closing hts⟩
        · exact Or.inr ⟨err, .closing herr⟩
      by_cases hblank : isBlank c = true
      · rcases ih _ hrest (o + c.utf8Size) rest rfl with ⟨ts, hts⟩ | ⟨err, herr⟩
        · exact Or.inl ⟨ts, .blank hblank hts⟩
        · exact Or.inr ⟨err, .blank hblank herr⟩
      · exact Or.inr ⟨_, .malformed (Bool.eq_false_iff.2 hc) hopen hclose
          (Bool.eq_false_iff.2 hblank)⟩

theorem scans_of_scan {o : Nat} {cs : List Char} {ts : List Token} (h : scan o cs [] = .ok ts) :
    Scans o cs ts := by
  rcases scans_or_breaks o cs with ⟨us, hus⟩ | ⟨err, herr⟩
  · rw [hus.scan_eq] at h
    cases h
    exact hus
  · rw [herr.scan_eq] at h
    cases h

theorem breaks_of_scan {o : Nat} {cs : List Char} {err : SyntaxError}
    (h : scan o cs [] = .error err) : Breaks o cs err := by
  rcases scans_or_breaks o cs with ⟨us, hus⟩ | ⟨err', herr⟩
  · rw [hus.scan_eq] at h
    cases h
  · rw [herr.scan_eq] at h
    cases h
    exact herr

/-- **Scanning finds the tokens** that the characters are made of. -/
theorem scan_eq_ok_iff {o : Nat} {cs : List Char} {ts : List Token} :
    scan o cs [] = .ok ts ↔ Scans o cs ts :=
  ⟨scans_of_scan, Scans.scan_eq⟩

theorem tokenize_eq_ok_iff {text : String} {ts : List Token} :
    tokenize text = .ok ts ↔ Scans 0 text.toList ts :=
  scan_eq_ok_iff

/-- **Scanning fails** at the first character that is in no token. -/
theorem scan_eq_error_iff {o : Nat} {cs : List Char} {err : SyntaxError} :
    scan o cs [] = .error err ↔ Breaks o cs err :=
  ⟨breaks_of_scan, Breaks.scan_eq⟩

theorem tokenize_eq_error_iff {text : String} {err : SyntaxError} :
    tokenize text = .error err ↔ Breaks 0 text.toList err :=
  scan_eq_error_iff

/-! ## What the tokens of a text are like -/

/-- A kind that the token of a text can have. -/
def Kind.Lexical : Kind → Prop
  | id word plus => IsLicenseName word plus
  | operator _ | opening | closing => True

theorem Kind.ofWord_of_isLicenseName {w : String} {plus : Bool} (h : IsLicenseName w plus) :
    Kind.ofWord w plus = .id w plus := by
  cases plus with
  | true => rfl
  | false =>
    have : Operator.ofWord? w = none := by
      refine Option.eq_none_iff_forall_ne_some.2 fun op hop => ?_
      exact h.2 rfl op (Operator.ofWord?_eq_some_iff.1 hop)
    simp [ofWord, this]

theorem Kind.ofWord_word (op : Operator) : Kind.ofWord op.word false = .operator op := by
  simp [ofWord, Operator.ofWord?_eq_some_iff.2 rfl]

theorem Kind.ofWord_ne (w : String) (plus : Bool) :
    Kind.ofWord w plus ≠ .opening ∧ Kind.ofWord w plus ≠ .closing := by
  unfold ofWord
  split
  · exact ⟨nofun, nofun⟩
  · split <;> exact ⟨nofun, nofun⟩

theorem Kind.lexical_ofWord {w : String} (hw : IsWord w) (plus : Bool) :
    (Kind.ofWord w plus).Lexical := by
  cases plus with
  | true => exact ⟨hw, nofun⟩
  | false =>
    rw [ofWord]
    cases h : Operator.ofWord? w with
    | some op => trivial
    | none =>
      refine ⟨hw, fun _ op hop => ?_⟩
      rw [Operator.ofWord?_eq_some_iff.2 hop] at h
      cases h

/-- No token is empty. -/
theorem text_ne_empty {t : Token} (h : t.kind.Lexical) : t.text ≠ "" := by
  rw [text]
  cases hk : t.kind with
  | id word plus =>
    rw [hk] at h
    intro he
    have hnil := congrArg String.toList he
    cases plus with
    | true => simp [Kind.text] at hnil
    | false => exact h.1.1 hnil
  | operator op => cases op <;> decide
  | opening | closing => decide

namespace Scans
variable {o : Nat} {cs : List Char} {ts : List Token}

theorem lexical (h : Scans o cs ts) : ∀ t ∈ ts, t.kind.Lexical := by
  induction h with
  | nil => exact List.forall_mem_nil _
  | blank _ _ ih => exact ih
  | opening _ ih | closing _ ih => exact List.forall_mem_cons.2 ⟨trivial, ih⟩
  | word hw _ _ ih => exact List.forall_mem_cons.2 ⟨Kind.lexical_ofWord hw _, ih⟩

/-- Tokens stand one behind the other. -/
theorem offsets (h : Scans o cs ts) :
    (∀ t ∈ ts, o ≤ t.offset) ∧ ts.Pairwise (·.offset < ·.offset) := by
  -- a token of at least one byte before tokens that stand one behind the other
  have before : ∀ {o n : Nat} {k : Kind} {ts : List Token}, 0 < n →
      (∀ t ∈ ts, o + n ≤ t.offset) ∧ ts.Pairwise (·.offset < ·.offset) →
      (∀ t ∈ (⟨k, o⟩ :: ts : List Token), o ≤ t.offset) ∧
        (⟨k, o⟩ :: ts : List Token).Pairwise (·.offset < ·.offset) := by
    rintro o n k ts hn ⟨hle, hlt⟩
    refine ⟨List.forall_mem_cons.2 ⟨Nat.le_refl o, fun t ht => ?_⟩,
      List.pairwise_cons.2 ⟨fun t ht => ?_, hlt⟩⟩
    · have := hle t ht
      omega
    · have : o + n ≤ t.offset := hle t ht
      show o < t.offset
      omega
  induction h with
  | nil => exact ⟨List.forall_mem_nil _, List.Pairwise.nil⟩
  | blank _ _ ih => exact ⟨fun t ht => by have := ih.1 t ht; omega, ih.2⟩
  | opening _ ih | closing _ ih => exact before Nat.one_pos ih
  | @word o w plus cs ts hw _ _ ih =>
    refine before (Nat.pos_of_ne_zero fun h0 => hw.1 ?_) ih
    have := congrArg String.toList (String.utf8ByteSize_eq_zero_iff.1 h0)
    rw [toList_text_ofWord] at this
    exact (List.append_eq_nil_iff.1 this).1

/-- A text nests as deep as its tokens do. -/
theorem depth (h : Scans o cs ts) : nesting '(' ')' cs = Token.depth (kinds ts) := by
  induction h with
  | nil => rfl
  | @blank o c cs ts hc _ ih =>
    obtain ⟨hopen, hclose⟩ := not_parenthesis_of_isBlank hc
    rw [nesting_other hopen hclose, ih]
  | opening _ ih =>
    show nesting '(' ')' _ = Token.depth (.opening :: kinds _)
    rw [nesting_open, ih]
    exact (nesting_open _).symm
  | closing _ ih =>
    show nesting '(' ')' _ = Token.depth (.closing :: kinds _)
    rw [nesting_close (by decide), ih]
    exact (nesting_close opening_ne_closing _).symm
  | @word o w plus cs ts hw _ _ ih =>
    obtain ⟨hopen, hclose⟩ := Kind.ofWord_ne w plus
    show nesting '(' ')' _ = Token.depth (Kind.ofWord w plus :: kinds ts)
    rw [nesting_others (forall_mem_text_ofWord hw plus), ih]
    exact (nesting_other hopen hclose _).symm

/-- A text opens as many parentheses as its tokens do. -/
theorem count_opening (h : Scans o cs ts) : cs.count '(' = (kinds ts).count Kind.opening := by
  induction h with
  | nil => rfl
  | @blank o c cs ts hc _ ih =>
    rw [List.count_cons_of_ne (not_parenthesis_of_isBlank hc).1, ih]
  | opening _ ih => rw [kinds_cons, List.count_cons_self, List.count_cons_self, ih]
  | closing _ ih =>
    rw [kinds_cons, List.count_cons_of_ne (by decide),
      List.count_cons_of_ne opening_ne_closing.symm, ih]
  | @word o w plus cs ts hw _ _ ih =>
    have hnone : (Kind.ofWord w plus).text.toList.count '(' = 0 :=
      List.count_eq_zero.2 fun hc => (forall_mem_text_ofWord hw plus _ hc).1 rfl
    rw [kinds_cons, List.count_append, hnone, Nat.zero_add, ih,
      List.count_cons_of_ne (Kind.ofWord_ne w plus).1]

end Scans

/-! ## Spelling kinds -/

/-- Wherever they stand, the characters have tokens of these kinds. -/
def Spells (cs : List Char) (ks : List Kind) : Prop :=
  ∀ o, ∃ ts, Scans o cs ts ∧ kinds ts = ks

theorem ends_nil : Ends [] :=
  fun _ => nofun

theorem ends_cons {c : Char} {cs : List Char} (h : isIdChar c = false ∧ c ≠ '+') :
    Ends (c :: cs) := by
  intro a ha
  cases ha
  exact h

theorem Ends.append {cs us : List Char} (hcs : Ends cs) (hus : Ends us) : Ends (cs ++ us) := by
  cases cs with
  | nil => exact hus
  | cons c cs => exact hcs

namespace Spells
variable {cs : List Char} {ks : List Kind}

theorem nil : Spells [] [] :=
  fun _ => ⟨[], .nil, rfl⟩

theorem blank (h : Spells cs ks) : Spells (' ' :: cs) ks := by
  intro o
  obtain ⟨ts, hts, hk⟩ := h (o + ' '.utf8Size)
  exact ⟨ts, .blank (by decide) hts, hk⟩

theorem opening (h : Spells cs ks) : Spells ('(' :: cs) (.opening :: ks) := by
  intro o
  obtain ⟨ts, hts, rfl⟩ := h (o + 1)
  exact ⟨_, .opening hts, rfl⟩

theorem closing (h : Spells cs ks) : Spells (')' :: cs) (.closing :: ks) := by
  intro o
  obtain ⟨ts, hts, rfl⟩ := h (o + 1)
  exact ⟨_, .closing hts, rfl⟩

theorem word {w : String} (plus : Bool) (hw : IsWord w) (he : plus = false → Ends cs)
    (h : Spells cs ks) :
    Spells ((Kind.ofWord w plus).text.toList ++ cs) (.ofWord w plus :: ks) := by
  intro o
  obtain ⟨ts, hts, rfl⟩ := h (o + (Kind.ofWord w plus).text.utf8ByteSize)
  exact ⟨_, .word hw he hts, rfl⟩

/-- An id before something that does not go on with it. -/
theorem id {w : String} {plus : Bool} (hw : IsLicenseName w plus) (he : Ends cs)
    (h : Spells cs ks) : Spells ((Kind.id w plus).text.toList ++ cs) (.id w plus :: ks) := by
  have := word plus hw.1 (fun _ => he) h
  rwa [Kind.ofWord_of_isLicenseName hw] at this

/-- An operator between blanks. -/
theorem operator (op : Operator) (h : Spells cs ks) :
    Spells (' ' :: op.word.toList ++ ' ' :: cs) (.operator op :: ks) := by
  have := word false (isWord_operator op) (fun _ => ends_cons (by decide)) h.blank
  rw [Kind.ofWord_word] at this
  exact this.blank

theorem tokenize_eq {text : String} (h : Spells text.toList ks) :
    ∃ ts, tokenize text = .ok ts ∧ kinds ts = ks := by
  obtain ⟨ts, hts, hk⟩ := h 0
  exact ⟨ts, tokenize_eq_ok_iff.2 hts, hk⟩

theorem depth (h : Spells cs ks) : nesting '(' ')' cs = Token.depth ks := by
  obtain ⟨ts, hts, rfl⟩ := h 0
  exact hts.depth

end Spells

end Token

end LicenseExpr
