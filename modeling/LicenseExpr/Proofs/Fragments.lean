/-
  Where the fragments of errors stand.

  * `Stands o cs offset fragment`: the fragment stands at the byte `offset` in
    the characters `cs`, which start `o` bytes into a text; the text of every
    token does (`Scans.stands`), and so does the character at which scanning
    fails (`Breaks.stands`);
  * `FragmentAt text offset fragment` says it of a text and its bytes;
  * `SyntaxError.Site` says what an error can be about;
  * `error_fragment`: whatever the error, its fragment is what the text has at
    its offset: a character, a blank text, nothing at the end, or a token.
-/
import LicenseExpr.Proofs.ByteOrder
import LicenseExpr.Proofs.Refusals

namespace LicenseExpr

/-! ## Fragments of characters -/

namespace Token

/-- The fragment stands at the byte `offset`, if the characters start at the
    byte `o`. -/
def Stands (o : Nat) (cs : List Char) (offset : Nat) (fragment : String) : Prop :=
  ∃ before after, cs = before ++ fragment.toList ++ after ∧
    offset = o + total Char.utf8Size before

section
variable {o offset : Nat} {cs : List Char} {ts : List Token} {err : SyntaxError}
  {fragment : String}

theorem Stands.here (o : Nat) (fragment : String) (cs : List Char) :
    Stands o (fragment.toList ++ cs) o fragment :=
  ⟨[], cs, rfl, rfl⟩

theorem Stands.behind {l : List Char} {n : Nat} (h : Stands (o + n) cs offset fragment)
    (hn : total Char.utf8Size l = n) : Stands o (l ++ cs) offset fragment := by
  obtain ⟨before, after, rfl, rfl⟩ := h
  exact ⟨l ++ before, after, by simp only [List.append_assoc], by rw [total_append, hn]; omega⟩

/-- **The text of a token** stands at its offset. -/
theorem Scans.stands (h : Scans o cs ts) : ∀ t ∈ ts, Stands o cs t.offset t.text := by
  induction h with
  | nil => exact List.forall_mem_nil _
  | @blank o c cs ts _ _ ih =>
    intro t ht
    exact (ih t ht).behind (l := [c]) rfl
  | @opening o cs ts _ ih =>
    refine List.forall_mem_cons.2 ⟨.here o "(" cs, fun t ht => ?_⟩
    exact (ih t ht).behind (l := ['(']) rfl
  | @closing o cs ts _ ih =>
    refine List.forall_mem_cons.2 ⟨.here o ")" cs, fun t ht => ?_⟩
    exact (ih t ht).behind (l := [')']) rfl
  | @word o w plus cs ts _ _ _ ih =>
    refine List.forall_mem_cons.2 ⟨.here o _ cs, fun t ht => ?_⟩
    exact (ih t ht).behind (utf8ByteSize_eq_total _).symm

/-- **The character at which scanning fails** stands at the offset of the error. -/
theorem Breaks.stands (h : Breaks o cs err) : Stands o cs err.offset err.fragment := by
  induction h with
  | @malformed o c cs =>
    rw [← List.singleton_append, ← String.toList_singleton]
    exact .here o c.toString cs
  | @blank o c => exact Stands.behind (l := [c]) ‹_› rfl
  | opening _ ih => exact ih.behind (l := ['(']) rfl
  | closing _ ih => exact ih.behind (l := [')']) rfl
  | word _ _ _ ih => exact ih.behind (utf8ByteSize_eq_total _).symm

theorem Breaks.malformedToken (h : Breaks o cs err) :
    err.cause = .malformedToken ∧ ∃ c : Char, err.fragment = c.toString := by
  induction h with
  | @malformed o c => exact ⟨rfl, c, rfl⟩
  | blank _ _ ih | opening _ ih | closing _ ih | word _ _ _ ih => exact ih

/-- Characters without tokens are blank. -/
theorem Scans.forall_isBlank (h : Scans o cs []) : ∀ c ∈ cs, isBlank c = true := by
  generalize hts : ([] : List Token) = ts at h
  induction h with
  | nil => exact List.forall_mem_nil _
  | blank hc _ ih => exact List.forall_mem_cons.2 ⟨hc, ih hts⟩
  | opening | closing | word => cases hts

end

end Token

/-! ## Fragments of texts -/

/-- The fragment is what the text has at the byte `offset`: it begins and ends
    between characters, and these are the bytes there. -/
structure FragmentAt (text : String) (offset : Nat) (fragment : String) : Prop where
  start : String.Pos.Raw.IsValid text ⟨offset⟩
  stop : String.Pos.Raw.IsValid text ⟨offset + fragment.utf8ByteSize⟩
  content : ((bytes text).drop offset).take fragment.utf8ByteSize = bytes fragment

theorem bytes_append (s t : String) : bytes (s ++ t) = bytes s ++ bytes t := by
  simp [bytes]

theorem length_bytes (s : String) : (bytes s).length = s.utf8ByteSize := by
  simp [bytes]

theorem fragmentAt_append (before fragment after : String) :
    FragmentAt (before ++ fragment ++ after) before.utf8ByteSize fragment where
  start := String.Pos.Raw.isValid_iff_exists_append.2
    ⟨before, fragment ++ after, String.append_assoc, rfl⟩
  stop := String.Pos.Raw.isValid_iff_exists_append.2
    ⟨before ++ fragment, after, rfl, by rw [String.rawEndPos, String.utf8ByteSize_append]⟩
  content := by
    rw [bytes_append, bytes_append, List.append_assoc, ← length_bytes before, List.drop_left,
      ← length_bytes fragment, List.take_left]

theorem Token.Stands.fragmentAt {text fragment : String} {offset : Nat}
    (h : Token.Stands 0 text.toList offset fragment) : FragmentAt text offset fragment := by
  obtain ⟨before, after, htext, rfl⟩ := h
  have htext : text = String.ofList before ++ fragment ++ String.ofList after := by
    apply String.toList_inj.1
    rw [htext]
    simp
  have hsize : 0 + total Char.utf8Size before = (String.ofList before).utf8ByteSize := by
    rw [utf8ByteSize_eq_total, String.toList_ofList, Nat.zero_add]
  rw [htext, hsize]
  exact fragmentAt_append _ _ _

/-- What an error of a text is about. -/
inductive SyntaxError.Site (text : String) (err : SyntaxError) : Prop
  /-- A character that is in no token. -/
  | character (c : Char) : err.cause = .malformedToken → err.fragment = c.toString → Site text err
  /-- A text of blanks. -/
  | blank : err.cause = .emptyExpression → err.offset = 0 → err.fragment = text →
      (∀ c ∈ text.toList, isBlank c = true) → Site text err
  /-- The end, where an operand or an exception is missing. -/
  | atEnd : err.cause = .unexpectedEnd ∨ err.cause = .expectedException →
      err.AtEnd text.utf8ByteSize → Site text err
  /-- A token. -/
  | token {ts : List Token} {t : Token} : err.cause ≠ .malformedToken →
      err.cause ≠ .emptyExpression → Token.tokenize text = .ok ts → t ∈ ts → err.At t →
        Site text err

section
open LicenseExpr.Parser
variable {text : String} {ts : List Token} {err : SyntaxError}

theorem fragmentAt_end (text : String) : FragmentAt text text.utf8ByteSize "" := by
  have h := fragmentAt_append text "" ""
  rwa [String.append_empty, String.append_empty] at h

theorem fragmentAt_whole (text : String) : FragmentAt text 0 text := by
  have h := fragmentAt_append "" text ""
  rwa [String.append_empty, String.empty_append] at h

theorem malformed_of_tokenize (h : Token.tokenize text = .error err) :
    FragmentAt text err.offset err.fragment ∧ err.Site text := by
  have hb := Token.tokenize_eq_error_iff.1 h
  obtain ⟨hcause, c, hc⟩ := hb.malformedToken
  exact ⟨hb.stands.fragmentAt, .character c hcause hc⟩

theorem site_of_refused {e : Machine.Refusal} (ht : Token.tokenize text = .ok ts)
    (hm : machine.read (Token.kinds ts) = .error e)
    (he : err = errorAt text.utf8ByteSize e.cause (ts.drop e.place)) :
    FragmentAt text err.offset err.fragment ∧ err.Site text := by
  obtain ⟨⟨hmalformed, hempty⟩, hend⟩ := Machine.cause_of_read_error hm
  have hcause : err.cause = e.cause := by rw [he, cause_errorAt]
  rw [← hcause] at hmalformed hempty hend
  rcases errorAt_drop text.utf8ByteSize e.cause ts e.place with ⟨t, hget, hat⟩ | ⟨hplace, hat⟩
  · rw [← he] at hat
    have hmem : t ∈ ts := List.mem_of_getElem? hget
    refine ⟨?_, .token hmalformed hempty ht hmem hat⟩
    rw [hat.1, hat.2]
    exact ((Token.tokenize_eq_ok_iff.1 ht).stands t hmem).fragmentAt
  · rw [← he] at hat
    refine ⟨?_, .atEnd (hend (by rwa [Token.length_kinds])) hat⟩
    rw [hat.1, hat.2]
    exact fragmentAt_end text

/-- **The fragment of an error is what the text has at its offset**: one
    character that is in no token, the whole of a blank text, nothing at the
    end of the text, or a token. -/
theorem error_fragment (h : parse text = .error err ∨ Token.tokenize text = .error err) :
    FragmentAt text err.offset err.fragment ∧ err.Site text := by
  cases ht : Token.tokenize text with
  | error e =>
    have he : e = err := by
      rcases h with h | h
      · simpa [parse, read, ht] using h
      · rw [ht] at h
        exact Except.error.inj h
    exact he ▸ malformed_of_tokenize ht
  | ok ts =>
    have h : parse text = .error err := h.resolve_right (by simp [ht])
    by_cases hne : ts = []
    · subst hne
      have he : (⟨.emptyExpression, 0, text⟩ : SyntaxError) = err := by
        simpa [parse, read, ht] using h
      subst he
      have hblank := (Token.tokenize_eq_ok_iff.1 ht).forall_isBlank
      exact ⟨fragmentAt_whole text, .blank rfl rfl rfl hblank⟩
    · obtain ⟨e, hm, he⟩ := (parse_eq_error ht hne).1 h
      exact site_of_refused ht hm he

end

/-- A wide blank stands before each fragment: a character of two bytes, a
    token with its `+`, and the end of the text. -/
theorem error_fragment_wide :
    (Token.tokenize "MIT\u3000AND é" = .error ⟨.malformedToken, 10, "é"⟩ ∧
      FragmentAt "MIT\u3000AND é" 10 "é" ∧
        SyntaxError.Site "MIT\u3000AND é" ⟨.malformedToken, 10, "é"⟩) ∧
    (parse "(MIT\u3000ISC+)" = .error ⟨.unexpectedToken, 7, "ISC+"⟩ ∧
      FragmentAt "(MIT\u3000ISC+)" 7 "ISC+" ∧
        SyntaxError.Site "(MIT\u3000ISC+)" ⟨.unexpectedToken, 7, "ISC+"⟩) ∧
    parse "MIT\u3000AND" = .error ⟨.unexpectedEnd, 9, ""⟩ ∧
      FragmentAt "MIT\u3000AND" 9 "" ∧
        SyntaxError.Site "MIT\u3000AND" ⟨.unexpectedEnd, 9, ""⟩ := by
  have hcharacter : Token.tokenize "MIT\u3000AND é" = .error ⟨.malformedToken, 10, "é"⟩ := by
    decide +kernel
  have hword : Token.tokenize "(MIT\u3000ISC+)" =
      .ok [⟨.opening, 0⟩, ⟨.id "MIT" false, 1⟩, ⟨.id "ISC" true, 7⟩, ⟨.closing, 11⟩] := by
    decide +kernel
  have hend : Token.tokenize "MIT\u3000AND" =
      .ok [⟨.id "MIT" false, 0⟩, ⟨.operator .and, 6⟩] := by
    decide +kernel
  have htoken : parse "(MIT\u3000ISC+)" = .error ⟨.unexpectedToken, 7, "ISC+"⟩ :=
    parse_of_error hword (List.cons_ne_nil _ _) (e := ⟨.unexpectedToken, 2⟩) rfl
  have hmissing : parse "MIT\u3000AND" = .error ⟨.unexpectedEnd, 9, ""⟩ :=
    parse_of_error hend (List.cons_ne_nil _ _) (e := ⟨.unexpectedEnd, 2⟩) rfl
  exact ⟨⟨hcharacter, error_fragment (Or.inr hcharacter)⟩,
    ⟨htoken, error_fragment (Or.inl htoken)⟩, hmissing, error_fragment (Or.inl hmissing)⟩

end LicenseExpr
