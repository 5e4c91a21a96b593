/-
  How reading goes forward, and how deep it goes.

  * `Goes short c k o`: from the cursor `c`, reading has come to the outcome
    `o`, which is a tree at least `k` tokens further on and inside of the same
    groups, or a refusal no further back; it has stalled only if `short` holds;
  * `goes_atom` to `goes_reader` go through the layers of the parser: each of
    them takes at least one token, and stalls only if it may nest too few
    expressions for the groups that can still be opened;
  * `agree_reader`: bounds that are large enough are as good as any others;
  * `Calls.forward`: a call comes no further back than the call that makes it,
    and leaves less work, so no chain of calls is endless;
  * `MadeInside ts n k call`: when the call is made, `k` expressions are being
    read inside of one another, which is one more than groups are open;
  * `reading_progresses`: so every part of a list of tokens is read in finitely
    many steps, and `maxDepth + 1` nested expressions are enough.
-/
import LicenseExpr.Proofs.OpenGroups

namespace LicenseExpr

namespace Parser

open Machine (Joins)

/-! ## Going forward -/

/-- What may come of reading from the cursor `c`, where `short` says that the
    reader may nest too few expressions. -/
inductive Goes (short : Prop) (c : Cursor) (k : Nat) : Outcome → Prop
  | accepted {e after} : after.rest <:+ c.rest → after.rest.length + k ≤ c.rest.length →
      after.depth = c.depth → Goes short c k (.accepted e after)
  | rejected {cause site last} : site <:+ c.rest → last.rest <:+ c.rest →
      Goes short c k (.rejected cause site last)
  | stalled : short → Goes short c k .stalled

section
variable {short : Prop} {c c' : Cursor} {j k d bound : Nat} {op : Operator}
  {inner operand : Reader} {o : Outcome}

/-- A refusal of what comes next. -/
theorem Goes.refused {cause : SyntaxError.Cause} : Goes short c k (.rejected cause c.rest c) :=
  .rejected (List.suffix_refl _) (List.suffix_refl _)

/-- A tree that takes no further token. -/
theorem Goes.stay {e : Expr} : Goes short c 0 (.accepted e c) :=
  .accepted (List.suffix_refl _) (Nat.le_refl _) rfl

/-- Reading that was begun after some tokens. -/
theorem Goes.before (h : Goes short c' k o) (hr : c'.rest <:+ c.rest)
    (hl : c'.rest.length + j ≤ c.rest.length) (hd : c'.depth = c.depth) :
    Goes short c (k + j) o := by
  cases h with
  | accepted hr' hl' hd' =>
    exact .accepted (hr'.trans hr) (by omega) (hd'.trans hd)
  | rejected hs hl' => exact .rejected (hs.trans hr) (hl'.trans hr)
  | stalled hs => exact .stalled hs

/-- An operator is a token. -/
theorem length_tail_of_startsWith {ts : List Token} (h : startsWith op ts = true) :
    ts.tail.length + 1 = ts.length := by
  obtain ⟨t, us, rfl, -⟩ := startsWith_iff.1 h
  rfl

/-! ## The readers of the parser -/

theorem goes_atom (hinner : c.depth < maxDepth → ∀ c', c'.depth = c.depth + 1 →
    Goes short c' 1 (inner c')) : Goes short c 1 (atom inner c) := by
  obtain ⟨rest, depth, log⟩ := c
  cases rest with
  | nil => exact .refused
  | cons t rest =>
    have hrest : rest <:+ t :: rest := List.suffix_cons t rest
    cases hk : t.kind with
    | id word plus =>
      simp only [atom, hk]
      exact .accepted hrest (Nat.le_refl _) rfl
    | operator | closing =>
      simp only [atom, hk]
      exact .refused
    | opening =>
      simp only [atom, hk]
      by_cases hl : maxDepth ≤ depth
      · rw [if_pos hl]
        exact .refused
      · rw [if_neg hl]
        have hin := hinner (Nat.lt_of_not_le hl) ⟨rest, depth + 1, log⟩ rfl
        generalize inner ⟨rest, depth + 1, log⟩ = o at hin
        cases hin with
        | rejected hs hlast => exact .rejected (hs.trans hrest) (hlast.trans hrest)
        | stalled hs => exact .stalled hs
        | @accepted e after hafter hlen hd =>
          obtain ⟨rest', depth', log'⟩ := after
          have hafter : rest' <:+ t :: rest := List.IsSuffix.trans hafter hrest
          have hlen : rest'.length + 1 ≤ rest.length := hlen
          cases rest' with
          | nil => exact .rejected (List.suffix_refl _) hafter
          | cons u beyond =>
            simp only
            by_cases hu : u.kind = .closing
            · rw [if_pos hu]
              -- the group ends as deep as it began, so its `)` leads back to
              -- the depth before its `(`
              have hbeyond : beyond <:+ t :: rest := (List.suffix_cons u beyond).trans hafter
              have hdepth : depth' - 1 = depth := by
                have hd : depth' = depth + 1 := hd
                omega
              refine .accepted hbeyond ?_ hdepth
              simp only [List.length_cons] at *
              omega
            · rw [if_neg hu]
              exact .rejected hafter hafter

theorem goes_exceptionTo (license : Expr) (c : Cursor) :
    Goes short c 1 (exceptionTo license c) := by
  obtain ⟨rest, depth, log⟩ := c
  cases rest with
  | nil => exact .refused
  | cons t rest =>
    have hrest : rest <:+ t :: rest := List.suffix_cons t rest
    cases hk : t.kind with
    | operator | opening | closing =>
      simp only [exceptionTo, hk]
      exact .refused
    | id word plus =>
      cases plus with
      | true =>
        simp only [exceptionTo, hk]
        exact .refused
      | false =>
        simp only [exceptionTo, hk]
        by_cases hw : startsWith .withException rest = true
        · rw [if_pos hw]
          exact .rejected hrest hrest
        · rw [if_neg hw]
          exact .accepted hrest (Nat.le_refl _) rfl

theorem goes_withTerm (hatom : Goes short c 1 (atom inner c)) :
    Goes short c 1 (withTerm inner c) := by
  rw [withTerm]
  generalize atom inner c = o at hatom
  cases hatom with
  | rejected hs hlast => exact .rejected hs hlast
  | stalled hs => exact .stalled hs
  | @accepted e after hr hl hd =>
    simp only
    by_cases hw : startsWith .withException after.rest = true
    · rw [if_pos hw]
      by_cases he : e.isLicense = true
      · rw [if_pos he]
        have htail : after.rest.tail <:+ c.rest := (List.tail_suffix _).trans hr
        have hlen := length_tail_of_startsWith hw
        exact (goes_exceptionTo e _).before (j := 0) htail (by simp only; omega) hd
      · rw [if_neg he]
        exact .rejected hr hr
    · rw [if_neg hw]
      exact .accepted hr hl hd

theorem goes_moreOperands (hoperand : ∀ c, c.depth = d → Goes short c 1 (operand c)) (e : Expr)
    (hd : c.depth = d) : Goes short c 0 (moreOperands operand op bound e c) := by
  induction bound generalizing e c with
  | zero => exact .stay
  | succ bound ih =>
    rw [moreOperands]
    by_cases hop : startsWith op c.rest = true
    · rw [if_pos hop]
      have htail := hoperand { c with rest := c.rest.tail } hd
      generalize operand { c with rest := c.rest.tail } = o at htail
      cases htail with
      | rejected hs hlast =>
        exact .rejected (hs.trans (List.tail_suffix _)) (hlast.trans (List.tail_suffix _))
      | stalled hs => exact .stalled hs
      | @accepted r after hr hl hd' =>
        have hlen := length_tail_of_startsWith hop
        have hl : after.rest.length + 1 ≤ c.rest.tail.length := hl
        exact (ih (e.chain op r) (hd'.trans hd)).before (j := 0) (hr.trans (List.tail_suffix _))
          (by omega) hd'
    · rw [if_neg hop]
      exact .stay

theorem goes_chainOf (hoperand : ∀ c, c.depth = d → Goes short c 1 (operand c))
    (hd : c.depth = d) : Goes short c 1 (chainOf operand op bound c) := by
  have hfirst := hoperand c hd
  rw [chainOf]
  generalize operand c = o at hfirst
  cases hfirst with
  | rejected hs hlast => exact .rejected hs hlast
  | stalled hs => exact .stalled hs
  | accepted hr hl hd' =>
    exact (goes_moreOperands hoperand _ (hd'.trans hd)).before hr hl hd'

theorem goes_layer {n : Nat} (hgroup : d < maxDepth → ∀ c, c.depth = d + 1 →
      Goes short c 1 (expression bound n c)) (l : Layer) (hd : c.depth = d) :
    Goes short c 1 (reader bound n l c) := by
  have hatom : ∀ c, c.depth = d → Goes short c 1 (atom (expression bound n) c) := by
    rintro c rfl
    exact goes_atom hgroup
  have hterm : ∀ c, c.depth = d → Goes short c 1 (withTerm (expression bound n) c) :=
    fun c hc => goes_withTerm (hatom c hc)
  cases l with
  | atom => exact hatom c hd
  | term => exact hterm c hd
  | conjunction => exact goes_chainOf hterm hd
  | disjunction => exact goes_chainOf (fun c hc => goes_chainOf hterm hc) hd

/-- **Every layer goes forward**, wherever it is called, and it stalls only if
    fewer expressions may be nested than groups can still be opened. -/
theorem goes_reader (bound n : Nat) (l : Layer) (c : Cursor) :
    Goes (n + c.depth < maxDepth) c 1 (reader bound n l c) := by
  induction n generalizing l c with
  | zero => exact goes_layer (fun hd _ _ => .stalled (by omega)) l rfl
  | succ n ih =>
    refine goes_layer (fun _ c' hc' => ?_) l rfl
    have hshort : n + c'.depth < maxDepth ↔ n + 1 + c.depth < maxDepth := by omega
    exact propext hshort ▸ ih .disjunction c'

/-- A tree is read from at least one token, and inside of the same groups. -/
theorem reader_accepted {n : Nat} {l : Layer} {e : Expr} {after : Cursor}
    (h : reader bound n l c = .accepted e after) :
    after.rest <:+ c.rest ∧ after.rest.length < c.rest.length ∧ after.depth = c.depth := by
  have hgoes := goes_reader bound n l c
  rw [h] at hgoes
  cases hgoes with
  | accepted hr hl hd => exact ⟨hr, hl, hd⟩

end

/-! ## Bounds -/

/-- Inside of `d` groups, the readers do the same with up to `size` tokens. -/
def Agree (d size : Nat) (r r' : Reader) : Prop :=
  ∀ c, c.depth = d → c.rest.length ≤ size → r c = r' c

section
variable {d size n m bound bound' : Nat} {op : Operator} {inner inner' operand operand' : Reader}

theorem agree_atom (hinner : d < maxDepth → Agree (d + 1) size inner inner') :
    Agree d size (atom inner) (atom inner') := by
  rintro ⟨rest, depth, log⟩ rfl hsize
  cases rest with
  | nil => rfl
  | cons t rest =>
    cases hk : t.kind with
    | id | operator | closing => simp only [atom, hk]
    | opening =>
      simp only [atom, hk]
      by_cases hl : maxDepth ≤ depth
      · rw [if_pos hl, if_pos hl]
      · have hin := hinner (Nat.lt_of_not_le hl) ⟨rest, depth + 1, log⟩ rfl
          (Nat.le_of_succ_le hsize)
        rw [if_neg hl, if_neg hl, hin]

theorem agree_withTerm (hatom : Agree d size (atom inner) (atom inner')) :
    Agree d size (withTerm inner) (withTerm inner') := by
  intro c hd hsize
  rw [withTerm, withTerm, hatom c hd hsize]

/-- A chain takes a token for each operator, so it never comes to a bound that
    is no less than the number of tokens. -/
theorem agree_moreOperands {short : Prop} (hsame : Agree d size operand operand')
    (hgoes : ∀ c, c.depth = d → Goes short c 1 (operand c)) {c : Cursor} (e : Expr)
    (hd : c.depth = d) (hsize : c.rest.length ≤ size) (hb : c.rest.length ≤ bound)
    (hb' : c.rest.length ≤ bound') :
    moreOperands operand op bound e c = moreOperands operand' op bound' e c := by
  -- on the bound of one side: a further operand takes its operator and a token
  -- of its own, so the tokens run out before either bound does
  induction bound generalizing bound' e c with
  | zero =>
    have hnil : c.rest = [] := List.eq_nil_of_length_eq_zero (Nat.le_zero.1 hb)
    cases bound' with
    | zero => rfl
    | succ => simp [moreOperands, hnil, startsWith]
  | succ bound ih =>
    by_cases hop : startsWith op c.rest = true
    · have hlen := length_tail_of_startsWith hop
      obtain ⟨bound', rfl⟩ : ∃ b, bound' = b + 1 := ⟨bound' - 1, by omega⟩
      rw [moreOperands, moreOperands, if_pos hop, if_pos hop]
      have htail := hgoes { c with rest := c.rest.tail } hd
      have hoperand : operand { c with rest := c.rest.tail } =
          operand' { c with rest := c.rest.tail } := hsame _ hd (by simp only; omega)
      rw [← hoperand]
      generalize operand { c with rest := c.rest.tail } = o at htail
      cases htail with
      | rejected | stalled => rfl
      | @accepted r after hr hl hd' =>
        have hl : after.rest.length + 1 ≤ c.rest.tail.length := hl
        exact ih (e.chain op r) (hd'.trans hd) (by omega) (by omega) (by omega)
    · cases bound' with
      | zero => rw [moreOperands, moreOperands, if_neg hop]
      | succ bound' => rw [moreOperands, moreOperands, if_neg hop, if_neg hop]

theorem agree_chainOf {short : Prop} (hsame : Agree d size operand operand')
    (hgoes : ∀ c, c.depth = d → Goes short c 1 (operand c)) (hb : size ≤ bound)
    (hb' : size ≤ bound') : Agree d size (chainOf operand op bound) (chainOf operand' op bound') := by
  intro c hd hsize
  have hfirst := hgoes c hd
  rw [chainOf, chainOf, ← hsame c hd hsize]
  generalize operand c = o at hfirst
  cases hfirst with
  | rejected | stalled => rfl
  | @accepted e after hr hl hd' =>
    exact agree_moreOperands hsame hgoes e (hd'.trans hd) (by omega) (by omega) (by omega)

theorem agree_layer (hb : size ≤ bound) (hb' : size ≤ bound')
    (hgroup : d < maxDepth → Agree (d + 1) size (expression bound n) (expression bound' m))
    (l : Layer) : Agree d size (reader bound n l) (reader bound' m l) := by
  have hatom : Agree d size (atom (expression bound n)) (atom (expression bound' m)) :=
    agree_atom hgroup
  have hterm : Agree d size (withTerm (expression bound n)) (withTerm (expression bound' m)) :=
    agree_withTerm hatom
  have hgoes : ∀ l c, c.depth = d → Goes (n + d < maxDepth) c 1 (reader bound n l c) := by
    rintro l c rfl
    exact goes_reader bound n l c
  have hconj : Agree d size (chainOf (withTerm (expression bound n)) .and bound)
      (chainOf (withTerm (expression bound' m)) .and bound') :=
    agree_chainOf hterm (hgoes .term) hb hb'
  cases l with
  | atom => exact hatom
  | term => exact hterm
  | conjunction => exact hconj
  | disjunction => exact agree_chainOf hconj (hgoes .conjunction) hb hb'

/-- **Bounds that are large enough are as good as any others**: one nested
    expression for every group that can still be opened, and one operand for
    every token. -/
theorem agree_reader (hb : size ≤ bound) (hb' : size ≤ bound') (hn : maxDepth ≤ n + d)
    (hm : maxDepth ≤ m + d) (l : Layer) : Agree d size (reader bound n l) (reader bound' m l) := by
  induction n generalizing m d l with
  | zero => exact agree_layer hb hb' (fun hd => by omega) l
  | succ n ih =>
    refine agree_layer hb hb' (fun hd => ?_) l
    obtain ⟨m, rfl⟩ : ∃ k, m = k + 1 := ⟨m - 1, by omega⟩
    exact ih (by omega) (by omega) .disjunction

end

/-! ## Calls -/

/-- What a call may still lead to in front of the same tokens: the layers that
    it goes down through. -/
def Part.layersBelow : Part → Nat
  | .layer .atom => 0
  | .layer .term => 1
  | .layer .conjunction => 2
  | .layer .disjunction => 3
  | .exception _ => 0
  | .further _ _ _ _ => 0

/-- How much is left to do in a call: tokens, and for each of them all layers. -/
def Call.work (call : Call) : Nat :=
  4 * call.cursor.rest.length + call.part.layersBelow

section
variable {bound : Nat} {call call' : Call}

theorem layersBelow_lt {op : Operator} {sub layer : Layer} (h : Joins op sub layer) :
    (Part.layer sub).layersBelow < (Part.layer layer).layersBelow := by
  cases h <;> decide

theorem layersBelow_le (part : Part) : part.layersBelow ≤ 3 := by
  fun_cases Part.layersBelow part <;> decide

/-- **A call leaves less to do**, and comes no further back, than the call that
    makes it. -/
theorem Calls.forward (h : Calls bound call call') :
    call'.cursor.rest <:+ call.cursor.rest ∧ call'.work < call.work := by
  cases h with
  | @group n c t rest hrest ht hd =>
    refine ⟨hrest ▸ List.suffix_cons t rest, ?_⟩
    simp only [Call.work, Part.layersBelow, hrest, List.length_cons]
    omega
  | atom => exact ⟨List.suffix_refl _, Nat.lt_succ_self _⟩
  | @exception n c e after hr hw he =>
    obtain ⟨hsuf, hlen, -⟩ := reader_accepted hr
    have htail := length_tail_of_startsWith hw
    refine ⟨(List.tail_suffix _).trans hsuf, ?_⟩
    simp only [Call.work, Part.layersBelow]
    omega
  | first hj =>
    refine ⟨List.suffix_refl _, ?_⟩
    have hbelow := layersBelow_lt hj
    simp only [Call.work]
    omega
  | @further op sub layer n c e after hj hr =>
    obtain ⟨hsuf, hlen, -⟩ := reader_accepted hr
    refine ⟨hsuf, ?_⟩
    simp only [Call.work, Part.layersBelow]
    omega
  | @operand op sub fuel e n c hop =>
    have htail := length_tail_of_startsWith hop
    have hbelow := layersBelow_le (.layer sub)
    refine ⟨List.tail_suffix _, ?_⟩
    simp only [Call.work] at *
    have hfurther : (Part.further op sub (fuel + 1) e).layersBelow = 0 := rfl
    omega
  | @again op sub fuel e n c r after hop hr =>
    obtain ⟨hsuf, hlen, -⟩ := reader_accepted hr
    have htail := length_tail_of_startsWith hop
    refine ⟨hsuf.trans (List.tail_suffix _), ?_⟩
    simp only [Call.work, Part.layersBelow] at *
    omega

/-- The operands of a chain are of the layer below it. -/
def Part.Layered : Part → Prop
  | .further op sub _ _ => ∃ layer, Joins op sub layer
  | _ => True

theorem Calls.layered (h : Calls bound call call') (hl : call.part.Layered) :
    call'.part.Layered := by
  cases h with
  | further hj => exact ⟨_, hj⟩
  | again => exact hl
  | group | atom | exception | first | operand => trivial

/-- An expression is read inside of another only behind a parenthesis that
    could still be opened. -/
theorem Calls.depth_of_expression (h : Calls bound call call') (hl : call.part.Layered)
    (hp : call'.part = .layer .disjunction) : call.cursor.depth < maxDepth ∧
      call'.cursor.depth = call.cursor.depth + 1 ∧ call'.nested + 1 = call.nested := by
  cases h with
  | group _ _ hd => exact ⟨hd, rfl, rfl⟩
  | first hj => cases hj <;> cases hp
  | operand =>
    obtain ⟨layer, hj⟩ := hl
    cases hj <;> cases hp
  | atom | exception | further | again => cases hp

theorem Calls.depth_of_other (h : Calls bound call call')
    (hp : call'.part ≠ .layer .disjunction) :
    call'.cursor.depth = call.cursor.depth ∧ call'.nested = call.nested := by
  cases h with
  | group => exact absurd rfl hp
  | exception hr | further _ hr | again _ hr =>
    obtain ⟨-, -, hdepth⟩ := reader_accepted hr
    exact ⟨hdepth, rfl⟩
  | atom | first | operand => exact ⟨rfl, rfl⟩

end

/-! ## Expressions inside of expressions -/

/-- When the tokens are read by readers that may nest `n` expressions inside of
    the whole one, the call is made, and `k` expressions are being read then, all
    but the first inside of another; a call that reads an expression counts
    itself. -/
inductive MadeInside (ts : List Token) (n : Nat) : Nat → Call → Prop
  | start : MadeInside ts n 1 ⟨n, .layer .disjunction, ⟨ts, 0, []⟩⟩
  | expression {k call call'} : MadeInside ts n k call → Calls ts.length call call' →
      call'.part = .layer .disjunction → MadeInside ts n (k + 1) call'
  | other {k call call'} : MadeInside ts n k call → Calls ts.length call call' →
      call'.part ≠ .layer .disjunction → MadeInside ts n k call'

section
variable {ts rest : List Token} {t : Token} {n m k : Nat} {call : Call} {c : Cursor}

/-- A parenthesis is opened where an expression begins. -/
theorem MadeInside.enter (h : MadeInside ts n k ⟨m + 1, .layer .disjunction, c⟩)
    (hrest : c.rest = t :: rest) (ht : t.kind = .opening) (hd : c.depth < maxDepth) :
    MadeInside ts n (k + 1)
      ⟨m, .layer .disjunction, { c with rest := rest, depth := c.depth + 1 }⟩ := by
  have hconjunction : MadeInside ts n k ⟨m + 1, .layer .conjunction, c⟩ := h.other (.first .or) nofun
  have hterm : MadeInside ts n k ⟨m + 1, .layer .term, c⟩ := hconjunction.other (.first .and) nofun
  have hatom : MadeInside ts n k ⟨m + 1, .layer .atom, c⟩ := hterm.other .atom nofun
  exact hatom.expression (.group hrest ht hd) rfl

theorem MadeInside.layered (h : MadeInside ts n k call) : call.part.Layered := by
  induction h with
  | start => trivial
  | expression _ hc _ ih | other _ hc _ ih => exact hc.layered ih

/-- **As many expressions are being read as groups are open, and one more**,
    whatever number of them may be nested. -/
theorem MadeInside.eq_depth (h : MadeInside ts n k call) :
    k = call.cursor.depth + 1 ∧ call.cursor.depth ≤ maxDepth ∧
      call.nested + call.cursor.depth = n := by
  induction h with
  | start => exact ⟨rfl, Nat.zero_le _, rfl⟩
  | expression hmade hc hp ih =>
    obtain ⟨hdepth, hdeeper, hnested⟩ := hc.depth_of_expression hmade.layered hp
    omega
  | other _ hc hp ih =>
    obtain ⟨hdepth, hnested⟩ := hc.depth_of_other hp
    rw [hdepth, hnested]
    exact ih

theorem MadeInside.suffix (h : MadeInside ts n k call) : call.cursor.rest <:+ ts := by
  induction h with
  | start => exact List.suffix_refl _
  | expression _ hc _ ih | other _ hc _ ih => exact hc.forward.1.trans ih

end

/-! ## Whole inputs -/

/-- What may come of reading behind the first `p` tokens of `ts` and inside of
    `d` groups: a tree behind more tokens and inside of the same groups, or a
    refusal, found behind no fewer tokens; there are never more than all. -/
inductive Advances (ts : List Token) (p d : Nat) : Outcome → Prop
  | accepted {e after q} : p < q → q ≤ ts.length → after.rest = ts.drop q → after.depth = d →
      Advances ts p d (.accepted e after)
  | rejected {cause site last q r} : p ≤ q → q ≤ ts.length → site = ts.drop q →
      p ≤ r → r ≤ ts.length → last.rest = ts.drop r → Advances ts p d (.rejected cause site last)

/-- Reading `ts` goes forward, comes to an end, and needs no more than
    `maxDepth + 1` expressions inside of one another. -/
structure Progresses (ts : List Token) : Prop where
  /-- Every layer that may nest enough has an outcome, wherever it is called. -/
  advances : ∀ n l p c, p ≤ ts.length → c.rest = ts.drop p → maxDepth ≤ n + c.depth →
    Advances ts p c.depth (reader ts.length n l c)
  /-- No larger bound, on nesting or on the length of chains, gives another outcome. -/
  unbounded : ∀ n bound l c, c.rest <:+ ts → maxDepth ≤ n + c.depth → ts.length ≤ bound →
    reader bound n l c = reader ts.length maxDepth l c
  /-- No call leads to as much work as it has itself, so no chain of calls is endless. -/
  forward : ∀ call call', Calls ts.length call call' →
    call'.cursor.rest <:+ call.cursor.rest ∧ call'.work < call.work
  /-- However many expressions may be nested, no more than `maxDepth + 1` are. -/
  nests : ∀ n k call, MadeInside ts n k call → call.cursor.rest <:+ ts ∧
    k = call.cursor.depth + 1 ∧ k ≤ maxDepth + 1 ∧ call.nested + k = n + 1
  /-- To nest `maxDepth + 1` expressions is enough, and as good as to nest more. -/
  enough : readTokens (maxDepth + 1) ts ≠ .stalled ∧
    ∀ n, maxDepth + 1 ≤ n → readTokens n ts = readTokens (maxDepth + 1) ts

section
variable {ts us : List Token} {p d : Nat} {c : Cursor} {o : Outcome}

/-- What is unread behind some tokens starts behind no fewer. -/
theorem exists_place (hp : p ≤ ts.length) (h : us <:+ ts.drop p) :
    ∃ q, p ≤ q ∧ q ≤ ts.length ∧ us = ts.drop q ∧ q + us.length = ts.length := by
  have hlen := h.length_le
  rw [List.length_drop] at hlen
  refine ⟨ts.length - us.length, by omega, by omega, ?_, by omega⟩
  have hsuf : us <:+ ts := h.trans (List.drop_suffix p ts)
  exact List.suffix_iff_eq_drop.1 hsuf

theorem Goes.advances {short : Prop} (h : Goes short c 1 o) (hshort : ¬ short)
    (hp : p ≤ ts.length) (hc : c.rest = ts.drop p) : Advances ts p c.depth o := by
  cases h with
  | @accepted e after hr hl hd =>
    obtain ⟨q, hpq, hq, hdrop, hlen⟩ := exists_place hp (hc ▸ hr)
    have hrest : c.rest.length = ts.length - p := by rw [hc, List.length_drop]
    exact .accepted (by omega) hq hdrop hd
  | rejected hs hlast =>
    obtain ⟨q, hpq, hq, hsite, -⟩ := exists_place hp (hc ▸ hs)
    obtain ⟨r, hpr, hr, hdrop, -⟩ := exists_place hp (hc ▸ hlast)
    exact .rejected hpq hq hsite hpr hr hdrop
  | stalled hs => exact absurd hs hshort

/-- **Reading goes forward and comes to an end.**  Every part of the tokens is
    read from at least one of them, within the input; each call leaves less to
    do; and as no more parentheses than `maxDepth` may be open, `maxDepth + 1`
    expressions inside of one another are all that there ever are. -/
theorem reading_progresses (ts : List Token) : Progresses ts where
  advances n l p c hp hc hn :=
    (goes_reader ts.length n l c).advances (Nat.not_lt.2 hn) hp hc
  unbounded n bound l c hc hn hb :=
    agree_reader hb (Nat.le_refl _) hn (Nat.le_add_right _ _) l c rfl hc.length_le
  forward _ _ h := h.forward
  nests n k call h := by
    obtain ⟨hk, hdepth, hnested⟩ := h.eq_depth
    exact ⟨h.suffix, hk, by omega, by omega⟩
  enough := by
    constructor
    · intro hstalled
      have hkept := kept_readTokens ts
      rw [hstalled] at hkept
      cases hkept
    · intro n hn
      obtain ⟨m, rfl⟩ := Nat.exists_eq_add_of_le hn
      rw [readTokens_eq m, ← readTokens_eq 0]

/-- A group in a group nests three expressions, and readers for two stall. -/
theorem reading_progresses_groups :
    ∃ ts, Token.kinds ts = [.opening, .opening, .id "A" false, .closing, .closing] ∧
      Progresses ts ∧ (∃ call, MadeInside ts maxDepth 3 call) ∧ readTokens 2 ts = .stalled := by
  have hinner : MadeInside [⟨.opening, 0⟩, ⟨.opening, 1⟩, ⟨.id "A" false, 2⟩, ⟨.closing, 3⟩,
      ⟨.closing, 4⟩] maxDepth 3 ⟨126, .layer .disjunction,
        ⟨[⟨.id "A" false, 2⟩, ⟨.closing, 3⟩, ⟨.closing, 4⟩], 2, []⟩⟩ :=
    (MadeInside.start.enter rfl rfl (by decide)).enter rfl rfl (by decide)
  exact ⟨_, rfl, reading_progresses _, ⟨_, hinner⟩, rfl⟩

end

end Parser

end LicenseExpr
