/-
  Parentheses that change nothing.

  * two states are `Alike` if they differ at most in how the operands that
    have been read are grouped, so that trees cannot tell them apart; a run
    from one is as good as a run from the other (`run_alike`);
  * `run_inline`: where an operand is expected, a whole expression is read to
    the same effect as a group around it, unless an operator around the
    expression binds tighter than those in it (`Open`, `Follows`);
  * `MayEnclose u w v e`: the tokens `w`, which are an expression for `e`,
    stand between `u` and `v` where parentheses may be put around them;
  * `readAs_enclosed`: such parentheses do not change what is read.
-/
import LicenseExpr.Proofs.Diagnosis
import LicenseExpr.Proofs.LegacyIds
import Mathlib.Data.List.Forall2

namespace LicenseExpr

open Token (Kind kinds)

namespace Machine

open LicenseExpr.Parser (machine)

/-! ## Joined operands -/

section
variable {op : Operator} {a b : Option Written} {v w : Written} {f g : Frame}

/-- The tree of joined operands depends on their trees only. -/
theorem toExpr_join (ha : a.map Written.toExpr = b.map Written.toExpr)
    (hv : v.toExpr = w.toExpr) : (join op a v).toExpr = (join op b w).toExpr := by
  cases a with
  | none =>
    cases b with
    | none => exact hv
    | some b => cases ha
  | some a =>
    cases b with
    | none => cases ha
    | some b =>
      have hab : a.toExpr = b.toExpr := Option.some.inj ha
      rw [join, join, Written.toExpr, Written.toExpr, hab, hv]

/-- Joining a group of the same operator is joining what stands in it, one
    after the other. -/
theorem toExpr_join_group (op : Operator) (a : Option Written) (v w : Written) :
    (join op a (.group (.compound v op w))).toExpr =
      Expr.leftDeep op (join op a (.group v)).toExpr (w.toExpr.operands op) := by
  cases a with
  | none => rfl
  | some a => exact (Expr.join_assoc _ _ _).symm

theorem Frame.close_of_factors (hf : f.factors = none) (w : Written) :
    f.close w = join .or f.alternatives w := by
  rw [Frame.close, Frame.conj, hf, join]

/-! ## Alike states -/

/-- Groups of which the same has been read. -/
structure Frame.Alike (f g : Frame) : Prop where
  alternatives : f.alternatives.map Written.toExpr = g.alternatives.map Written.toExpr
  factors : f.factors.map Written.toExpr = g.factors.map Written.toExpr

/-- Groups around the one that is being read, wherever they have been opened. -/
abbrev Outer.Alike : Outer → Outer → Prop :=
  List.Forall₂ fun a b => a.1.Alike b.1

/-- States that trees cannot tell apart. -/
inductive State.Alike : State → State → Prop
  | operand {f g outer outer'} : f.Alike g → Outer.Alike outer outer' →
      State.Alike (.operand f outer) (.operand g outer')
  | behind {f g v w outer outer'} : f.Alike g → v.toExpr = w.toExpr → v.isAtom = w.isAtom →
      Outer.Alike outer outer' → State.Alike (.behind f v outer) (.behind g w outer')
  | excepting {f g v w outer outer'} : f.Alike g → v.toExpr = w.toExpr →
      Outer.Alike outer outer' → State.Alike (.excepting f v outer) (.excepting g w outer')
  | surplus {v w p q} : v.toExpr = w.toExpr → State.Alike (.surplus v p) (.surplus w q)

theorem Frame.Alike.refl (f : Frame) : f.Alike f :=
  ⟨rfl, rfl⟩

theorem Outer.Alike.refl (outer : Outer) : Outer.Alike outer outer :=
  List.forall₂_same.2 fun a _ => Frame.Alike.refl a.1

theorem Frame.Alike.conj (h : f.Alike g) (hv : v.toExpr = w.toExpr) :
    (f.conj v).toExpr = (g.conj w).toExpr :=
  toExpr_join h.factors hv

theorem Frame.Alike.close (h : f.Alike g) (hv : v.toExpr = w.toExpr) :
    (f.close v).toExpr = (g.close w).toExpr :=
  toExpr_join h.alternatives (h.conj hv)

end

section
variable {s s' t : State} {ks : List Kind} {x : Written}

/-- What one step keeps. -/
theorem step_alike {k : Kind} {p : Nat} (h : s.Alike t) (hs : machine.step p s k = .ok s')
    (q : Nat) : ∃ t', machine.step q t k = .ok t' ∧ s'.Alike t' := by
  cases h with
  | @operand f g outer outer' hf ho =>
    cases k with
    | id word plus => cases hs; exact ⟨_, rfl, .behind hf rfl rfl ho⟩
    | opening =>
      rw [step] at hs
      split at hs
      · cases hs
      · next hl =>
        cases hs
        rw [ho.length_eq] at hl
        exact ⟨_, by rw [step, if_neg hl], .operand (Frame.Alike.refl _) (.cons hf ho)⟩
    | closing | operator => cases hs
  | @behind f g v w outer outer' hf hv ha ho =>
    cases k with
    | id | opening => cases outer <;> cases hs
    | closing =>
      cases ho with
      | nil => cases hs; exact ⟨_, rfl, .surplus (hf.close hv)⟩
      | cons hg ho => cases hs; exact ⟨_, rfl, .behind hg (hf.close hv) rfl ho⟩
    | operator op =>
      cases op with
      | and =>
        cases hs
        exact ⟨_, rfl, .operand ⟨hf.alternatives, congrArg some (hf.conj hv)⟩ ho⟩
      | or =>
        cases hs
        exact ⟨_, rfl, .operand ⟨congrArg some (hf.close hv), rfl⟩ ho⟩
      | withException =>
        rw [step] at hs
        split at hs
        · next hw =>
          cases hs
          have hsingle : machine.single v = machine.single w := congrArg Expr.isLicense hv
          rw [ha, hsingle] at hw
          exact ⟨_, by rw [step, if_pos hw], .excepting hf hv ho⟩
        · cases hs
  | @excepting f g v w outer outer' hf hv ho =>
    cases k with
    | id word plus =>
      cases plus with
      | true => cases hs
      | false =>
        cases hs
        refine ⟨_, rfl, .behind hf ?_ rfl ho⟩
        rw [Written.toExpr, Written.toExpr, hv]
    | operator | opening | closing => cases hs
  | surplus hv =>
    cases k with
    | closing => cases hs; exact ⟨_, rfl, .surplus hv⟩
    | id | operator | opening => cases hs

/-- What a whole run keeps. -/
theorem run_alike {p : Nat} (h : s.Alike t) (hs : machine.run p s ks = .ok s') (q : Nat) :
    ∃ t', machine.run q t ks = .ok t' ∧ s'.Alike t' := by
  induction ks generalizing p q s t with
  | nil => cases hs; exact ⟨t, rfl, h⟩
  | cons k ks ih =>
    rw [run] at hs
    cases hk : machine.step p s k with
    | error e => rw [hk] at hs; cases hs
    | ok u =>
      rw [hk] at hs
      obtain ⟨u', hk', hu⟩ := step_alike h hk q
      rw [run_cons_of_ok hk']
      exact ih hu hs (q + 1)

theorem conclude_alike {m : Nat} (h : s.Alike t) (hs : conclude m s = .ok x) (n : Nat) :
    ∃ y, conclude n t = .ok y ∧ y.toExpr = x.toExpr := by
  cases h with
  | operand | excepting => cases hs
  | behind hf hv _ ho =>
    cases ho with
    | nil => cases hs; exact ⟨_, rfl, (hf.close hv).symm⟩
    | cons => cases hs
  | surplus hv => cases hs; exact ⟨_, rfl, hv.symm⟩

end

/-! ## An expression in place of a group -/

/-- No operator before the group binds tighter than those of the layer. -/
def Open : Layer → Frame → Prop
  | .disjunction, f => f.factors = none
  | _, _ => True

/-- The operator, behind something of the layer, does not bind tighter than
    those in it. -/
def Follows : Operator → Layer → Prop
  | .withException, layer => layer = .atom
  | .and, layer => layer ≠ .disjunction
  | .or, _ => True

/-- From the frame `f`, the expression `w` of a layer has been read up to its
    last operand `v`, which leaves the frame `g`; in the tree that comes to the
    same as `w` in parentheses. -/
def ReadInline : Layer → Frame → Written → Frame → Written → Prop
  | .atom, f, w, g, v | .term, f, w, g, v => g = f ∧ v = w
  | .conjunction, f, w, g, v =>
    g.alternatives = f.alternatives ∧ (g.conj v).toExpr = (f.conj (.group w)).toExpr
  | .disjunction, f, w, g, v => (g.close v).toExpr = (f.close (.group w)).toExpr

section
variable {layer : Layer} {ks : List Kind} {f g : Frame} {v w : Written} {outer : Outer} {p : Nat}

/-- Reading an expression in place of a group. -/
theorem run_inline (h : Derives Written.isSingle layer ks w) (p : Nat) (f : Frame) (outer : Outer)
    (hf : Open layer f) (hd : outer.length + Token.depth ks ≤ machine.limit) :
    ∃ g v, machine.run p (.operand f outer) ks = .ok (.behind g v outer) ∧
      ReadInline layer f w g v := by
  -- only the first operand is joined to what stands before the group; the
  -- others are read as they are, and joining them is associative
  induction h generalizing f with
  | id => exact run_of_derives (M := machine) .id p f outer trivial hd
  | group hk => exact run_of_derives (M := machine) (.group hk) p f outer trivial hd
  | term hk => exact run_of_derives (M := machine) (.term hk) p f outer trivial hd
  | excepted hk hs => exact run_of_derives (M := machine) (.excepted hk hs) p f outer trivial hd
  | conjunction hk =>
    obtain ⟨g, v, hrun, rfl, rfl⟩ := run_of_derives (M := machine) hk p f outer trivial hd
    exact ⟨g, v, hrun, rfl, toExpr_join rfl rfl⟩
  | @and ks us v w hk hu ih =>
    rw [hk.depth_infix] at hd
    obtain ⟨g, v', hrun, ha, hc⟩ := ih f trivial (by omega)
    obtain ⟨h, x, hrun', hh, hx⟩ := run_of_derives (M := machine) hu (p + ks.length + 1)
      (g.next v' .and) outer trivial (by omega)
    rw [hh, hx] at hrun'
    refine ⟨g.next v' .and, w, ?_, ha, ?_⟩
    · rw [run_append_of_ok hrun, run_cons_of_ok (Joins.and.step_ok _ _), hrun']
    · calc ((g.next v' .and).conj w).toExpr
          = Expr.leftDeep .and (g.conj v').toExpr (w.toExpr.operands .and) := rfl
        _ = Expr.leftDeep .and (f.conj (.group v)).toExpr (w.toExpr.operands .and) := by rw [hc]
        _ = (f.conj (.group (.compound v .and w))).toExpr := (toExpr_join_group ..).symm
  | disjunction _ ih =>
    obtain ⟨g, v, hrun, ha, hc⟩ := ih f trivial hd
    exact ⟨g, v, hrun, toExpr_join (by rw [ha]) hc⟩
  | @or ks us v w hk hu ih =>
    rw [hk.depth_infix] at hd
    have hf : f.factors = none := hf
    obtain ⟨g, v', hrun, hc⟩ := ih f hf (by omega)
    obtain ⟨h, x, hrun', ha, hx⟩ := run_of_derives (M := machine) hu (p + ks.length + 1)
      (g.next v' .or) outer rfl (by omega)
    have hc : (g.close v').toExpr = (f.close (.group v)).toExpr := hc
    rw [Frame.close_of_factors hf] at hc
    refine ⟨h, x, ?_, ?_⟩
    · rw [run_append_of_ok hrun, run_cons_of_ok (Joins.or.step_ok _ _), hrun']
    · calc (h.close x).toExpr
          = (join .or (some (g.close v')) w).toExpr := by rw [Frame.close, ha, hx]; rfl
        _ = Expr.leftDeep .or (g.close v').toExpr (w.toExpr.operands .or) := rfl
        _ = (join .or f.alternatives (.group (.compound v .or w))).toExpr := by
          rw [hc, toExpr_join_group]
        _ = (f.close (.group (.compound v .or w))).toExpr := by rw [Frame.close_of_factors hf]

theorem ReadInline.conj (h : ReadInline layer f w g v) (hl : layer ≠ .disjunction) :
    g.alternatives = f.alternatives ∧ (g.conj v).toExpr = (f.conj (.group w)).toExpr := by
  cases layer with
  | atom | term =>
    obtain ⟨rfl, rfl⟩ := h
    exact ⟨rfl, toExpr_join rfl rfl⟩
  | conjunction => exact h
  | disjunction => exact absurd rfl hl

theorem ReadInline.close (h : ReadInline layer f w g v) :
    (g.close v).toExpr = (f.close (.group w)).toExpr := by
  cases layer with
  | disjunction => exact h
  | atom | term | conjunction =>
    obtain ⟨ha, hc⟩ := h.conj nofun
    exact toExpr_join (by rw [ha]) hc

/-- The first step behind the expression, and behind the group. -/
theorem step_inline {k : Kind} {s : State} (h : ReadInline layer f w g v)
    (hk : ∀ op, k = .operator op → Follows op layer)
    (hs : machine.step p (.behind g v outer) k = .ok s) (q : Nat) :
    ∃ t, machine.step q (.behind f (.group w) outer) k = .ok t ∧ s.Alike t := by
  cases k with
  | id | opening => cases outer <;> cases hs
  | closing =>
    cases outer with
    | nil => cases hs; exact ⟨_, rfl, .surplus h.close⟩
    | cons gq outer =>
      cases hs
      exact ⟨_, rfl, .behind (Frame.Alike.refl _) h.close rfl (Outer.Alike.refl _)⟩
  | operator op =>
    have hop : Follows op layer := hk op rfl
    cases op with
    | and =>
      cases hs
      obtain ⟨ha, hc⟩ := h.conj hop
      exact ⟨_, rfl, .operand ⟨by rw [ha], congrArg some hc⟩ (Outer.Alike.refl _)⟩
    | or =>
      cases hs
      exact ⟨_, rfl, .operand ⟨congrArg some h.close, rfl⟩ (Outer.Alike.refl _)⟩
    | withException =>
      have hlayer : layer = .atom := hop
      subst hlayer
      obtain ⟨rfl, rfl⟩ := h
      rw [step] at hs
      split at hs
      · next hw =>
        cases hs
        simp only [Bool.and_eq_true] at hw
        have hgroup : machine.single (.group v) = true := hw.2
        exact ⟨.excepting g (.group v) outer, by rw [step, Written.isAtom, hgroup]; rfl,
          .excepting (Frame.Alike.refl _) rfl (Outer.Alike.refl _)⟩
      · cases hs

/-- Whatever can be read behind the expression can be read behind the group,
    and it gives the same tree. -/
theorem run_conclude_inline {s : State} {x : Written} {m : Nat} (h : ReadInline layer f w g v)
    (hk : ∀ op, ks.head? = some (.operator op) → Follows op layer)
    (hs : machine.run p (.behind g v outer) ks = .ok s) (hc : conclude m s = .ok x) (q n : Nat) :
    ∃ t y, machine.run q (.behind f (.group w) outer) ks = .ok t ∧ conclude n t = .ok y ∧
      y.toExpr = x.toExpr := by
  cases ks with
  | nil =>
    cases hs
    cases outer with
    | nil => cases hc; exact ⟨_, _, rfl, rfl, h.close.symm⟩
    | cons => cases hc
  | cons k ks =>
    rw [run] at hs
    cases hstep : machine.step p (.behind g v outer) k with
    | error e => rw [hstep] at hs; cases hs
    | ok s' =>
      rw [hstep] at hs
      obtain ⟨t', hstep', hst⟩ := step_inline h (fun op hop => hk op (by rw [hop]; rfl)) hstep q
      obtain ⟨t, ht, hst⟩ := run_alike hst hs (q + 1)
      obtain ⟨y, hy, hxy⟩ := conclude_alike hst hc n
      exact ⟨t, y, by rw [run_cons_of_ok hstep', ht], hy, hxy⟩

end

/-! ## Where an operand is expected -/

section
variable {single : Written → Bool} {M : Machine} {ks us : List Kind} {w : Written}

/-- What stands before an expression, if it is not `WITH`, expects an operand. -/
theorem exists_operand_of_run {layer : Layer} {s : State} (hw : Derives single layer ks w)
    (hu : us.getLast? ≠ some (.operator .withException)) (hs : M.run 0 start (us ++ ks) = .ok s) :
    ∃ f outer, M.run 0 start us = .ok (.operand f outer) := by
  obtain ⟨t, ht⟩ := run_of_append hs
  obtain ⟨k, vs, rfl, hclosing, hop⟩ := hw.exists_cons
  rw [run_append_of_ok ht, run] at hs
  cases t with
  | operand f outer => exact ⟨f, outer, ht⟩
  | behind f v outer =>
    cases k with
    | id | opening => cases outer <;> cases hs
    | closing => exact absurd rfl hclosing
    | operator op => exact absurd rfl (hop op)
  | excepting f v outer =>
    cases reads_of_run ht with
    | excepting => exact absurd List.getLast?_concat hu
  | surplus v q =>
    cases k with
    | id | opening => cases hs
    | closing => exact absurd rfl hclosing
    | operator op => exact absurd rfl (hop op)

/-- Factors wait for the operand only behind `AND`. -/
theorem State.Reads.factors {f : Frame} {outer : Outer}
    (h : (State.operand f outer).Reads single us) :
    f.factors = none ∨ us.getLast? = some (.operator .and) := by
  cases h with
  | operand ho hf =>
    cases hf with
    | mk ha hb =>
      generalize f.factors = v at hb
      cases hb with
      | none => exact Or.inl rfl
      | some hv => exact Or.inr (by simp)

/-- The operand may nest as deep as the groups around it leave room for. -/
theorem State.Reads.length_add_depth_le {f : Frame} {outer : Outer}
    (h : (State.operand f outer).Reads single us) (ks : List Kind) :
    outer.length + Token.depth ks ≤ Token.depth (us ++ ks) := by
  cases h with
  | operand ho hf =>
    refine add_nesting_le Token.opening_ne_closing ?_ ks
    simp only [List.count_append, ho.count, hf.balanced.settled]
    omega

end

end Machine

/-! ## Parentheses around an expression -/

namespace Parser

open Machine

/-- The parser reads the tokens as the tree. -/
def ReadAs (ts : List Token) (e : Expr) : Prop :=
  ∃ after, readTokens (maxDepth + 1) ts = .accepted e after

/-- The parser reads the tokens as the tree, and none is left over: no closing
    parenthesis lacks its partner. -/
def Complete (ts : List Token) (e : Expr) : Prop :=
  ∃ after, readTokens (maxDepth + 1) ts = .accepted e after ∧ after.rest = []

/-- The operator is among the tokens, outside of all parentheses. -/
def Outside (op : Operator) (ks : List Kind) : Prop :=
  ∃ i < ks.length, ks[i]? = some (.operator op) ∧
    (ks.take i).count .opening = (ks.take i).count .closing

instance (op : Operator) (ks : List Kind) : Decidable (Outside op ks) :=
  Nat.decidableExistsLT (p := fun i => ks[i]? = some (.operator op) ∧
    (ks.take i).count .opening = (ks.take i).count .closing) ks.length

/-- Between `u` and `v`, parentheses may be put around `w`, which spells `e`. -/
structure MayEnclose (u w v : List Token) (e : Expr) : Prop where
  complete : Complete w e
  /-- An exception is an id without parentheses. -/
  not_exception : (kinds u).getLast? ≠ some (.operator .withException)
  /-- Only a single license has an exception. -/
  excepted : (kinds v).head? = some (.operator .withException) → e.isLicense = true
  /-- No operator around the parentheses binds tighter than one in them. -/
  tighter : ∀ op p, Outside op (kinds w) → p ≠ .withException →
    (kinds u).getLast? = some (.operator p) ∨ (kinds v).head? = some (.operator p) →
      p.precedence ≤ op.precedence

section
variable {ts u w v : List Token} {e x : Expr} {W : Written} {ks : List Kind}

theorem readAs_iff : ReadAs ts e ↔ ∃ w, machine.read (kinds ts) = .ok w ∧ w.toExpr = e := by
  constructor
  · rintro ⟨after, h⟩
    obtain ⟨w, hw⟩ := accepts_iff_read.1 ⟨e, after, h⟩
    obtain ⟨after', h'⟩ := readTokens_of_ok hw
    rw [h] at h'
    cases h'
    exact ⟨w, hw, rfl⟩
  · rintro ⟨w, hw, rfl⟩
    exact readTokens_of_ok hw

/-- Without closing parentheses too many, all the tokens are derived. -/
theorem Complete.exists_derives (h : Complete ts e) :
    ∃ W, Derives Written.isSingle .disjunction (kinds ts) W ∧ W.toExpr = e := by
  obtain ⟨after, h, hrest⟩ := h
  obtain ⟨W, hW, rfl⟩ := readAs_iff.1 ⟨after, h⟩
  refine ⟨W, ?_, rfl⟩
  obtain ⟨s, hs, hc⟩ := read_eq_ok hW
  obtain ⟨log, hlog⟩ := (drive_start ts).1 s hs
  rw [kinds, List.length_map] at hc
  rw [readTokens_eq 0, hlog, drive, hc] at h
  cases h
  obtain ⟨us, n, hk, hW, -, rfl | ⟨rfl, -⟩⟩ :=
    exists_derives_of_conclude hs (by rw [List.length_map]; exact hc)
  · -- the first of the closing parentheses would be left over
    have hlength := congrArg List.length hk
    have hdrop := List.drop_eq_nil_iff.1 hrest
    simp only [complete, List.length_map, List.length_append, List.length_replicate]
      at hlength hdrop
    obtain rfl : n = 0 := by omega
    rw [hk, List.replicate_zero, List.append_nil]
    exact hW
  · rw [hk, List.replicate_zero, List.append_nil]
    exact hW

/-- A single license is an id, or a group of one. -/
theorem derives_atom_of_isLicense (h : Derives Written.isSingle .disjunction ks W)
    (hl : W.toExpr.isLicense = true) : Derives Written.isSingle .atom ks W := by
  have hne : ∀ op, W.toExpr.operator? ≠ some op := by
    obtain ⟨id, orLater, hid⟩ := Written.exists_of_isSingle hl
    rw [hid]
    exact fun op => nofun
  cases h with
  | or => exact absurd (Expr.operator?_join _ _) (hne .or)
  | disjunction h =>
    cases h with
    | and => exact absurd (Expr.operator?_join _ _) (hne .and)
    | conjunction h =>
      cases h with
      | excepted => exact absurd rfl (hne .withException)
      | term h => exact h

/-- Without `OR` outside of parentheses, there is only one alternative. -/
theorem derives_conjunction_of_not_outside (h : Derives Written.isSingle .disjunction ks W)
    (ho : ¬ Outside .or ks) : Derives Written.isSingle .conjunction ks W := by
  cases h with
  | disjunction h => exact h
  | @or ks us v w hk hu =>
    refine absurd ⟨ks.length, by simp, by simp, ?_⟩ ho
    rw [List.take_left]
    exact hk.settled

/-- Parentheses that may be put around an expression enclose something of a
    layer that is left alone by the operators around it. -/
theorem MayEnclose.exists_layer (h : MayEnclose u w v e) {f : Frame}
    (hW : Derives Written.isSingle .disjunction (kinds w) W) (he : W.toExpr = e)
    (hf : f.factors = none ∨ (kinds u).getLast? = some (.operator .and)) :
    ∃ layer, Derives Written.isSingle layer (kinds w) W ∧ Open layer f ∧
      ∀ op, (kinds v).head? = some (.operator op) → Follows op layer := by
  by_cases hwith : (kinds v).head? = some (.operator .withException)
  · refine ⟨.atom, derives_atom_of_isLicense hW (he ▸ h.excepted hwith), trivial, ?_⟩
    intro op hop
    rw [hwith] at hop
    cases hop
    rfl
  by_cases hor : Outside .or (kinds w)
  · have hand : ¬ ((kinds u).getLast? = some (.operator .and) ∨
        (kinds v).head? = some (.operator .and)) := fun hand =>
      absurd (h.tighter .or .and hor (by decide) hand) (by decide)
    refine ⟨.disjunction, hW, hf.resolve_right fun hu => hand (Or.inl hu), fun op hop => ?_⟩
    cases op with
    | and => exact absurd (Or.inr hop) hand
    | or => trivial
    | withException => exact absurd hop hwith
  · refine ⟨.conjunction, derives_conjunction_of_not_outside hW hor, trivial, fun op hop => ?_⟩
    cases op with
    | and => exact nofun
    | or => trivial
    | withException => exact absurd hop hwith

end

/-- **Redundant parentheses do not change what is read**: if tokens are read
    as a tree, they are still read as it with parentheses around a part that
    may be enclosed, wherever in a text they stand, unless too many parentheses
    are then open at once. -/
theorem readAs_enclosed {u w v ts : List Token} {e x : Expr} (h : ReadAs (u ++ w ++ v) x)
    (hm : MayEnclose u w v e)
    (hts : kinds ts = kinds u ++ [.opening] ++ kinds w ++ [.closing] ++ kinds v)
    (hd : Token.depth (kinds ts) ≤ maxDepth) : ReadAs ts x := by
  obtain ⟨X, hX, rfl⟩ := readAs_iff.1 h
  obtain ⟨s, hs, hc⟩ := read_eq_ok hX
  obtain ⟨W, hW, he⟩ := hm.complete.exists_derives
  rw [Token.kinds_append, Token.kinds_append] at hs
  obtain ⟨s', hs'⟩ := run_of_append hs
  obtain ⟨f, outer, hu⟩ := exists_operand_of_run hW hm.not_exception hs'
  have hreads := reads_of_run hu
  obtain ⟨layer, hlayer, hopen, hfollows⟩ := hm.exists_layer hW he hreads.factors
  have hgroup := Derives.group hW
  have hsplit : kinds ts = kinds u ++ (.opening :: kinds w ++ [.closing]) ++ kinds v := by
    rw [hts]
    simp
  have hroom : outer.length + (Token.depth (kinds w) + 1) ≤ maxDepth := by
    rw [← hW.depth_group]
    refine Nat.le_trans (hreads.length_add_depth_le _) (Nat.le_trans ?_ hd)
    rw [hsplit]
    exact nesting_prefix_le Token.opening_ne_closing (List.prefix_append _ _)
  obtain ⟨g, y, hinline, hread⟩ := run_inline hlayer (0 + (kinds u).length) f outer hopen
    (Nat.le_trans (by omega) hroom)
  obtain ⟨g', y', henclosed, hg, hy⟩ := run_of_derives (M := machine) hgroup
    (0 + (kinds u).length) f outer trivial (by rw [hW.depth_group]; exact hroom)
  subst hg hy
  rw [List.append_assoc, run_append_of_ok hu, run_append_of_ok hinline] at hs
  obtain ⟨t, Y, ht, hY, hXY⟩ := run_conclude_inline hread hfollows hs hc
    (0 + (kinds u).length + (Kind.opening :: kinds w ++ [Kind.closing]).length) (kinds ts).length
  refine readAs_iff.2 ⟨Y, ?_, hXY⟩
  have hrun : machine.run 0 start (kinds ts) = .ok t := by
    rw [hsplit, List.append_assoc, run_append_of_ok hu, run_append_of_ok henclosed, ht]
  rw [Machine.read, hrun]
  exact hY

/-- `B AND (C OR D)` may be enclosed between `A AND` and `OR E`. -/
theorem readAs_enclosed_nested :
    ReadAs ([⟨.id "A" false, 0⟩, ⟨.operator .and, 2⟩] ++
        [⟨.id "B" false, 6⟩, ⟨.operator .and, 8⟩, ⟨.opening, 12⟩, ⟨.id "C" false, 13⟩,
          ⟨.operator .or, 15⟩, ⟨.id "D" false, 18⟩, ⟨.closing, 19⟩] ++
        [⟨.operator .or, 21⟩, ⟨.id "E" false, 24⟩])
      (.compound (.compound (.compound (.license "A" false) .and (.license "B" false)) .and
        (.compound (.license "C" false) .or (.license "D" false))) .or (.license "E" false)) ∧
    MayEnclose [⟨.id "A" false, 0⟩, ⟨.operator .and, 2⟩]
        [⟨.id "B" false, 6⟩, ⟨.operator .and, 8⟩, ⟨.opening, 12⟩, ⟨.id "C" false, 13⟩,
          ⟨.operator .or, 15⟩, ⟨.id "D" false, 18⟩, ⟨.closing, 19⟩]
        [⟨.operator .or, 21⟩, ⟨.id "E" false, 24⟩]
      (.compound (.license "B" false) .and
        (.compound (.license "C" false) .or (.license "D" false))) ∧
    ReadAs [⟨.id "A" false, 0⟩, ⟨.operator .and, 2⟩, ⟨.opening, 6⟩, ⟨.id "B" false, 7⟩,
        ⟨.operator .and, 9⟩, ⟨.opening, 13⟩, ⟨.id "C" false, 14⟩, ⟨.operator .or, 16⟩,
        ⟨.id "D" false, 19⟩, ⟨.closing, 20⟩, ⟨.closing, 21⟩, ⟨.operator .or, 23⟩,
        ⟨.id "E" false, 26⟩]
      (.compound (.compound (.compound (.license "A" false) .and (.license "B" false)) .and
        (.compound (.license "C" false) .or (.license "D" false))) .or (.license "E" false)) := by
  have hcurrent : ∀ w, CurrentLicense w false → resolveLicense w false = .license w false :=
    fun w h => resolveLicense_of_current h
  have hb := hcurrent "B" (by decide)
  have hc := hcurrent "C" (by decide)
  have hd := hcurrent "D" (by decide)
  refine ⟨?read, ?may, readAs_enclosed ?read ?may rfl (by decide)⟩
  case read =>
    refine readAs_iff.2 ⟨.compound (.compound (.compound (.id "A" false) .and (.id "B" false)) .and
      (.group (.compound (.id "C" false) .or (.id "D" false)))) .or (.id "E" false), rfl, ?_⟩
    simp only [Written.toExpr, hcurrent "A" (by decide), hb, hc, hd, hcurrent "E" (by decide)]
    rfl
  case may =>
    refine ⟨?_, by decide, by decide, fun op p => by cases op <;> cases p <;> decide⟩
    have hw : (Written.compound (.id "B" false) .and (.group (.compound (.id "C" false) .or
        (.id "D" false)))).toExpr = .compound (.license "B" false) .and
          (.compound (.license "C" false) .or (.license "D" false)) := by
      simp only [Written.toExpr, hb, hc, hd]
      rfl
    rw [← hw]
    apply Exists.intro
    apply And.intro
    · exact (readTokens_eq 0 _).trans rfl
    · rfl

end Parser

end LicenseExpr
