/-
  Parentheses in lists.

  A list is read against two things that may stand in it, an opening one `o`
  and a closing one `c`; everything else in it does not matter.

  * `nesting o c l` is the largest number of parentheses that are open at
    once in `l`, computed from the end (`nesting_le_iff`: it is at most `n`
    exactly if no prefix opens more than `n` beyond those that it closes);
  * `Balanced o c l`: no prefix closes more than it opens, and `l` closes
    all that it opens;
  * `nesting_append`, `nesting_group`: over balanced parts, nesting is
    computed part by part.
-/

namespace LicenseExpr

section
variable {α : Type} [DecidableEq α] (o c : α)

/-- The largest number of parentheses that are open at once. -/
def nesting : List α → Nat
  | [] => 0
  | a :: l => if a = o then nesting l + 1 else if a = c then nesting l - 1 else nesting l

/-- Every parenthesis has its partner. -/
structure Balanced (l : List α) : Prop where
  /-- No prefix closes more than it opens. -/
  partnered : ∀ p, p <+: l → p.count c ≤ p.count o
  /-- Everything that is opened is closed. -/
  settled : l.count o = l.count c

/-- The opening parenthesis behind `i` members has no partner: nothing behind
    it closes more than it opens. -/
structure Unclosed (l : List α) (i : Nat) : Prop where
  opens : l[i]? = some o
  partnerless : ∀ p, p <+: l.drop (i + 1) → p.count c ≤ p.count o

/-- The last opening parenthesis without a partner. -/
structure LastUnclosed (l : List α) (i : Nat) : Prop where
  unclosed : Unclosed o c l i
  last : ∀ j, i < j → ¬ Unclosed o c l j

end

section
variable {α : Type} [DecidableEq α] {o c : α}

/-! ## Nesting -/

theorem nesting_open (l : List α) : nesting o c (o :: l) = nesting o c l + 1 := by
  simp [nesting]

theorem nesting_close (h : o ≠ c) (l : List α) : nesting o c (c :: l) = nesting o c l - 1 := by
  simp [nesting, h.symm]

theorem nesting_other {a : α} (ho : a ≠ o) (hc : a ≠ c) (l : List α) :
    nesting o c (a :: l) = nesting o c l := by
  simp [nesting, ho, hc]

theorem nesting_others {l : List α} (h : ∀ a ∈ l, a ≠ o ∧ a ≠ c) (m : List α) :
    nesting o c (l ++ m) = nesting o c m := by
  induction l with
  | nil => rfl
  | cons a l ih =>
    obtain ⟨ha, hl⟩ := List.forall_mem_cons.1 h
    rw [List.cons_append, nesting_other ha.1 ha.2, ih hl]

/-- **Nesting bounds every prefix**, and nothing less does. -/
theorem nesting_le_iff (h : o ≠ c) {l : List α} {n : Nat} :
    nesting o c l ≤ n ↔ ∀ p, p <+: l → p.count o ≤ p.count c + n := by
  induction l generalizing n with
  | nil =>
    refine ⟨fun _ p hp => ?_, fun _ => by simp [nesting]⟩
    rw [List.prefix_nil.1 hp]; simp
  | cons a l ih =>
    -- a prefix of `a :: l` is empty, or `a` before a prefix of `l`
    have split : (∀ p, p <+: a :: l → p.count o ≤ p.count c + n) ↔
        ∀ p, p <+: l → (a :: p).count o ≤ (a :: p).count c + n := by
      constructor
      · intro hp p hpl
        exact hp _ ((List.prefix_cons_inj a).2 hpl)
      · intro hp p hpl
        rcases List.prefix_cons_iff.1 hpl with rfl | ⟨q, rfl, hq⟩
        · simp
        · exact hp q hq
    rw [split]
    by_cases ho : a = o
    · subst ho
      simp only [nesting_open, List.count_cons_self, List.count_cons_of_ne h]
      constructor
      · intro hn p hp
        have := ih.1 (Nat.le_sub_of_add_le hn) p hp
        omega
      · intro hp
        have h₁ := hp [] (List.nil_prefix)
        have h₂ : nesting a c l ≤ n - 1 := ih.2 fun p hpl => by
          have := hp p hpl
          simp only [List.count_nil] at h₁
          omega
        simp only [List.count_nil] at h₁
        omega
    · by_cases hc : a = c
      · subst hc
        simp only [nesting_close h, List.count_cons_self, List.count_cons_of_ne (Ne.symm h)]
        rw [Nat.sub_le_iff_le_add, ih]
        exact forall₂_congr fun p _ => by omega
      · simp only [nesting_other ho hc, List.count_cons_of_ne ho, List.count_cons_of_ne hc]
        exact ih

omit [DecidableEq α] in
/-- A prefix of a concatenation ends in the first part or in the second. -/
theorem prefix_append_iff {l m p : List α} :
    p <+: l ++ m ↔ p <+: l ∨ ∃ q, q <+: m ∧ p = l ++ q := by
  constructor
  · rintro ⟨t, ht⟩
    rcases List.append_eq_append_iff.1 ht with ⟨u, rfl, -⟩ | ⟨u, rfl, rfl⟩
    · exact Or.inl ⟨u, rfl⟩
    · exact Or.inr ⟨u, ⟨t, rfl⟩, rfl⟩
  · rintro (hp | ⟨q, hq, rfl⟩)
    · exact hp.trans (List.prefix_append l m)
    · exact (List.prefix_append_right_inj l).2 hq

theorem nesting_append_le_iff (h : o ≠ c) {l m : List α} {n : Nat} :
    nesting o c (l ++ m) ≤ n ↔ nesting o c l ≤ n ∧
      ∀ q, q <+: m → (l ++ q).count o ≤ (l ++ q).count c + n := by
  rw [nesting_le_iff h, nesting_le_iff h]
  constructor
  · intro hp
    exact ⟨fun p hl => hp p (prefix_append_iff.2 (Or.inl hl)),
      fun q hq => hp _ (prefix_append_iff.2 (Or.inr ⟨q, hq, rfl⟩))⟩
  · rintro ⟨hl, hm⟩ p hp
    rcases prefix_append_iff.1 hp with hp | ⟨q, hq, rfl⟩
    · exact hl p hp
    · exact hm q hq

theorem nesting_concat_le_iff (h : o ≠ c) {l : List α} {a : α} {n : Nat} :
    nesting o c (l ++ [a]) ≤ n ↔
      nesting o c l ≤ n ∧ (l ++ [a]).count o ≤ (l ++ [a]).count c + n := by
  rw [nesting_append_le_iff h]
  refine and_congr_right fun hl => ⟨fun hq => hq [a] (List.prefix_refl _), fun ha q hq => ?_⟩
  rcases List.prefix_cons_iff.1 hq with rfl | ⟨r, rfl, hr⟩
  · rw [List.append_nil]
    exact (nesting_le_iff h).1 hl l (List.prefix_refl l)
  · rwa [List.prefix_nil.1 hr]

/-- The first part, settled, leaves nothing open for the second. -/
theorem nesting_append (h : o ≠ c) {l : List α} (hl : l.count o = l.count c) (m : List α) :
    nesting o c (l ++ m) = max (nesting o c l) (nesting o c m) := by
  have hle : ∀ n, nesting o c (l ++ m) ≤ n ↔ max (nesting o c l) (nesting o c m) ≤ n := by
    intro n
    rw [nesting_append_le_iff h, Nat.max_le, nesting_le_iff h (l := m)]
    refine and_congr_right fun _ => forall₂_congr fun q _ => ?_
    rw [List.count_append, List.count_append]
    omega
  exact Nat.le_antisymm ((hle _).2 (Nat.le_refl _)) ((hle _).1 (Nat.le_refl _))

/-- What the first part leaves open stays open in the second. -/
theorem add_nesting_le (h : o ≠ c) {l : List α} {d : Nat} (hl : l.count o = l.count c + d)
    (m : List α) : d + nesting o c m ≤ nesting o c (l ++ m) := by
  obtain ⟨-, hq⟩ := (nesting_append_le_iff h (l := l) (m := m)).1 (Nat.le_refl _)
  simp only [List.count_append, hl] at hq
  have hd := hq [] List.nil_prefix
  simp only [List.count_nil] at hd
  have hm : nesting o c m ≤ nesting o c (l ++ m) - d := (nesting_le_iff h).2 fun q hqm => by
    have := hq q hqm
    omega
  omega

theorem nesting_prefix_le (h : o ≠ c) {l m : List α} (hp : l <+: m) :
    nesting o c l ≤ nesting o c m := by
  refine (nesting_le_iff h).2 fun p hl => ?_
  exact (nesting_le_iff h).1 (Nat.le_refl _) p (hl.trans hp)

/-- Parentheses around a settled list are open throughout. -/
theorem nesting_group (h : o ≠ c) {l : List α} (hl : l.count o = l.count c) :
    nesting o c (o :: l ++ [c]) = nesting o c l + 1 := by
  rw [List.cons_append, nesting_open, nesting_append h hl, nesting_close h]
  simp [nesting]

/-! ## Balance -/

namespace Balanced

theorem nil : Balanced o c [] where
  partnered := by
    intro p hp
    rw [List.prefix_nil.1 hp]
    simp
  settled := rfl

theorem append {l m : List α} (hl : Balanced o c l) (hm : Balanced o c m) :
    Balanced o c (l ++ m) where
  partnered := by
    intro p hp
    rcases prefix_append_iff.1 hp with hp | ⟨q, hq, rfl⟩
    · exact hl.partnered p hp
    · have h₁ := hl.settled
      have h₂ := hm.partnered q hq
      rw [List.count_append, List.count_append]
      omega
  settled := by rw [List.count_append, List.count_append, hl.settled, hm.settled]

theorem single {a : α} (ho : a ≠ o) (hc : a ≠ c) : Balanced o c [a] where
  partnered := by
    intro p hp
    rcases List.prefix_cons_iff.1 hp with rfl | ⟨q, rfl, hq⟩
    · simp
    · rw [List.prefix_nil.1 hq, List.count_cons_of_ne ho, List.count_cons_of_ne hc]
      simp
  settled := by simp [List.count_cons_of_ne ho, List.count_cons_of_ne hc]

theorem others {l : List α} (h : ∀ a ∈ l, a ≠ o ∧ a ≠ c) : Balanced o c l := by
  induction l with
  | nil => exact nil
  | cons a l ih =>
    obtain ⟨ha, hl⟩ := List.forall_mem_cons.1 h
    exact (single ha.1 ha.2).append (ih hl)

theorem group (h : o ≠ c) {l : List α} (hl : Balanced o c l) : Balanced o c (o :: l ++ [c]) where
  partnered := by
    intro p hp
    rw [List.cons_append] at hp
    rcases List.prefix_cons_iff.1 hp with rfl | ⟨q, rfl, hq⟩
    · simp
    · rw [List.count_cons_self, List.count_cons_of_ne h]
      rcases prefix_append_iff.1 hq with hq | ⟨r, hr, rfl⟩
      · have := hl.partnered q hq
        omega
      · have h₁ := hl.settled
        rcases List.prefix_cons_iff.1 hr with rfl | ⟨s, rfl, hs⟩
        · simp only [List.append_nil]; omega
        · rw [List.prefix_nil.1 hs, List.count_append, List.count_append]
          simp only [List.count_cons_self, List.count_cons_of_ne (Ne.symm h), List.count_nil]
          omega
  settled := by
    have := hl.settled
    simp only [List.cons_append, List.count_cons_self, List.count_cons_of_ne h,
      List.count_append, List.count_cons_of_ne (Ne.symm h), List.count_nil]
    omega

end Balanced

/-- Behind a balanced beginning, closing parentheses without partners are
    followed by nothing else. -/
theorem Balanced.forall_mem_of_surplus (h : o ≠ c) {l m us : List α} {n : Nat}
    (hl : l.count o = l.count c) (hu : Balanced o c us)
    (he : l ++ c :: m = us ++ List.replicate n c) : ∀ a ∈ m, a = c := by
  intro a ha
  rcases List.append_eq_append_iff.1 he with ⟨t, rfl, ht⟩ | ⟨t, -, ht⟩
  · cases t with
    | nil => exact List.eq_of_mem_replicate (ht ▸ List.mem_cons_of_mem c ha)
    | cons b t =>
      -- `us` would close more than it opens
      obtain ⟨rfl, -⟩ := List.cons.inj ht
      have hp := hu.partnered (l ++ [c]) ⟨t, by simp⟩
      simp only [List.count_append, List.count_singleton_self, List.count_singleton, beq_iff_eq,
        h.symm, if_false] at hp
      omega
  · exact List.eq_of_mem_replicate (ht ▸ List.mem_append_right t (List.mem_cons_of_mem c ha))

/-! ## Open parentheses -/

/-- Before a balanced list, an opening parenthesis is the last one that is
    not closed. -/
theorem Balanced.lastUnclosed (h : o ≠ c) {m : List α} (hm : Balanced o c m) (l : List α) :
    LastUnclosed o c (l ++ o :: m) l.length := by
  have behind : ∀ n, (l ++ o :: m).drop (l.length + 1 + n) = m.drop n := by
    intro n
    rw [← List.drop_drop, ← List.drop_drop, List.drop_left]
    rfl
  refine ⟨⟨by simp, fun p hp => ?_⟩, fun j hj hu => ?_⟩
  · have hm0 := behind 0
    rw [Nat.add_zero, List.drop_zero] at hm0
    exact hm.partnered p (hm0 ▸ hp)
  · -- what stands before `j` closes no more than it opens, so the rest closes `j`
    obtain ⟨n, rfl⟩ : ∃ n, j = l.length + 1 + n := Nat.exists_eq_add_of_le hj
    have hrest := hu.partnerless _ (List.prefix_refl _)
    rw [Nat.add_assoc, behind] at hrest
    have hopen : m.drop n = o :: m.drop (n + 1) := by
      have hn := hu.opens
      rw [← List.head?_drop, behind] at hn
      obtain ⟨r, hr⟩ := List.head?_eq_some_iff.1 hn
      rw [← List.drop_drop, hr]
      rfl
    have hfirst := hm.partnered _ (List.take_prefix n m)
    have hset := hm.settled
    rw [← List.take_append_drop n m, hopen] at hset
    simp only [List.count_append, List.count_cons_self, List.count_cons_of_ne h] at hset
    omega

end

end LicenseExpr
