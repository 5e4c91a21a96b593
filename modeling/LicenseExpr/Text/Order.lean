/-
  Sets of texts as ascending lists.

  Texts are ordered by their code points, which is also the order of their
  UTF-8 bytes.  `sortUnique` lists the members of a list in that order, each
  once: the result is strictly ascending (`pairwise_sortUnique`) and has the
  same members (`mem_sortUnique`).
-/

namespace LicenseExpr

/-- Keeps one of each run of equal neighbours. -/
def dropRepeats (l : List String) : List String :=
  l.foldr (fun s kept => if kept.head? = some s then kept else s :: kept) []

/-- The members of a list, ascending and each once. -/
def sortUnique (l : List String) : List String :=
  dropRepeats (l.mergeSort fun s t => decide (s ≤ t))

theorem dropRepeats_cons (s : String) (l : List String) :
    dropRepeats (s :: l) =
      if (dropRepeats l).head? = some s then dropRepeats l else s :: dropRepeats l := rfl

theorem mem_dropRepeats {s : String} {l : List String} : s ∈ dropRepeats l ↔ s ∈ l := by
  induction l with
  | nil => simp [dropRepeats]
  | cons t l ih =>
    rw [dropRepeats_cons]
    split
    · next h =>
      rw [ih, List.mem_cons]
      refine ⟨Or.inr, ?_⟩
      rintro (rfl | h')
      · exact ih.1 (List.mem_of_head? h)
      · exact h'
    · rw [List.mem_cons, List.mem_cons, ih]

/-- Dropping repetitions from an ascending list leaves a strictly ascending
    one. -/
theorem pairwise_dropRepeats {l : List String} (h : l.Pairwise (· ≤ ·)) :
    (dropRepeats l).Pairwise (· < ·) := by
  induction l with
  | nil => simp [dropRepeats]
  | cons t l ih =>
    obtain ⟨ht, hl⟩ := List.pairwise_cons.1 h
    rw [dropRepeats_cons]
    split
    · exact ih hl
    · next hne =>
      refine List.pairwise_cons.2 ⟨fun u hu => ?_, ih hl⟩
      have hle : t ≤ u := ht u (mem_dropRepeats.1 hu)
      refine Std.lt_of_le_of_ne hle ?_
      rintro rfl
      refine hne ?_
      cases hd : dropRepeats l with
      | nil => simp [hd] at hu
      | cons v vs =>
        rw [hd] at hu
        rcases List.mem_cons.1 hu with rfl | hu'
        · rfl
        · have hv : t ≤ v := ht v (mem_dropRepeats.1 (by rw [hd]; exact List.mem_cons_self))
          have hp := ih hl
          rw [hd] at hp
          have hlt := (List.pairwise_cons.1 hp).1 t hu'
          exact absurd hlt (Std.not_lt.2 hv)

theorem mem_sortUnique {s : String} {l : List String} : s ∈ sortUnique l ↔ s ∈ l := by
  rw [sortUnique, mem_dropRepeats, List.mem_mergeSort]

theorem pairwise_sortUnique (l : List String) : (sortUnique l).Pairwise (· < ·) := by
  refine pairwise_dropRepeats ?_
  have h := @List.pairwise_mergeSort _ (fun s t : String => decide (s ≤ t))
    (fun _ _ _ h₁ h₂ => by simp at *; exact String.le_trans h₁ h₂)
    (fun s t => by simpa using String.le_total s t) l
  simpa using h

end LicenseExpr
