/-
  Sets of characters, given by their code points.

  * a set is a list of inclusive ranges in increasing order, so a search ends
    at the first range behind the number sought (`inRanges`);
  * `inRanges_iff`: in such a list a number is found exactly if it is in one
    of the ranges;
  * `increasing_of_check`: it is enough to compare each range with the next.
-/

namespace LicenseExpr

/-- Whether a number is in one of several inclusive ranges in increasing
    order. -/
def inRanges : List (Nat × Nat) → Nat → Bool
  | [], _ => false
  | (low, high) :: rest, n => low ≤ n && (n ≤ high || inRanges rest n)

/-- The ranges are not empty and in increasing order. -/
def Increasing (ranges : List (Nat × Nat)) : Prop :=
  (∀ r ∈ ranges, r.1 ≤ r.2) ∧ ranges.Pairwise fun r s => r.2 < s.1

/-- Checks neighbours only, which is enough (`increasing_of_check`). -/
def checkIncreasing : List (Nat × Nat) → Bool
  | [] => true
  | [r] => r.1 ≤ r.2
  | r :: s :: rest => r.1 ≤ r.2 && r.2 < s.1 && checkIncreasing (s :: rest)

theorem increasing_of_check (ranges : List (Nat × Nat)) (h : checkIncreasing ranges = true) :
    Increasing ranges := by
  induction ranges with
  | nil => simp [Increasing]
  | cons r rest ih =>
    cases rest with
    | nil => simpa [Increasing, checkIncreasing] using h
    | cons s rest =>
      simp only [checkIncreasing, Bool.and_eq_true, decide_eq_true_eq] at h
      obtain ⟨⟨sound, next⟩, h⟩ := h
      obtain ⟨sounds, ordered⟩ := ih h
      refine ⟨fun t ht => ?_, List.pairwise_cons.mpr ⟨fun t ht => ?_, ordered⟩⟩
      · rcases List.mem_cons.mp ht with rfl | ht
        · exact sound
        · exact sounds t ht
      · rcases List.mem_cons.mp ht with rfl | ht
        · exact next
        · have := sounds s List.mem_cons_self
          have := (List.pairwise_cons.mp ordered).1 t ht
          omega

theorem inRanges_iff (ranges : List (Nat × Nat)) (n : Nat) (h : Increasing ranges) :
    inRanges ranges n = true ↔ ∃ r ∈ ranges, r.1 ≤ n ∧ n ≤ r.2 := by
  induction ranges with
  | nil => simp [inRanges]
  | cons r rest ih =>
    obtain ⟨first, others⟩ := List.pairwise_cons.mp h.2
    have sound := h.1 r (by simp)
    have ih := ih ⟨fun s hs => h.1 s (by simp [hs]), others⟩
    simp only [inRanges, Bool.and_eq_true, Bool.or_eq_true, decide_eq_true_eq, ih, List.mem_cons]
    constructor
    · rintro ⟨hl, hh | ⟨s, hs, hn⟩⟩
      · exact ⟨r, Or.inl rfl, hl, hh⟩
      · exact ⟨s, Or.inr hs, hn⟩
    · rintro ⟨s, rfl | hs, hn⟩
      · exact ⟨hn.1, Or.inl hn.2⟩
      · have := first s hs
        exact ⟨by omega, Or.inr ⟨s, hs, hn⟩⟩

end LicenseExpr
