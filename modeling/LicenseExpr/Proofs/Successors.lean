/-
  Resolving ids again, or in another case.

  * `LicenseOutcome` and `ExceptionOutcome` say what resolving can give: an id
    that is in no table stays as it is, and what takes the place of a legacy id
    is current and without a `+`;
  * every leaf of a `Settled` tree stands for itself;
  * `resolveLicense_congr`, `resolveException_congr`: a legacy id gives the same
    tree in any case;
  * `settled_resolve`: so resolving is settled after once, and ids that are
    equal up to case are resolved alike, or both are kept.
-/
import LicenseExpr.Proofs.LetterCase
import LicenseExpr.Proofs.Lookup
import LicenseExpr.Proofs.TreeShape

namespace LicenseExpr

open Legacy

/-- A license id that is in one of the tables. -/
def IsLegacy (id : String) : Prop :=
  IsVersioned id ∨ IsCombined id

/-! ## What resolving can give -/

/-- What resolving a license id gives. -/
inductive LicenseOutcome (id : String) (plus : Bool) : Expr → Prop
  | kept : ¬ IsLegacy id → LicenseOutcome id plus (.license id plus)
  | rewritten {w} : IsVersioned id → CurrentLicense w false →
      LicenseOutcome id plus (.license w false)
  | expanded {w x} : IsCombined id → CurrentLicense w false → CurrentException x →
      LicenseOutcome id plus (.compound (.license w false) .withException (.exception x))

/-- What resolving an exception id gives. -/
inductive ExceptionOutcome (id : String) : Expr → Prop
  | kept : ¬ IsRenamed id → ExceptionOutcome id (.exception id)
  | renamed {x} : IsRenamed id → CurrentException x → ExceptionOutcome id (.exception x)

/-- Every leaf stands for itself. -/
def Settled (e : Expr) : Prop :=
  e.All (fun id plus => resolveLicense id plus = .license id plus)
    (fun id => resolveException id = .exception id)

section
variable {id id' : String} {plus : Bool} {e : Expr}

theorem licenseOutcome (id : String) (plus : Bool) :
    LicenseOutcome id plus (resolveLicense id plus) := by
  by_cases hv : IsVersioned id
  · obtain ⟨k, hk, hid⟩ := hv
    obtain ⟨v, hvm, rfl⟩ := List.mem_map.1 hk
    rw [resolveLicense_of_versioned hvm hid]
    exact .rewritten ⟨v.id, hk, hid⟩ (current_successor v hvm plus)
  by_cases hc : IsCombined id
  · obtain ⟨k, hk, hid⟩ := hc
    obtain ⟨c, hcm, rfl⟩ := List.mem_map.1 hk
    obtain ⟨v, hvm, hvc⟩ := versioned_license_combined c hcm
    rw [resolveLicense_of_combined hcm hid hvm hvc]
    exact .expanded ⟨c.id, hk, hid⟩ (current_successor v hvm plus)
      (current_exception_combined c hcm)
  · rw [resolveLicense_of_unlisted hv hc]
    exact .kept (not_or.2 ⟨hv, hc⟩)

theorem exceptionOutcome (id : String) : ExceptionOutcome id (resolveException id) := by
  by_cases hr : IsRenamed id
  · obtain ⟨k, hk, hid⟩ := hr
    obtain ⟨r, hrm, rfl⟩ := List.mem_map.1 hk
    rw [resolveException_of_mem hrm hid]
    exact .renamed ⟨r.id, hk, hid⟩ (current_exception_successor r hrm)
  · rw [resolveException_of_unlisted hr]
    exact .kept hr

theorem LicenseOutcome.settled (h : LicenseOutcome id plus e) : Settled e := by
  cases h with
  | kept hl =>
    obtain ⟨hv, hc⟩ := not_or.1 hl
    exact resolveLicense_of_unlisted hv hc plus
  | rewritten _ hw => exact resolveLicense_of_current hw
  | expanded _ hw hx => exact ⟨resolveLicense_of_current hw, resolveException_of_current hx⟩

theorem ExceptionOutcome.settled (h : ExceptionOutcome id e) : Settled e := by
  cases h with
  | kept hr => exact resolveException_of_unlisted hr
  | renamed _ hx => exact resolveException_of_current hx

/-! ## Ids in another case -/

/-- A legacy license id gives the same tree in any case. -/
theorem resolveLicense_congr (h : EqualUpToCase id id') (hl : IsLegacy id) (plus : Bool) :
    resolveLicense id' plus = resolveLicense id plus := by
  have hfold := foldCase_eq_foldCase_iff.2 h
  have hcombined : combined? id' = combined? id := by
    rw [← combined?_foldCase, ← hfold, combined?_foldCase]
  have hversioned : versioned? id' = versioned? id := by
    rw [← versioned?_foldCase, ← hfold, versioned?_foldCase]
  rw [resolveLicense, resolveLicense, hcombined]
  cases hc : combined? id with
  | some c => rfl
  | none =>
    simp only
    rw [resolveVersioned, resolveVersioned, hversioned]
    cases hv : versioned? id with
    | some v => rfl
    | none =>
      exact absurd hl (not_or.2 ⟨versioned?_eq_none_iff.1 hv, combined?_eq_none_iff.1 hc⟩)

/-- So does a legacy exception id. -/
theorem resolveException_congr (h : EqualUpToCase id id') (hr : IsRenamed id) :
    resolveException id' = resolveException id := by
  have hexception : exception? id' = exception? id := by
    rw [← exception?_foldCase, ← foldCase_eq_foldCase_iff.2 h, exception?_foldCase]
  rw [resolveException, resolveException, hexception]
  cases hx : exception? id with
  | some r => rfl
  | none => exact absurd hr (exception?_eq_none_iff.1 hx)

end

/-- **Resolving is idempotent and blind to case.**  Whatever the id, what it
    stands for is a license, or a license with an exception, that resolving
    keeps, with no `+` if it takes the place of a legacy id.  Of two ids that are
    equal up to case, both are legacy ids and stand for the same, or neither is
    and both are kept. -/
theorem settled_resolve (id : String) (plus : Bool) :
    (LicenseOutcome id plus (resolveLicense id plus) ∧ Settled (resolveLicense id plus)) ∧
    (ExceptionOutcome id (resolveException id) ∧ Settled (resolveException id)) ∧
    ∀ id', EqualUpToCase id id' →
      (IsLegacy id ∧ IsLegacy id' ∧ resolveLicense id' plus = resolveLicense id plus ∨
        ¬ IsLegacy id ∧ ¬ IsLegacy id' ∧ resolveLicense id plus = .license id plus ∧
          resolveLicense id' plus = .license id' plus) ∧
      (IsRenamed id ∧ IsRenamed id' ∧ resolveException id' = resolveException id ∨
        ¬ IsRenamed id ∧ ¬ IsRenamed id' ∧ resolveException id = .exception id ∧
          resolveException id' = .exception id') := by
  have hlicense := licenseOutcome id plus
  have hexception := exceptionOutcome id
  refine ⟨⟨hlicense, hlicense.settled⟩, ⟨hexception, hexception.settled⟩, fun id' h => ⟨?_, ?_⟩⟩
  · have hlegacy : IsLegacy id ↔ IsLegacy id' := or_congr (listed_congr h) (listed_congr h)
    by_cases hl : IsLegacy id
    · exact Or.inl ⟨hl, hlegacy.1 hl, resolveLicense_congr h hl plus⟩
    · have hl' := mt hlegacy.2 hl
      have hkept : ∀ w, ¬ IsLegacy w → resolveLicense w plus = .license w plus :=
        fun w hw => resolveLicense_of_unlisted (not_or.1 hw).1 (not_or.1 hw).2 plus
      exact Or.inr ⟨hl, hl', hkept id hl, hkept id' hl'⟩
  · have hrenamed : IsRenamed id ↔ IsRenamed id' := listed_congr h
    by_cases hr : IsRenamed id
    · exact Or.inl ⟨hr, hrenamed.1 hr, resolveException_congr h hr⟩
    · have hr' := mt hrenamed.2 hr
      exact Or.inr ⟨hr, hr', resolveException_of_unlisted hr, resolveException_of_unlisted hr'⟩

/-- A combined id in another case, with a `+` behind it. -/
theorem settled_resolve_combined :
    EqualUpToCase "gpl-2.0-WITH-classpath-exception" "GPL-2.0-with-Classpath-Exception" ∧
      resolveLicense "gpl-2.0-WITH-classpath-exception" true =
        .compound (.license "GPL-2.0-or-later" false) .withException
          (.exception "Classpath-exception-2.0") ∧
      resolveLicense "GPL-2.0-with-Classpath-Exception" true =
        resolveLicense "gpl-2.0-WITH-classpath-exception" true := by
  have hcase : EqualUpToCase "gpl-2.0-WITH-classpath-exception"
      "GPL-2.0-with-Classpath-Exception" :=
    foldCase_eq_foldCase_iff.1 (foldCase_eq_iff.2 (by decide))
  have hresolved : resolveLicense "gpl-2.0-WITH-classpath-exception" true =
      .compound (.license "GPL-2.0-or-later" false) .withException
        (.exception "Classpath-exception-2.0") :=
    resolveLicense_of_combined
      (c := ⟨"GPL-2.0-with-classpath-exception", "GPL-2.0", "Classpath-exception-2.0"⟩)
      (v := ⟨"GPL-2.0", "GPL-2.0-only", "GPL-2.0-or-later"⟩) (by simp [combined])
      (foldCase_eq_iff.2 (by decide)) (by simp [versioned]) rfl true
  refine ⟨hcase, hresolved, ?_⟩
  rcases ((settled_resolve "gpl-2.0-WITH-classpath-exception" true).2.2 _ hcase).1 with
    ⟨-, -, h⟩ | ⟨-, -, h, -⟩
  · exact h
  · rw [hresolved] at h
    cases h

end LicenseExpr
