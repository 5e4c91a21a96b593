/-
  Which ids are legacy ids, and what becomes of the others.

  * `Listed keys id`: the id is one of the keys up to ASCII case; the three
    tables give `IsCombined`, `IsVersioned` and `IsRenamed`;
  * `resolveVersioned_cases`, `resolveLicense_cases` and
    `resolveException_cases` say all that resolving an id can do;
  * `CurrentLicense` and `CurrentException` are the ids that resolving keeps;
    all that the tables put in place of an id is current.
-/
import LicenseExpr.Legacy
import LicenseExpr.Proofs.Spelling

namespace LicenseExpr

theorem foldCase_eq_iff {s t : String} :
    foldCase s = foldCase t ↔ s.toList.map Char.toLower = t.toList.map Char.toLower := by
  rw [← String.toList_inj, toList_foldCase, toList_foldCase]

theorem sameFolded_eq_decide (s t : String) :
    sameFolded s t = decide (s.toList.map Char.toLower = t.toList.map Char.toLower) := by
  rw [Bool.eq_iff_iff, sameFolded_iff, decide_eq_true_iff, foldCase_eq_iff]

/-! ## Names that can be checked -/

theorem ofWord?_eq_none_iff {w : String} :
    Operator.ofWord? w = none ↔ ∀ op : Operator, w ≠ op.word := by
  rw [Option.eq_none_iff_forall_ne_some]
  exact forall_congr' fun op => not_congr Operator.ofWord?_eq_some_iff

instance (w : String) : Decidable (IsName w) :=
  decidable_of_iff (IsWord w ∧ Operator.ofWord? w = none)
    (and_congr_right fun _ => ofWord?_eq_none_iff)

instance (w : String) (plus : Bool) : Decidable (IsLicenseName w plus) :=
  decidable_of_iff (IsWord w ∧ (plus = false → Operator.ofWord? w = none))
    (and_congr_right fun _ => imp_congr_right fun _ => ofWord?_eq_none_iff)

namespace Legacy

/-! ## Listed ids -/

/-- One of the keys, up to ASCII case. -/
def Listed (keys : List String) (id : String) : Prop :=
  ∃ k ∈ keys, foldCase k = foldCase id

instance (keys : List String) (id : String) : Decidable (Listed keys id) :=
  decidable_of_iff (∃ k ∈ keys, k.toList.map Char.toLower = id.toList.map Char.toLower)
    (exists_congr fun _ => and_congr_right fun _ => foldCase_eq_iff.symm)

/-- An id that stands for a license with an exception. -/
abbrev IsCombined (id : String) : Prop :=
  Listed (combined.map (·.id)) id

/-- A license id that was split into two. -/
abbrev IsVersioned (id : String) : Prop :=
  Listed (versioned.map (·.id)) id

/-- An exception id that has another name now. -/
abbrev IsRenamed (id : String) : Prop :=
  Listed (exceptions.map (·.id)) id

/-- Looking for a key finds nothing exactly if the id is not listed. -/
theorem find?_eq_none_iff {α : Type} (key : α → String) (l : List α) (id : String) :
    l.find? (fun a => sameFolded (key a) id) = none ↔ ¬ Listed (l.map key) id := by
  rw [List.find?_eq_none]
  constructor
  · rintro h ⟨k, hk, he⟩
    obtain ⟨a, ha, rfl⟩ := List.mem_map.1 hk
    exact h a ha (sameFolded_iff.2 he)
  · intro h a ha he
    exact h ⟨key a, List.mem_map_of_mem ha, sameFolded_iff.1 he⟩

/-- Keys of which no two are equal up to ASCII case. -/
def Apart (keys : List String) : Prop :=
  keys.Pairwise fun k l => foldCase k ≠ foldCase l

instance (keys : List String) : Decidable (Apart keys) :=
  decidable_of_iff
    (keys.Pairwise fun k l => k.toList.map Char.toLower ≠ l.toList.map Char.toLower)
    (List.Pairwise.iff fun _ _ => not_congr foldCase_eq_iff.symm)

/-- Looking for a key finds the entry that has it, if keys are apart. -/
theorem find?_eq_some_iff {α : Type} {key : α → String} {l : List α} (hl : Apart (l.map key))
    {id : String} {a : α} : l.find? (fun a => sameFolded (key a) id) = some a ↔
      a ∈ l ∧ foldCase (key a) = foldCase id := by
  constructor
  · intro h
    have hk := List.find?_some h
    exact ⟨List.mem_of_find?_eq_some h, sameFolded_iff.1 hk⟩
  · rintro ⟨ha, hk⟩
    induction l with
    | nil => cases ha
    | cons b l ih =>
      obtain ⟨hb, hl⟩ := List.pairwise_cons.1 hl
      rw [List.find?_cons]
      rcases List.mem_cons.1 ha with rfl | ha
      · rw [sameFolded_iff.2 hk]
      · have hne : foldCase (key b) ≠ foldCase (key a) := hb _ (List.mem_map_of_mem ha)
        rw [Bool.eq_false_iff.2 (mt sameFolded_iff.1 (hk ▸ hne))]
        exact ih hl ha

theorem combined?_eq_some_iff {id : String} {c : Combined} :
    combined? id = some c ↔ c ∈ combined ∧ foldCase c.id = foldCase id :=
  find?_eq_some_iff (by decide)

theorem versioned?_eq_some_iff {id : String} {v : Versioned} :
    versioned? id = some v ↔ v ∈ versioned ∧ foldCase v.id = foldCase id :=
  find?_eq_some_iff (by decide)

theorem exception?_eq_some_iff {id : String} {r : Renamed} :
    exception? id = some r ↔ r ∈ exceptions ∧ foldCase r.id = foldCase id :=
  find?_eq_some_iff (by decide)

theorem combined?_eq_none_iff {id : String} : combined? id = none ↔ ¬ IsCombined id :=
  find?_eq_none_iff Combined.id combined id

theorem versioned?_eq_none_iff {id : String} : versioned? id = none ↔ ¬ IsVersioned id :=
  find?_eq_none_iff Versioned.id versioned id

theorem exception?_eq_none_iff {id : String} : exception? id = none ↔ ¬ IsRenamed id :=
  find?_eq_none_iff Renamed.id exceptions id

end Legacy

open Legacy

/-! ## What resolving can do -/

theorem resolveVersioned_cases (id : String) (plus : Bool) :
    (∃ v ∈ versioned, resolveVersioned id plus = .license (v.successor plus) false) ∨
      (¬ IsVersioned id ∧ resolveVersioned id plus = .license id plus) := by
  cases h : versioned? id with
  | some v => exact Or.inl ⟨v, List.mem_of_find?_eq_some h, by rw [resolveVersioned, h]⟩
  | none => exact Or.inr ⟨versioned?_eq_none_iff.1 h, by rw [resolveVersioned, h]⟩

theorem resolveLicense_cases (id : String) (plus : Bool) :
    (∃ c ∈ combined, resolveLicense id plus =
      .compound (resolveVersioned c.license plus) .withException (.exception c.exception)) ∨
      (¬ IsCombined id ∧ resolveLicense id plus = resolveVersioned id plus) := by
  cases h : combined? id with
  | some c => exact Or.inl ⟨c, List.mem_of_find?_eq_some h, by rw [resolveLicense, h]⟩
  | none => exact Or.inr ⟨combined?_eq_none_iff.1 h, by rw [resolveLicense, h]⟩

theorem resolveException_cases (id : String) :
    (∃ r ∈ exceptions, resolveException id = .exception r.successor) ∨
      (¬ IsRenamed id ∧ resolveException id = .exception id) := by
  cases h : exception? id with
  | some r => exact Or.inl ⟨r, List.mem_of_find?_eq_some h, by rw [resolveException, h]⟩
  | none => exact Or.inr ⟨exception?_eq_none_iff.1 h, by rw [resolveException, h]⟩

theorem resolveVersioned_of_mem {id : String} {v : Versioned} (hv : v ∈ versioned)
    (h : foldCase v.id = foldCase id) (plus : Bool) :
    resolveVersioned id plus = .license (v.successor plus) false := by
  rw [resolveVersioned, versioned?_eq_some_iff.2 ⟨hv, h⟩]

theorem resolveLicense_of_mem {id : String} {c : Combined} (hc : c ∈ combined)
    (h : foldCase c.id = foldCase id) (plus : Bool) : resolveLicense id plus =
      .compound (resolveVersioned c.license plus) .withException (.exception c.exception) := by
  rw [resolveLicense, combined?_eq_some_iff.2 ⟨hc, h⟩]

/-- A combined id becomes a current license with an exception. -/
theorem resolveLicense_of_combined {id : String} {c : Combined} {v : Versioned} (hc : c ∈ combined)
    (h : foldCase c.id = foldCase id) (hv : v ∈ versioned) (hvc : v.id = c.license) (plus : Bool) :
    resolveLicense id plus =
      .compound (.license (v.successor plus) false) .withException (.exception c.exception) := by
  rw [resolveLicense_of_mem hc h, resolveVersioned_of_mem hv (congrArg foldCase hvc)]

/-- An id that is in neither table is kept. -/
theorem resolveLicense_of_unlisted {id : String} (hv : ¬ IsVersioned id) (hc : ¬ IsCombined id)
    (plus : Bool) : resolveLicense id plus = .license id plus := by
  rw [resolveLicense, combined?_eq_none_iff.2 hc]
  simp only
  rw [resolveVersioned, versioned?_eq_none_iff.2 hv]

theorem resolveException_of_unlisted {id : String} (h : ¬ IsRenamed id) :
    resolveException id = .exception id := by
  rw [resolveException, exception?_eq_none_iff.2 h]

theorem resolveException_of_mem {id : String} {r : Renamed} (hr : r ∈ exceptions)
    (h : foldCase r.id = foldCase id) : resolveException id = .exception r.successor := by
  rw [resolveException, exception?_eq_some_iff.2 ⟨hr, h⟩]

/-- An id that is looked up as a versioned one becomes a single license. -/
theorem exists_resolveVersioned (id : String) (plus : Bool) :
    ∃ w p, resolveVersioned id plus = .license w p := by
  rcases resolveVersioned_cases id plus with ⟨v, -, h⟩ | ⟨-, h⟩
  · exact ⟨_, _, h⟩
  · exact ⟨_, _, h⟩

theorem exists_resolveException (id : String) : ∃ x, resolveException id = .exception x := by
  rcases resolveException_cases id with ⟨r, -, h⟩ | ⟨-, h⟩
  · exact ⟨_, h⟩
  · exact ⟨_, h⟩

/-- An id becomes a single license, with an exception to it or without. -/
theorem exists_resolveLicense (id : String) (plus : Bool) : ∃ w p,
    resolveLicense id plus = .license w p ∨
      ∃ x, resolveLicense id plus = .compound (.license w p) .withException (.exception x) := by
  rcases resolveLicense_cases id plus with ⟨c, -, h⟩ | ⟨-, h⟩
  · obtain ⟨w, p, hw⟩ := exists_resolveVersioned c.license plus
    exact ⟨w, p, Or.inr ⟨c.exception, by rw [h, hw]⟩⟩
  · obtain ⟨w, p, hw⟩ := exists_resolveVersioned id plus
    exact ⟨w, p, Or.inl (h.trans hw)⟩

theorem isLicense_resolveLicense {id : String} (h : ¬ IsCombined id) (plus : Bool) :
    (resolveLicense id plus).isLicense = true := by
  obtain ⟨w, p, hw⟩ := exists_resolveVersioned id plus
  rw [resolveLicense, combined?_eq_none_iff.2 h]
  simp only
  rw [hw, Expr.isLicense]

/-! ## Current ids -/

/-- A license id that stands for itself. -/
def CurrentLicense (id : String) (plus : Bool) : Prop :=
  IsLicenseName id plus ∧ ¬ IsVersioned id ∧ ¬ IsCombined id

/-- An exception id that stands for itself. -/
def CurrentException (id : String) : Prop :=
  IsName id ∧ ¬ IsRenamed id

instance (id : String) (plus : Bool) : Decidable (CurrentLicense id plus) :=
  inferInstanceAs (Decidable (IsLicenseName id plus ∧ ¬ IsVersioned id ∧ ¬ IsCombined id))

instance (id : String) : Decidable (CurrentException id) :=
  inferInstanceAs (Decidable (IsName id ∧ ¬ IsRenamed id))

theorem resolveLicense_of_current {id : String} {plus : Bool} (h : CurrentLicense id plus) :
    resolveLicense id plus = .license id plus :=
  resolveLicense_of_unlisted h.2.1 h.2.2 plus

theorem resolveException_of_current {id : String} (h : CurrentException id) :
    resolveException id = .exception id :=
  resolveException_of_unlisted h.2

/-- The successors of a versioned id are current. -/
theorem current_successor :
    ∀ v ∈ versioned, ∀ plus, CurrentLicense (v.successor plus) false := by
  decide

/-- The license half of a combined id is no combined id again. -/
theorem license_combined :
    ∀ c ∈ combined, ∀ plus, IsLicenseName c.license plus ∧ ¬ IsCombined c.license := by
  decide

/-- The license half of a combined id has two successors. -/
theorem versioned_license_combined : ∀ c ∈ combined, ∃ v ∈ versioned, v.id = c.license := by
  decide

/-- No id is both combined and split in two. -/
theorem not_isCombined_versioned : ∀ v ∈ versioned, ¬ IsCombined v.id := by
  decide

/-- An id that was split in two becomes its successor, whatever its case. -/
theorem resolveLicense_of_versioned {id : String} {v : Versioned} (hv : v ∈ versioned)
    (h : foldCase v.id = foldCase id) (plus : Bool) :
    resolveLicense id plus = .license (v.successor plus) false := by
  have hc : ¬ IsCombined id := by
    rintro ⟨key, hkey, hid⟩
    exact not_isCombined_versioned v hv ⟨key, hkey, hid.trans h.symm⟩
  rw [resolveLicense, combined?_eq_none_iff.2 hc]
  exact resolveVersioned_of_mem hv h plus

theorem current_exception_combined : ∀ c ∈ combined, CurrentException c.exception := by
  decide

theorem current_exception_successor : ∀ r ∈ exceptions, CurrentException r.successor := by
  decide

/-- An id that is no combined id becomes one current license. -/
theorem resolveVersioned_current {id : String} {plus : Bool} (hn : IsLicenseName id plus)
    (hc : ¬ IsCombined id) : ∃ w p, resolveVersioned id plus = .license w p ∧
      CurrentLicense w p := by
  rcases resolveVersioned_cases id plus with ⟨v, hv, h⟩ | ⟨hv, h⟩
  · exact ⟨_, _, h, current_successor v hv plus⟩
  · exact ⟨_, _, h, hn, hv, hc⟩

theorem resolveException_current {id : String} (hn : IsName id) :
    ∃ x, resolveException id = .exception x ∧ CurrentException x := by
  rcases resolveException_cases id with ⟨r, hr, h⟩ | ⟨hr, h⟩
  · exact ⟨_, h, current_exception_successor r hr⟩
  · exact ⟨_, h, hn, hr⟩

end LicenseExpr
