/-
  Reports against extended registries.

  * an extension answers for ids that were unknown before it, with the first
    of the added ids that is the same up to case (`license?_extend_cases`);
  * `filter_firstOfEach`: choosing entries by their ids may come before or
    after keeping the first one of each, so the entries that were known before
    (`filter_license?_extend`) are listed as they were;
  * `Extends` says how a report on the extended registry differs from the one
    before: known licenses stay, and unknown ids become licenses;
  * `build_extend`: so it is for every text, and the exceptions that are added
    do not matter.
-/
import LicenseExpr.Proofs.Listings

namespace LicenseExpr

instance (s t : String) : Decidable (EqualUpToCase s t) :=
  decidable_of_iff _ foldCase_eq_foldCase_iff

namespace Registry

/-- The first of the ids that is `id` up to case, which is spelled like it. -/
def FirstSpelling (ids : List String) (id : String) : Prop :=
  ∃ before after, ids = before ++ id :: after ∧ ∀ id' ∈ before, ¬ EqualUpToCase id' id

/-- **What an extended registry knows** of an id: what it knew before, or else
    the first of the added ids that is the same up to case. -/
theorem license?_extend_cases (r : Registry) (licenses exceptions : List String) (q : String) :
    (∃ e, r.license? q = some e ∧ (r.extend licenses exceptions).license? q = some e) ∨
      (∃ id, r.license? q = none ∧ (r.extend licenses exceptions).license? q = some ⟨id, false⟩ ∧
        EqualUpToCase id q ∧ FirstSpelling licenses id) ∨
      (r.license? q = none ∧ (r.extend licenses exceptions).license? q = none ∧
        ∀ id ∈ licenses, ¬ EqualUpToCase id q) := by
  rw [license?_extend]
  cases hq : r.license? q with
  | some e => exact Or.inl ⟨e, rfl, rfl⟩
  | none =>
    rw [Option.none_or]
    cases hfind : licenses.find? (sameFolded · q) with
    | none =>
      refine Or.inr (Or.inr ⟨rfl, rfl, fun id hid heq => ?_⟩)
      exact List.find?_eq_none.1 hfind id hid (sameFolded_iff.2 (foldCase_eq_foldCase_iff.2 heq))
    | some id =>
      obtain ⟨hid, before, after, hsplit, hbefore⟩ := List.find?_eq_some_iff_append.1 hfind
      have hfold : foldCase id = foldCase q := sameFolded_iff.1 hid
      have heq : EqualUpToCase id q := foldCase_eq_foldCase_iff.1 hfold
      refine Or.inr (Or.inl ⟨id, rfl, rfl, heq, before, after, hsplit, ?_⟩)
      intro id' hid' heq'
      have hsame : sameFolded id' q = true :=
        sameFolded_iff.2 ((foldCase_eq_foldCase_iff.2 heq').trans hfold)
      simpa [hsame] using hbefore id' hid'

/-- What an extended registry knows with an id that was known before. -/
theorem filter_license?_extend {r : Registry} (hr : r.Built) (licenses exceptions : List String)
    (q : String) : ((r.extend licenses exceptions).license? q).filter (r.knowsLicense ·.id) =
      r.license? q := by
  rcases license?_extend_cases r licenses exceptions q with
    ⟨e, hold, hnew⟩ | ⟨id, hold, hnew, heq, -⟩ | ⟨hold, hnew, -⟩
  · rw [hold, hnew, Option.filter_some, knowsLicense, hr.license?_id hold]
    rfl
  · rw [hold, hnew, Option.filter_some, knowsLicense, license?_congr r heq, hold]
    rfl
  · rw [hold, hnew]
    rfl

/-- **A license set only grows.** -/
theorem licenseSet_subset_extend (r : Registry) (licenses exceptions : List String) (e : Expr) :
    r.licenseSet e ⊆ (r.extend licenses exceptions).licenseSet e := by
  intro s hs
  obtain ⟨entry, hentry, rfl⟩ := List.mem_map.1 (mem_sortUnique.1 hs)
  obtain ⟨id, hid, hlook⟩ := List.mem_filterMap.1 hentry
  refine mem_sortUnique.2 (List.mem_map_of_mem (List.mem_filterMap.2 ⟨id, hid, ?_⟩))
  exact license?_extend_of_some hlook licenses exceptions

end Registry

namespace Report

open Registry

/-- Entries that are chosen by their ids may be chosen before the first one of
    each spelling is kept, or after it. -/
theorem filter_firstOfEach (p : String → Bool) (entries : List Entry) :
    (firstOfEach entries).filter (p ·.id) = firstOfEach (entries.filter (p ·.id)) := by
  induction entries using List.reverseRecOn with
  | nil => rfl
  | append_singleton entries e ih =>
    rw [List.filter_append, firstOfEach_concat]
    cases he : p e.id with
    | false =>
      rw [List.filter_cons_of_neg (by simp [he]), List.filter_nil, List.append_nil, ← ih]
      split
      · rfl
      · rw [List.filter_append, List.filter_cons_of_neg (by simp [he]), List.filter_nil,
          List.append_nil]
    | true =>
      have hkept : e.id ∈ (firstOfEach (entries.filter (p ·.id))).map (·.id) ↔
          e.id ∈ (firstOfEach entries).map (·.id) := by
        rw [← ih, List.mem_map, List.mem_map]
        refine exists_congr fun x => and_congr_left fun hx => ?_
        rw [List.mem_filter, hx, he, and_iff_left rfl]
      rw [List.filter_cons_of_pos (by simp [he]), List.filter_nil, firstOfEach_concat,
        if_congr hkept rfl rfl]
      split
      · exact ih
      · rw [List.filter_append, ih, List.filter_cons_of_pos (by simp [he]), List.filter_nil]

/-- The report `new`, against the registry `r` with the current licenses `ids`
    added, extends the report `old` against `r`. -/
structure Extends (new old : Report) (r : Registry) (ids : List String) : Prop where
  input : new.input = old.input
  status : new.status = old.status
  canonical : new.canonical = old.canonical
  error : new.error = old.error
  /-- Known licenses are listed as they were. -/
  known : new.licenses.filter (r.knowsLicense ·.id) = old.licenses
  /-- Further licenses are current, and spelled like the first added id. -/
  added : ∀ x ∈ new.licenses, r.knowsLicense x.id = false →
    x.deprecated = false ∧ FirstSpelling ids x.id ∧ ∃ id ∈ old.unknown, EqualUpToCase x.id id
  /-- Unknown ids stay so unless they have been added. -/
  unknown : new.unknown = old.unknown.filter fun id => ∀ id' ∈ ids, ¬ EqualUpToCase id' id

section
variable {r : Registry}

theorem extends_ofExpr (hr : r.Built) (licenses exceptions : List String) (input : String)
    (e : Expr) : (ofExpr input e (r.extend licenses exceptions)).Extends (ofExpr input e r) r
      licenses where
  input := rfl
  status := rfl
  canonical := rfl
  error := rfl
  known := by
    rw [ofExpr, ofExpr, filter_firstOfEach, List.filter_filterMap]
    simp only [filter_license?_extend hr]
  added := by
    intro x hx hunknown
    obtain ⟨id, hid, hlook⟩ := List.mem_filterMap.1 (mem_of_mem_firstOfEach hx)
    rcases license?_extend_cases r licenses exceptions id with
      ⟨e, hold, hnew⟩ | ⟨id', hold, hnew, heq, hfirst⟩ | ⟨-, hnew, -⟩
    · rw [hlook] at hnew
      cases hnew
      rw [knowsLicense, hr.license?_id hold] at hunknown
      cases hunknown
    · rw [hlook] at hnew
      cases hnew
      exact ⟨rfl, hfirst, id, mem_unknown_ofExpr.2 ⟨hid, hold⟩, heq⟩
    · rw [hlook] at hnew
      cases hnew
  unknown := by
    rw [ofExpr, ofExpr, List.filter_filter]
    refine List.filter_congr fun id _ => ?_
    rcases license?_extend_cases r licenses exceptions id with
      ⟨e, hold, hnew⟩ | ⟨id', hold, hnew, heq, before, after, rfl, -⟩ | ⟨hold, hnew, hnone⟩
    · simp [knowsLicense, hold, hnew]
    · have hadded : id' ∈ before ++ id' :: after := List.mem_append_right _ List.mem_cons_self
      have hfound : ¬ ∀ x ∈ before ++ id' :: after, ¬ EqualUpToCase x id :=
        fun h => h id' hadded heq
      rw [knowsLicense, hnew, decide_eq_false hfound]
      rfl
    · simpa [knowsLicense, hold, hnew] using hnone

/-- **Extending a registry only makes unknown ids known.**  Whatever is added,
    a report keeps the licenses that were known before, in their order, and
    lists further ones for ids that were unknown; license sets only grow, and
    added exceptions do not matter. -/
theorem build_extend (hr : r.Built) (input : String) (licenses exceptions : List String) :
    (build input (r.extend licenses exceptions)).Extends (build input r) r licenses ∧
      (∀ e, r.licenseSet e ⊆ (r.extend licenses exceptions).licenseSet e) ∧
        ∀ exceptions', build input (r.extend licenses exceptions') =
            build input (r.extend licenses exceptions) ∧
          ∀ e, (r.extend licenses exceptions').licenseSet e =
            (r.extend licenses exceptions).licenseSet e := by
  refine ⟨?_, licenseSet_subset_extend r licenses exceptions,
    fun exceptions' => ⟨rfl, fun _ => rfl⟩⟩
  cases h : parse input with
  | ok e =>
    rw [build_of_ok h, build_of_ok h]
    exact extends_ofExpr hr licenses exceptions input e
  | error err =>
    rw [build_of_error h, build_of_error h]
    exact ⟨rfl, rfl, rfl, rfl, rfl, nofun, rfl⟩

end

/-- An added id that is listed already changes nothing, and of two added
    spellings the first one is reported. -/
theorem build_extend_collision : ∃ r : Registry, r.Built ∧
    (build "zlib AND mit AND MIT AND Foo" r).licenses = [⟨"Zlib", true⟩] ∧
      (build "zlib AND mit AND MIT AND Foo" r).unknown = ["Foo", "MIT", "mit"] ∧
        (build "zlib AND mit AND MIT AND Foo" (r.extend ["ZLIB", "Mit", "MIT"] [])).licenses =
            [⟨"Mit", false⟩, ⟨"Zlib", true⟩] ∧
          (build "zlib AND mit AND MIT AND Foo" (r.extend ["ZLIB", "Mit", "MIT"] [])).Extends
            (build "zlib AND mit AND MIT AND Foo" r) r ["ZLIB", "Mit", "MIT"] := by
  obtain ⟨e, hparse, hids⟩ := exists_parse_two_spellings
  let r : Registry := ofEntries "3.28" [⟨"Zlib", true⟩] []
  have hr : r.Built := .ofEntries _ _ _
  have hknown : ∀ id, r.license? id =
      if foldCase "Zlib" = foldCase id then some ⟨"Zlib", true⟩ else none := by
    intro id
    simp [r, license?, ofEntries, index, Std.HashMap.getElem?_insert]
  refine ⟨r, hr, ?_, ?_, ?_, (build_extend hr _ _ _).1⟩
  all_goals
    rw [build_of_ok hparse]
    simp only [ofExpr, hids, license?_extend, knowsLicense, hknown, foldCase_eq_iff,
      sameFolded_eq_decide]
    decide

end Report

end LicenseExpr
