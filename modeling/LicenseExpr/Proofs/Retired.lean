/-
  Licenses that the published list advises against.

  * `retired` are the published licenses that are advised against and that
    nothing takes the place of; the other ones that are advised against have a
    successor or a `+` in their id (`retired_or_replaced`);
  * the license ids of a tree that the parser returns are current
    (`current_of_mem_licenseIds`), and what a registry knows them as is equal
    to them up to case;
  * `retired_of_mem_licenses`: so a report calls retired licenses deprecated
    and no other ones, and never lists a license that has a successor.
-/
import LicenseExpr.Proofs.Lookup
import LicenseExpr.Proofs.Reports

namespace LicenseExpr

open Legacy

namespace Registry

/-- The published licenses that are advised against without a successor. -/
def retired : List String :=
  ["AGPL-1.0", "AGPL-3.0", "eCos-2.0", "GFDL-1.1", "GFDL-1.2", "GFDL-1.3", "Nunit",
    "StandardML-NJ", "wxWindows"]

/-- What the published list advises against is retired, has a successor, or
    cannot be written as an id because of its `+`. -/
theorem retired_or_replaced {e : Entry} (h : e ∈ publishedLicenses) (hd : e.deprecated = true) :
    e.id ∈ retired ∨ IsVersioned e.id ∨ IsCombined e.id ∨ '+' ∈ e.id.toList := by
  have hlist : ∀ e ∈ publishedLicenses, e.deprecated = true →
      e.id ∈ retired ∨ e.id ∈ versioned.map (·.id) ∨ e.id ∈ combined.map (·.id) ∨
        '+' ∈ e.id.toList := by
    decide +kernel
  rcases hlist e h hd with hr | hv | hc | hp
  · exact Or.inl hr
  · exact Or.inr (Or.inl ⟨e.id, hv, rfl⟩)
  · exact Or.inr (Or.inr (Or.inl ⟨e.id, hc, rfl⟩))
  · exact Or.inr (Or.inr (Or.inr hp))

theorem answer_published (steps : List Extension) (q : String) :
    Answer publishedLicenses (steps.flatMap (·.licenses)) q
      ((published.extendAll steps).license? q) :=
  answer_license? publishedVersion publishedLicenses publishedExceptions steps q

/-- Only what was listed is advised against: an added id is current. -/
theorem Answer.mem_listed {listed : List Entry} {added : List String} {q : String} {e : Entry}
    (h : Answer listed added q (some e)) (hd : e.deprecated = true) : e ∈ listed := by
  cases h with
  | listed hsplit => rw [hsplit]; exact List.mem_append_right _ List.mem_cons_self
  | added => cases hd

end Registry

/-! ## Ids of a tree -/

/-- A word has no `+`, and neither has a text that is equal to it up to case. -/
theorem IsWord.plus_not_mem {w id : String} (h : IsWord w) (heq : EqualUpToCase id w) :
    '+' ∉ id.toList := by
  intro hplus
  have hfold := foldCase_eq_iff.1 (foldCase_eq_foldCase_iff.2 heq)
  have hmem : Char.toLower '+' ∈ w.toList.map Char.toLower :=
    hfold ▸ List.mem_map_of_mem hplus
  obtain ⟨c, hc, hlower⟩ := List.mem_map.1 hmem
  have hid : isIdChar c = true := h.2 c hc
  cases toLower_eq_toLower_iff.1 hlower with
  | same => exact absurd hid (by decide)
  | lower h₁ _ h₃ =>
    have h₁ : 65 ≤ c.toNat := h₁
    have h₃ : 43 = c.toNat + 32 := h₃
    omega
  | upper h₁ => exact absurd h₁ (by decide)

namespace Expr
variable {L : String → Bool → Prop} {X : String → Prop} {e : Expr} {id : String}

theorem All.of_mem_leaves {orLater : Bool} (h : e.All L X)
    (hmem : Leaf.license id orLater ∈ e.leaves) : L id orLater := by
  induction e with
  | license =>
    rw [leaves_license] at hmem
    cases List.mem_singleton.1 hmem
    exact h
  | exception =>
    rw [leaves_exception] at hmem
    cases List.mem_singleton.1 hmem
  | compound l op r ihl ihr =>
    rw [leaves_compound] at hmem
    rcases List.mem_append.1 hmem with hmem | hmem
    · exact ihl h.1 hmem
    · exact ihr h.2 hmem

/-- The license ids of a parsed tree stand for themselves. -/
theorem current_of_mem_licenseIds {text : String} (h : parse text = .ok e)
    (hid : id ∈ e.licenseIds) : ∃ orLater, CurrentLicense id orLater := by
  obtain ⟨orLater, hleaf⟩ := mem_licenseIds.1 hid
  exact ⟨orLater, (canonical_of_parse h).current.of_mem_leaves hleaf⟩

end Expr

/-! ## Reports -/

namespace Report

open Registry

/-- Keeping the first entry of each spelling adds none. -/
theorem mem_of_mem_firstOfEach {entry : Entry} {entries : List Entry}
    (h : entry ∈ firstOfEach entries) : entry ∈ entries := by
  rw [firstOfEach] at h
  induction entries using List.reverseRecOn with
  | nil => exact h
  | append_singleton entries e ih =>
    rw [List.foldl_append, List.foldl_cons, List.foldl_nil] at h
    split at h
    · exact List.mem_append_left _ (ih h)
    · rcases List.mem_append.1 h with h | h
      · exact List.mem_append_left _ (ih h)
      · exact List.mem_append_right _ h

/-- A reported license is what the registry knows of an id of the tree. -/
theorem exists_of_mem_licenses {text : String} {r : Registry} {entry : Entry}
    (h : entry ∈ (build text r).licenses) :
    ∃ e id, parse text = .ok e ∧ id ∈ e.licenseIds ∧ r.license? id = some entry := by
  cases hp : parse text with
  | error err =>
    rw [build_of_error hp] at h
    cases h
  | ok e =>
    rw [build_of_ok hp] at h
    obtain ⟨id, hid, hentry⟩ := List.mem_filterMap.1 (mem_of_mem_firstOfEach h)
    exact ⟨e, id, rfl, hid, hentry⟩

/-- **A license that has a successor is never reported**, whatever the text and
    however the published registry has been extended: what a report calls
    deprecated is a retired license of the published list. -/
theorem retired_of_mem_licenses {text : String} {steps : List Extension} {entry : Entry}
    (h : entry ∈ (build text (published.extendAll steps)).licenses) :
    (entry.deprecated = true → entry ∈ publishedLicenses ∧ entry.id ∈ retired) ∧
      ¬ IsVersioned entry.id ∧ ¬ IsCombined entry.id ∧ '+' ∉ entry.id.toList := by
  obtain ⟨e, id, hparse, hid, hentry⟩ := exists_of_mem_licenses h
  obtain ⟨orLater, hname, hversioned, hcombined⟩ := Expr.current_of_mem_licenseIds hparse hid
  have hanswer := answer_published steps id
  rw [hentry] at hanswer
  have heq := hanswer.equalUpToCase
  have hversioned' : ¬ IsVersioned entry.id := mt (listed_congr heq).1 hversioned
  have hcombined' : ¬ IsCombined entry.id := mt (listed_congr heq).1 hcombined
  have hplus : '+' ∉ entry.id.toList := hname.1.plus_not_mem heq
  refine ⟨fun hd => ?_, hversioned', hcombined', hplus⟩
  have hmem := hanswer.mem_listed hd
  rcases retired_or_replaced hmem hd with hr | hv | hc | hp
  · exact ⟨hmem, hr⟩
  · exact absurd hv hversioned'
  · exact absurd hc hcombined'
  · exact absurd hp hplus

/-- A retired license in another case is deprecated, although it has been
    added again. -/
theorem retired_of_mem_licenses_again : ∃ steps : List Extension,
    ⟨"StandardML-NJ", true⟩ ∈
      (build "standardml-nj WITH Font-exception" (published.extendAll steps)).licenses ∧
    ((true = true → ⟨"StandardML-NJ", true⟩ ∈ publishedLicenses ∧ "StandardML-NJ" ∈ retired) ∧
      ¬ IsVersioned "StandardML-NJ" ∧ ¬ IsCombined "StandardML-NJ" ∧
        '+' ∉ "StandardML-NJ".toList) := by
  have hfont := @Token.Spells.id _ _ "Font-exception" false (by decide) Token.ends_nil .nil
  have htext : Token.Spells "standardml-nj WITH Font-exception".toList _ :=
    @Token.Spells.id _ _ "standardml-nj" false (by decide) (Token.ends_cons (by decide))
      (hfont.operator .withException)
  obtain ⟨ts, ht, hk⟩ := htext.tokenize_eq
  have hcurrent : resolveLicense "standardml-nj" false = .license "standardml-nj" false :=
    resolveLicense_of_current (by decide)
  have hsingle : Written.isSingle (.id "standardml-nj" false) = true :=
    congrArg Expr.isLicense hcurrent
  have hderived : Derives Written.isSingle .disjunction [.id "standardml-nj" false,
      .operator .withException, .id "Font-exception" false]
      (.excepted (.id "standardml-nj" false) "Font-exception") :=
    .disjunction (.conjunction (.excepted .id hsingle))
  have hparse := parse_of_ok ht (Machine.read_eq_ok_iff.2 ⟨_, 0, hk, hderived, by decide⟩)
  obtain ⟨x, hx⟩ := exists_resolveException "Font-exception"
  rw [Written.toExpr, Written.toExpr, hcurrent, hx] at hparse
  let steps : List Extension := [⟨["GPL-2.0", "STANDARDML-NJ"], []⟩, ⟨["Acme"], ["Acme-exception"]⟩]
  have honly : ∀ e ∈ publishedLicenses, e.id.utf8ByteSize = 13 →
      e.id.toList.map Char.toLower = "standardml-nj".toList.map Char.toLower →
        e = ⟨"StandardML-NJ", true⟩ := by
    decide +kernel
  have hknown : (published.extendAll steps).license? "standardml-nj" =
      some ⟨"StandardML-NJ", true⟩ :=
    (answer_published steps "standardml-nj").eq_some (by decide +kernel)
      (foldCase_eq_foldCase_iff.1 (foldCase_eq_iff.2 (by decide)))
      fun e he heq => honly e he heq.utf8ByteSize_eq
        (foldCase_eq_iff.1 (foldCase_eq_foldCase_iff.2 heq))
  have hids : (Expr.compound (.license "standardml-nj" false) .withException
      (.exception x)).licenseIds = ["standardml-nj"] :=
    sortUnique_eq_iff.2 ⟨List.pairwise_singleton _ _, fun s => by simp [Leaf.licenseId?]⟩
  have hmem : ⟨"StandardML-NJ", true⟩ ∈
      (build "standardml-nj WITH Font-exception" (published.extendAll steps)).licenses := by
    rw [build_of_ok hparse, ofExpr, hids, List.filterMap_cons_some hknown]
    exact List.mem_singleton_self _
  exact ⟨steps, hmem, retired_of_mem_licenses hmem⟩

end Report

end LicenseExpr
