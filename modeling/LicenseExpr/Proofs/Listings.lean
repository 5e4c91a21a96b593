/-
  What a report lists.

  * a registry is `Built` from lists of entries by any number of extensions,
    so whatever id it is asked for, the entry that it finds has this id up to
    case (`Built.equalUpToCase`) and is found under its own spelling too;
  * `firstOfEach_concat`: a further entry is kept if no other one of its
    spelling has been, so the spellings of what is kept are those of all
    entries, each once;
  * `FirstId`: the least id that is known as an entry.  `exists_firsts` says
    that the entries for ascending ids are kept in the order of these;
  * `build_accounts`: so a report lists the license set of the tree in the
    order of its ids, and each id of the tree is either listed or unknown.
-/
import LicenseExpr.Proofs.Retired

namespace LicenseExpr

namespace Registry

/-! ## Registries -/

/-- The registry has been made of lists of entries and extended. -/
inductive Built : Registry → Prop
  | ofEntries (version : String) (licenses exceptions : List Entry) :
      Built (ofEntries version licenses exceptions)
  | extend {r : Registry} (licenses exceptions : List String) :
      Built r → Built (r.extend licenses exceptions)

section
variable {r : Registry} {q q' : String} {e e' : Entry}

theorem license?_congr (r : Registry) (h : EqualUpToCase q q') : r.license? q = r.license? q' := by
  rw [license?, license?, foldCase_eq_foldCase_iff.2 h]

/-- An added id answers for what was not there before, the first one first. -/
theorem getElem?_addIds (table : Std.HashMap String Entry) (ids : List String) (q : String) :
    (addIds table ids)[foldCase q]? =
      table[foldCase q]?.or ((ids.find? (sameFolded · q)).map (⟨·, false⟩)) := by
  induction ids generalizing table with
  | nil => exact Option.or_none.symm
  | cons id ids ih =>
    rw [addIds_cons, ih, Std.HashMap.getElem?_insertIfNew, List.find?_cons]
    cases htable : table[foldCase q]? with
    | some e =>
      have hold : foldCase q ∈ table := by
        rw [Std.HashMap.mem_iff_isSome_getElem?, htable]
        rfl
      rw [if_neg fun h => h.2 (beq_iff_eq.1 h.1 ▸ hold)]
      rfl
    | none =>
      have hnew : foldCase q ∉ table := by
        rw [Std.HashMap.mem_iff_isSome_getElem?, htable]
        exact Bool.false_ne_true
      by_cases hq : foldCase id = foldCase q
      · rw [if_pos ⟨beq_iff_eq.2 hq, hq ▸ hnew⟩, sameFolded_iff.2 hq]
        rfl
      · rw [if_neg fun h => hq (beq_iff_eq.1 h.1), Bool.eq_false_iff.2 (mt sameFolded_iff.1 hq)]

theorem license?_extend (r : Registry) (licenses exceptions : List String) (q : String) :
    (r.extend licenses exceptions).license? q =
      (r.license? q).or ((licenses.find? (sameFolded · q)).map (⟨·, false⟩)) :=
  getElem?_addIds r.licenses licenses q

/-- The licenses of a registry answer for what has been listed and added. -/
theorem Built.exists_answers (h : r.Built) : ∃ listed added, Answers r.licenses listed added := by
  induction h with
  | ofEntries version licenses exceptions => exact ⟨licenses, [], answers_index licenses⟩
  | extend licenses exceptions _ ih =>
    obtain ⟨listed, added, h⟩ := ih
    exact ⟨listed, added ++ licenses, h.addIds licenses⟩

/-- **A registry finds an entry by its id**, in any case. -/
theorem Built.equalUpToCase (h : r.Built) (he : r.license? q = some e) : EqualUpToCase e.id q := by
  obtain ⟨listed, added, hanswers⟩ := h.exists_answers
  have hanswer := hanswers q
  rw [← license?, he] at hanswer
  exact hanswer.equalUpToCase

theorem Built.license?_id (h : r.Built) (he : r.license? q = some e) :
    r.license? e.id = some e := by
  rw [license?_congr r (h.equalUpToCase he), he]

/-- Entries of one spelling are the same. -/
theorem Built.eq_of_id_eq (h : r.Built) (he : r.license? q = some e)
    (he' : r.license? q' = some e') (hid : e.id = e'.id) : e = e' := by
  have hown := h.license?_id he
  rw [hid, h.license?_id he'] at hown
  exact (Option.some.inj hown).symm

end

end Registry

namespace Report

open Registry

/-! ## Keeping the first entry of each spelling -/

section
variable {entries : List Entry} {s : String}

theorem firstOfEach_concat (entries : List Entry) (e : Entry) :
    firstOfEach (entries ++ [e]) =
      if e.id ∈ (firstOfEach entries).map (·.id) then firstOfEach entries
      else firstOfEach entries ++ [e] := by
  have hany : (firstOfEach entries).any (fun k => k.id == e.id) = true ↔
      e.id ∈ (firstOfEach entries).map (·.id) := by simp
  rw [← if_congr hany rfl rfl, firstOfEach, List.foldl_append]
  rfl

/-- No spelling is lost. -/
theorem mem_map_firstOfEach : s ∈ (firstOfEach entries).map (·.id) ↔ s ∈ entries.map (·.id) := by
  induction entries using List.reverseRecOn with
  | nil => rfl
  | append_singleton entries e ih =>
    have hlast : s ∈ (entries ++ [e]).map (·.id) ↔ s ∈ entries.map (·.id) ∨ s = e.id := by simp
    rw [firstOfEach_concat, hlast]
    split
    · next h =>
      refine ih.trans (or_iff_left_of_imp ?_).symm
      rintro rfl
      exact ih.1 h
    · rw [List.map_append, List.mem_append, ih]
      simp

/-- **No spelling is kept twice.** -/
theorem nodup_firstOfEach (entries : List Entry) : ((firstOfEach entries).map (·.id)).Nodup := by
  induction entries using List.reverseRecOn with
  | nil => exact List.nodup_nil
  | append_singleton entries e ih =>
    rw [firstOfEach_concat]
    split
    · exact ih
    · next h =>
      rw [List.map_append, List.map_singleton]
      exact ih.append (List.nodup_singleton _) (List.disjoint_singleton.2 h)

end

/-! ## The order of entries -/

/-- The least of the ids that are known as the entry, in the order of bytes. -/
structure FirstId (look : String → Option Entry) (ids : List String) (x : Entry) (id : String) :
    Prop where
  mem : id ∈ ids
  known : look id = some x
  first : ∀ id' ∈ ids, look id' = some x → id' ≠ id → bytes id < bytes id'

section
variable {look : String → Option Entry} {ids : List String} {x : Entry} {id : String}

theorem FirstId.concat (h : FirstId look ids x id) {last : String} (hlast : ∀ s ∈ ids, s < last) :
    FirstId look (ids ++ [last]) x id where
  mem := List.mem_append_left _ h.mem
  known := h.known
  first := by
    intro id' hid' hlook hne
    rcases List.mem_append.1 hid' with hid' | hid'
    · exact h.first id' hid' hlook hne
    · rw [List.mem_singleton.1 hid']
      exact bytes_lt_bytes (hlast id h.mem)

/-- **Entries are kept in the order of the first ids** that are known as them. -/
theorem exists_firsts (look : String → Option Entry) (h : ids.Pairwise (· < ·)) :
    ∃ firsts, firsts.Sublist ids ∧
      List.Forall₂ (FirstId look ids) (firstOfEach (ids.filterMap look)) firsts := by
  induction ids using List.reverseRecOn with
  | nil => exact ⟨[], List.Sublist.refl [], .nil⟩
  | append_singleton ids id ih =>
    obtain ⟨hids, -, hlast⟩ := List.pairwise_append.1 h
    have hlast : ∀ s ∈ ids, s < id := fun s hs => hlast s hs id (List.mem_singleton_self id)
    obtain ⟨firsts, hsub, hfirsts⟩ := ih hids
    have hfirsts := hfirsts.imp fun x s hs => FirstId.concat hs hlast
    rw [List.filterMap_append]
    cases hlook : look id with
    | none =>
      rw [List.filterMap_cons_none hlook, List.filterMap_nil, List.append_nil]
      exact ⟨firsts, hsub.trans (List.sublist_append_left ids [id]), hfirsts⟩
    | some e =>
      rw [List.filterMap_cons_some hlook, List.filterMap_nil, firstOfEach_concat]
      split
      · exact ⟨firsts, hsub.trans (List.sublist_append_left ids [id]), hfirsts⟩
      · next hnew =>
        have hmem : id ∈ ids ++ [id] := List.mem_append_right _ (List.mem_singleton_self id)
        refine ⟨firsts ++ [id], hsub.append (List.Sublist.refl _), ?_⟩
        refine List.rel_append hfirsts (.cons ⟨hmem, hlook, fun id' hid' he hne => ?_⟩ .nil)
        -- an earlier id with this entry would have brought its spelling in
        rcases List.mem_append.1 hid' with hid' | hid'
        · refine absurd (mem_map_firstOfEach.2 ?_) hnew
          exact List.mem_map_of_mem (List.mem_filterMap.2 ⟨id', hid', he⟩)
        · exact absurd (List.mem_singleton.1 hid') hne

end

/-! ## Reports -/

/-- The lists of a report account for the license ids of a tree. -/
structure Accounts (p : Report) (e : Expr) (r : Registry) : Prop where
  nodup : (p.licenses.map (·.id)).Nodup
  licenseSet : ∀ s, s ∈ p.licenses.map (·.id) ↔ s ∈ r.licenseSet e
  flags : ∀ x ∈ p.licenses, r.license? x.id = some x
  ordered : ∃ firsts, List.Forall₂ (FirstId r.license? e.licenseIds) p.licenses firsts ∧
    firsts.Pairwise fun s t => bytes s < bytes t
  unknown : ∀ id, id ∈ p.unknown ↔ id ∈ e.licenseIds ∧ r.license? id = none
  ascending : p.unknown.Pairwise fun s t => bytes s < bytes t
  exactlyOne : ∀ id ∈ e.licenseIds,
    Xor (∃ x ∈ p.licenses, r.license? id = some x) (id ∈ p.unknown)

section
variable {r : Registry} {e : Expr}

theorem mem_unknown_ofExpr {input id : String} : id ∈ (ofExpr input e r).unknown ↔
    id ∈ e.licenseIds ∧ r.license? id = none := by
  simp [ofExpr, knowsLicense]

/-- An id that is known has its entry listed. -/
theorem mem_licenses_ofExpr (hr : r.Built) {input id : String} {x : Entry} (hid : id ∈ e.licenseIds)
    (hx : r.license? id = some x) : x ∈ (ofExpr input e r).licenses := by
  have hmem : x ∈ e.licenseIds.filterMap r.license? := List.mem_filterMap.2 ⟨id, hid, hx⟩
  obtain ⟨y, hy, hyx⟩ := List.mem_map.1 (mem_map_firstOfEach.2 (List.mem_map_of_mem hmem))
  obtain ⟨id', hid', hlook⟩ := List.mem_filterMap.1 (mem_of_mem_firstOfEach hy)
  rwa [← hr.eq_of_id_eq hlook hx hyx]

theorem accounts_ofExpr (hr : r.Built) (input : String) (e : Expr) :
    (ofExpr input e r).Accounts e r where
  nodup := nodup_firstOfEach _
  licenseSet := fun _ => mem_map_firstOfEach.trans mem_sortUnique.symm
  flags := by
    intro x hx
    obtain ⟨id, -, hlook⟩ := List.mem_filterMap.1 (mem_of_mem_firstOfEach hx)
    exact hr.license?_id hlook
  ordered := by
    have hids : e.licenseIds.Pairwise (· < ·) := pairwise_sortUnique _
    obtain ⟨firsts, hsub, hfirsts⟩ := exists_firsts r.license? hids
    exact ⟨firsts, hfirsts, (hids.sublist hsub).imp bytes_lt_bytes⟩
  unknown := fun _ => mem_unknown_ofExpr
  ascending := by
    have hids : e.licenseIds.Pairwise (· < ·) := pairwise_sortUnique _
    exact (hids.filter _).imp bytes_lt_bytes
  exactlyOne := by
    intro id hid
    rw [mem_unknown_ofExpr]
    cases hlook : r.license? id with
    | none => exact Or.inr ⟨⟨hid, rfl⟩, fun ⟨_, _, h⟩ => nomatch h⟩
    | some x => exact Or.inl ⟨⟨x, mem_licenses_ofExpr hr hid hlook, rfl⟩, fun h => nomatch h.2⟩

end

/-- An expression with one license in two spellings. -/
theorem exists_parse_two_spellings : ∃ e, parse "zlib AND mit AND MIT AND Foo" = .ok e ∧
    e.licenseIds = ["Foo", "MIT", "mit", "zlib"] := by
  have hfoo := @Token.Spells.id _ _ "Foo" false (by decide) Token.ends_nil .nil
  have hupper := @Token.Spells.id _ _ "MIT" false (by decide) (Token.ends_cons (by decide))
    (hfoo.operator .and)
  have hlower := @Token.Spells.id _ _ "mit" false (by decide) (Token.ends_cons (by decide))
    (hupper.operator .and)
  have htext : Token.Spells "zlib AND mit AND MIT AND Foo".toList _ :=
    @Token.Spells.id _ _ "zlib" false (by decide) (Token.ends_cons (by decide))
      (hlower.operator .and)
  obtain ⟨ts, ht, hk⟩ := htext.tokenize_eq
  have hparse := parse_of_ok ht (w := .compound (.compound (.compound (.id "zlib" false) .and
    (.id "mit" false)) .and (.id "MIT" false)) .and (.id "Foo" false)) (by rw [hk]; rfl)
  have hcurrent : ∀ w, CurrentLicense w false → resolveLicense w false = .license w false :=
    fun w h => resolveLicense_of_current h
  simp only [Written.toExpr, hcurrent "zlib" (by decide), hcurrent "mit" (by decide),
    hcurrent "MIT" (by decide), hcurrent "Foo" (by decide)] at hparse
  refine ⟨_, hparse, sortUnique_eq_iff.2 ⟨by decide, fun s => ?_⟩⟩
  simp [Expr.leftDeep, Expr.operands, Leaf.licenseId?]
  tauto

/-- **The lists of a report account for every license id** of the expression:
    the known ones are listed once for each spelling in the registry, which
    together are the license set, and the other ones are unknown.  A text that
    is no expression has nothing listed. -/
theorem build_accounts {r : Registry} (hr : r.Built) (input : String) :
    (∀ e, parse input = .ok e → (build input r).Accounts e r) ∧
      ∀ err, parse input = .error err →
        (build input r).licenses = [] ∧ (build input r).unknown = [] := by
  constructor
  · intro e h
    rw [build_of_ok h]
    exact accounts_ofExpr hr input e
  · intro err h
    rw [build_of_error h]
    exact ⟨rfl, rfl⟩

/-- Two spellings of one license are listed once, where the first one stands,
    although the id has been added again in a third one. -/
theorem build_accounts_again : ∃ r : Registry, ∃ e : Expr, r.Built ∧
    parse "zlib AND mit AND MIT AND Foo" = .ok e ∧
      (build "zlib AND mit AND MIT AND Foo" r).licenses = [⟨"MIT", false⟩, ⟨"Zlib", true⟩] ∧
        (build "zlib AND mit AND MIT AND Foo" r).Accounts e r := by
  obtain ⟨e, hparse, hids⟩ := exists_parse_two_spellings
  let r : Registry := (ofEntries "3.28" [⟨"MIT", false⟩, ⟨"Zlib", true⟩] []).extend ["mIT"] []
  have hr : r.Built := .extend _ _ (.ofEntries _ _ _)
  have hknown : ∀ id, r.license? id = (if foldCase "Zlib" = foldCase id then some ⟨"Zlib", true⟩
      else if foldCase "MIT" = foldCase id then some ⟨"MIT", false⟩ else none).or
        ((["mIT"].find? (sameFolded · id)).map (⟨·, false⟩)) := by
    intro id
    rw [license?_extend]
    simp [license?, ofEntries, index, Std.HashMap.getElem?_insert]
  refine ⟨r, e, hr, hparse, ?_, (build_accounts hr _).1 e hparse⟩
  rw [build_of_ok hparse]
  simp only [ofExpr, hids, hknown, foldCase_eq_iff, sameFolded_eq_decide]
  decide

end Report

end LicenseExpr
