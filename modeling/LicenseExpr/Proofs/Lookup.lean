/-
  What registries know, however they were built.

  * `EqualUpToCase`: texts that differ at most in the case of ASCII letters,
    which is what folding forgets (`foldCase_eq_foldCase_iff`);
  * `Answer listed added q`: what is known of `q` when entries have been
    listed and ids have been added behind them; of listed entries the last
    one counts, of added ids the first one, and listed entries come first;
  * `Answers.insert` and `Answers.insertIfNew`: an entry that is put into a
    table makes its answers those of a longer list; `Counts.step` says how
    many entries there are then;
  * `lookup_extendAll`: so a registry answers for all that it was ever given,
    in however many extensions, and counts ids up to case.
-/
import LicenseExpr.Proofs.ByteOrder
import LicenseExpr.Proofs.LegacyIds
import LicenseExpr.Registry
import Mathlib.Data.List.Forall2
import Mathlib.Data.List.Induction
import Mathlib.Tactic.SplitIfs

namespace LicenseExpr

/-! ## Letters -/

/-- The same character, or an ASCII letter in its other case. -/
inductive CaseVariant : Char → Char → Prop
  | same {c} : CaseVariant c c
  | lower {c d} : 'A' ≤ c → c ≤ 'Z' → d.toNat = c.toNat + 32 → CaseVariant c d
  | upper {c d} : 'A' ≤ d → d ≤ 'Z' → c.toNat = d.toNat + 32 → CaseVariant c d

/-- Equal up to the case of ASCII letters, character by character. -/
def EqualUpToCase (s t : String) : Prop :=
  List.Forall₂ CaseVariant s.toList t.toList

namespace CaseVariant
variable {c d : Char}

theorem same_or_ascii (h : CaseVariant c d) : c = d ∨ c.toNat < 128 ∧ d.toNat < 128 := by
  cases h with
  | same => exact Or.inl rfl
  | lower _ h₂ h₃ | upper _ h₂ h₃ =>
    have h₂ : Char.toNat _ ≤ 90 := h₂
    exact Or.inr ⟨by omega, by omega⟩

theorem utf8Size_eq (h : CaseVariant c d) : c.utf8Size = d.utf8Size := by
  have one : ∀ a : Char, a.toNat < 128 → a.utf8Size = 1 := fun a ha =>
    Char.utf8Size_eq_one_iff.2 (Nat.le_of_lt_succ ha)
  rcases h.same_or_ascii with rfl | ⟨hc, hd⟩
  · rfl
  · rw [one c hc, one d hd]

end CaseVariant

theorem toNat_toLower (c : Char) :
    c.toLower.toNat = if 65 ≤ c.toNat ∧ c.toNat ≤ 90 then c.toNat + 32 else c.toNat := by
  have h := congrArg UInt32.toNat (val_toLower c)
  rw [apply_ite UInt32.toNat] at h
  simp only [ge_iff_le, UInt32.le_iff_toNat_le, UInt32.toNat_add] at h
  show c.toLower.val.toNat = _
  rw [h]
  show (if 65 ≤ c.toNat ∧ c.toNat ≤ 90 then (c.toNat + 32) % 4294967296 else c.toNat) = _
  split
  · omega
  · rfl

theorem toLower_eq_toLower_iff {c d : Char} : c.toLower = d.toLower ↔ CaseVariant c d := by
  rw [← Char.toNat_inj, toNat_toLower, toNat_toLower]
  constructor
  · intro h
    by_cases hc : 65 ≤ c.toNat ∧ c.toNat ≤ 90
    · rw [if_pos hc] at h
      split_ifs at h with hd
      · rw [Char.toNat_inj.1 (Nat.add_right_cancel h)]
        exact .same
      · exact .lower hc.1 hc.2 h.symm
    · rw [if_neg hc] at h
      split_ifs at h with hd
      · exact .upper hd.1 hd.2 h
      · rw [Char.toNat_inj.1 h]
        exact .same
  · intro h
    cases h with
    | same => rfl
    | lower h₁ h₂ h₃ | upper h₁ h₂ h₃ =>
      have h₁ : 65 ≤ Char.toNat _ := h₁
      have h₂ : Char.toNat _ ≤ 90 := h₂
      split_ifs <;> omega

/-- **Folding forgets the case of ASCII letters** and nothing else. -/
theorem foldCase_eq_foldCase_iff {s t : String} : foldCase s = foldCase t ↔ EqualUpToCase s t := by
  rw [foldCase_eq_iff, EqualUpToCase, ← List.forall₂_eq_eq_eq, List.forall₂_map_left_iff,
    List.forall₂_map_right_iff]
  simp only [toLower_eq_toLower_iff]

namespace EqualUpToCase
variable {s t : String}

theorem refl (s : String) : EqualUpToCase s s :=
  foldCase_eq_foldCase_iff.1 rfl

/-- Characters outside of ASCII are the same in both texts, at the same
    places. -/
theorem same_or_ascii (h : EqualUpToCase s t) :
    List.Forall₂ (fun c d => c = d ∨ c.toNat < 128 ∧ d.toNat < 128) s.toList t.toList :=
  List.Forall₂.imp (fun _ _ => CaseVariant.same_or_ascii) h

theorem utf8ByteSize_eq (h : EqualUpToCase s t) : s.utf8ByteSize = t.utf8ByteSize := by
  have hsize : ∀ {cs ds : List Char}, List.Forall₂ CaseVariant cs ds →
      total Char.utf8Size cs = total Char.utf8Size ds := by
    intro cs ds h
    induction h with
    | nil => rfl
    | cons hcd _ ih => rw [total_cons, total_cons, hcd.utf8Size_eq, ih]
  rw [utf8ByteSize_eq_total, utf8ByteSize_eq_total, hsize h]

end EqualUpToCase

theorem Legacy.listed_congr {keys : List String} {id id' : String} (h : EqualUpToCase id id') :
    Listed keys id ↔ Listed keys id' := by
  rw [Listed, Listed, foldCase_eq_foldCase_iff.2 h]

namespace Registry

/-! ## Answers -/

/-- What is known of the id `q` when the entries `listed` and, behind them, the
    current ids `added` have been given. -/
inductive Answer (listed : List Entry) (added : List String) (q : String) : Option Entry → Prop
  /-- The last listed entry with this id. -/
  | listed {before e after} : listed = before ++ e :: after → EqualUpToCase e.id q →
      (∀ e' ∈ after, ¬ EqualUpToCase e'.id q) → Answer listed added q (some e)
  /-- No entry has this id, and this is the first one to be added. -/
  | added {before id after} : (∀ e ∈ listed, ¬ EqualUpToCase e.id q) →
      added = before ++ id :: after → EqualUpToCase id q →
      (∀ id' ∈ before, ¬ EqualUpToCase id' q) → Answer listed added q (some ⟨id, false⟩)
  | unknown : (∀ e ∈ listed, ¬ EqualUpToCase e.id q) →
      (∀ id ∈ added, ¬ EqualUpToCase id q) → Answer listed added q none

/-- A table gives the answers of what is listed and added. -/
def Answers (table : Std.HashMap String Entry) (listed : List Entry) (added : List String) : Prop :=
  ∀ q, Answer listed added q table[foldCase q]?

section
variable {table : Std.HashMap String Entry} {listed : List Entry} {added : List String}

/-- Only an entry that has the id is known of it. -/
theorem Answer.equalUpToCase {q : String} {e : Entry} (h : Answer listed added q (some e)) :
    EqualUpToCase e.id q := by
  cases h with
  | listed _ heq _ | added _ _ heq _ => exact heq

theorem filter_sameFolded_eq_nil {α : Type} {q : String} (f : α → String) {l : List α}
    (h : ∀ a ∈ l, ¬ EqualUpToCase (f a) q) : l.filter (fun a => sameFolded (f a) q) = [] :=
  List.filter_eq_nil_iff.2 fun a ha hc => h a ha (foldCase_eq_foldCase_iff.1 (sameFolded_iff.1 hc))

/-- The answer can be searched for. -/
theorem Answer.eq_search {q : String} {x : Option Entry} (h : Answer listed added q x) :
    x = (listed.filter (sameFolded ·.id q)).getLast?.or
      ((added.filter (sameFolded · q)).head?.map (⟨·, false⟩)) := by
  have here : ∀ {id}, EqualUpToCase id q → sameFolded id q = true := fun h =>
    sameFolded_iff.2 (foldCase_eq_foldCase_iff.2 h)
  cases h with
  | listed hsplit heq hafter =>
    rw [hsplit, List.filter_append, List.filter_cons, if_pos (here heq),
      filter_sameFolded_eq_nil Entry.id hafter, List.getLast?_concat, Option.some_or]
  | added hlisted hsplit heq hbefore =>
    rw [filter_sameFolded_eq_nil Entry.id hlisted, hsplit, List.filter_append,
      filter_sameFolded_eq_nil (·) hbefore, List.filter_cons, if_pos (here heq)]
    rfl
  | unknown hlisted hadded =>
    rw [filter_sameFolded_eq_nil Entry.id hlisted, filter_sameFolded_eq_nil (·) hadded]
    rfl

/-- The only listed entry with the id is the answer. -/
theorem Answer.eq_some {q : String} {x : Option Entry} {e : Entry} (h : Answer listed added q x)
    (he : e ∈ listed) (heq : EqualUpToCase e.id q)
    (honly : ∀ e' ∈ listed, EqualUpToCase e'.id q → e' = e) : x = some e := by
  cases h with
  | listed hsplit heq' =>
    rw [honly _ (hsplit ▸ List.mem_append_right _ List.mem_cons_self) heq']
  | added hnone | unknown hnone => exact absurd heq (hnone e he)

/-- There is one answer only. -/
theorem Answer.unique {q : String} {x y : Option Entry} (hx : Answer listed added q x)
    (hy : Answer listed added q y) : x = y :=
  hx.eq_search.trans hy.eq_search.symm

theorem Answers.empty : Answers ∅ [] [] := by
  intro q
  rw [Std.HashMap.getElem?_empty]
  exact .unknown (List.forall_mem_nil _) (List.forall_mem_nil _)

/-- An entry that replaces what was there is the last one of its id. -/
theorem Answers.insert (h : Answers table listed []) (e : Entry) :
    Answers (table.insert (foldCase e.id) e) (listed ++ [e]) [] := by
  intro q
  rw [Std.HashMap.getElem?_insert]
  by_cases he : EqualUpToCase e.id q
  · rw [if_pos (beq_iff_eq.2 (foldCase_eq_foldCase_iff.2 he))]
    exact .listed rfl he (List.forall_mem_nil _)
  · rw [if_neg fun hc => he (foldCase_eq_foldCase_iff.1 (beq_iff_eq.1 hc))]
    have hq := h q
    generalize table[foldCase q]? = answer at hq
    have hlast : ∀ l : List Entry, (∀ e' ∈ l, ¬ EqualUpToCase e'.id q) →
        ∀ e' ∈ l ++ [e], ¬ EqualUpToCase e'.id q := fun l hl =>
      List.forall_mem_append.2 ⟨hl, List.forall_mem_singleton.2 he⟩
    cases hq with
    | @listed before e' after hsplit heq hafter =>
      have hsplit' : listed ++ [e] = before ++ e' :: (after ++ [e]) := by
        rw [hsplit, List.append_assoc, List.cons_append]
      exact .listed hsplit' heq (hlast _ hafter)
    | added _ hsplit => exact absurd hsplit.symm (List.append_ne_nil_of_right_ne_nil _ nofun)
    | unknown hnone => exact .unknown (hlast _ hnone) (List.forall_mem_nil _)

/-- An id that leaves alone what was there is the last one to be added. -/
theorem Answers.insertIfNew (h : Answers table listed added) (id : String) :
    Answers (table.insertIfNew (foldCase id) ⟨id, false⟩) listed (added ++ [id]) := by
  intro q
  have hq := h q
  rw [Std.HashMap.getElem?_insertIfNew]
  cases hanswer : table[foldCase q]? with
  | none =>
    rw [hanswer] at hq
    cases hq with
    | unknown hlisted hadded =>
      by_cases heq : foldCase id = foldCase q
      · have hnew : foldCase id ∉ table := by
          rw [heq, Std.HashMap.mem_iff_isSome_getElem?, hanswer]
          exact Bool.false_ne_true
        rw [if_pos ⟨beq_iff_eq.2 heq, hnew⟩]
        exact .added hlisted rfl (foldCase_eq_foldCase_iff.1 heq) hadded
      · rw [if_neg fun hc => heq (beq_iff_eq.1 hc.1)]
        refine .unknown hlisted (List.forall_mem_append.2 ⟨hadded, ?_⟩)
        exact List.forall_mem_singleton.2 (mt foldCase_eq_foldCase_iff.2 heq)
  | some e =>
    have hold : ¬ ((foldCase id == foldCase q) = true ∧ foldCase id ∉ table) := by
      rintro ⟨heq, hnew⟩
      rw [beq_iff_eq.1 heq, Std.HashMap.mem_iff_isSome_getElem?, hanswer] at hnew
      exact hnew rfl
    rw [if_neg hold]
    rw [hanswer] at hq
    cases hq with
    | listed hsplit heq hafter => exact .listed hsplit heq hafter
    | @added before id' after hlisted hsplit heq hbefore =>
      have hsplit' : added ++ [id] = before ++ id' :: (after ++ [id]) := by
        rw [hsplit, List.append_assoc, List.cons_append]
      exact .added hlisted hsplit' heq hbefore

/-- **A table that is made of a list answers with its last entries.** -/
theorem answers_index (listed : List Entry) : Answers (index listed) listed [] := by
  rw [index]
  induction listed using List.reverseRecOn with
  | nil => exact .empty
  | append_singleton listed e ih =>
    rw [List.foldl_append]
    exact ih.insert e

/-- **Added ids answer for what is not listed**, the first ones first. -/
theorem Answers.addIds (h : Answers table listed added) (ids : List String) :
    Answers (addIds table ids) listed (added ++ ids) := by
  induction ids generalizing table added with
  | nil =>
    rw [List.append_nil]
    exact h
  | cons id ids ih =>
    rw [addIds_cons, List.append_cons]
    exact ih (h.insertIfNew id)

end

/-! ## Numbers of entries -/

/-- Of ids that are equal up to case, `reps` has exactly one. -/
structure OneOfEach (reps ids : List String) : Prop where
  members : ∀ s ∈ reps, s ∈ ids
  apart : reps.Pairwise fun s t => ¬ EqualUpToCase s t
  covers : ∀ id ∈ ids, ∃ s ∈ reps, EqualUpToCase s id

/-- A table has one entry for each of `ids` up to case. -/
def Counts (table : Std.HashMap String Entry) (ids : List String) : Prop :=
  ∃ reps, OneOfEach reps ids ∧ table.size = reps.length ∧
    ∀ q, foldCase q ∈ table ↔ ∃ s ∈ reps, EqualUpToCase s q

section
variable {table table' : Std.HashMap String Entry} {ids : List String}

theorem Counts.empty : Counts ∅ [] :=
  ⟨[], ⟨nofun, .nil, nofun⟩, Std.HashMap.size_empty, fun _ => by simp⟩

/-- A further id makes a further entry, unless it is there up to case. -/
theorem Counts.step {id : String} (h : Counts table ids)
    (hmem : ∀ key, key ∈ table' ↔ foldCase id = key ∨ key ∈ table)
    (hsize : table'.size = if foldCase id ∈ table then table.size else table.size + 1) :
    Counts table' (ids ++ [id]) := by
  obtain ⟨reps, ⟨hmembers, hapart, hcovers⟩, hlength, hkeys⟩ := h
  by_cases hid : foldCase id ∈ table
  · rw [if_pos hid, hlength] at hsize
    refine ⟨reps, ⟨fun s hs => List.mem_append_left _ (hmembers s hs), hapart, ?_⟩, hsize,
      fun q => ?_⟩
    · exact List.forall_mem_append.2 ⟨hcovers, List.forall_mem_singleton.2 ((hkeys id).1 hid)⟩
    · rw [hmem, hkeys, or_iff_right_of_imp]
      intro heq
      exact (hkeys q).1 (heq ▸ hid)
  · rw [if_neg hid, hlength] at hsize
    have hnew : ∀ s ∈ reps, ¬ EqualUpToCase s id := fun s hs heq => hid ((hkeys id).2 ⟨s, hs, heq⟩)
    refine ⟨reps ++ [id], ⟨?_, ?_, ?_⟩, by rw [hsize, List.length_append]; rfl, fun q => ?_⟩
    · exact List.forall_mem_append.2 ⟨fun s hs => List.mem_append_left _ (hmembers s hs),
        List.forall_mem_singleton.2 (List.mem_append_right _ List.mem_cons_self)⟩
    · exact List.pairwise_append.2 ⟨hapart, List.pairwise_singleton _ _, fun s hs t ht =>
        List.mem_singleton.1 ht ▸ hnew s hs⟩
    · refine List.forall_mem_append.2 ⟨fun t ht => ?_, List.forall_mem_singleton.2 ?_⟩
      · obtain ⟨s, hs, heq⟩ := hcovers t ht
        exact ⟨s, List.mem_append_left _ hs, heq⟩
      · exact ⟨id, List.mem_append_right _ List.mem_cons_self, .refl id⟩
    · rw [hmem, hkeys, foldCase_eq_foldCase_iff]
      simp only [List.mem_append, List.mem_singleton, or_and_right, exists_or, exists_eq_left]
      exact or_comm

theorem counts_index (listed : List Entry) : Counts (index listed) (listed.map (·.id)) := by
  rw [index]
  induction listed using List.reverseRecOn with
  | nil => exact .empty
  | append_singleton listed e ih =>
    rw [List.foldl_append, List.map_append]
    exact ih.step (fun key => Std.HashMap.mem_insert.trans (or_congr_left beq_iff_eq))
      Std.HashMap.size_insert

theorem Counts.addIds (h : Counts table ids) (more : List String) :
    Counts (addIds table more) (ids ++ more) := by
  induction more generalizing table ids with
  | nil =>
    rw [List.append_nil]
    exact h
  | cons id more ih =>
    rw [addIds_cons, List.append_cons]
    exact ih (h.step (fun key => Std.HashMap.mem_insertIfNew.trans (or_congr_left beq_iff_eq))
      Std.HashMap.size_insertIfNew)

end

/-! ## Extensions -/

/-- Current ids that a registry is extended with. -/
structure Extension where
  licenses : List String
  exceptions : List String

/-- The registry with one extension after the other. -/
def extendAll (r : Registry) (steps : List Extension) : Registry :=
  steps.foldl (fun r x => r.extend x.licenses x.exceptions) r

/-- Extending a registry several times adds to its tables what the extensions
    hold together. -/
theorem extendAll_eq (r : Registry) (steps : List Extension) : r.extendAll steps =
    r.extend (steps.flatMap (·.licenses)) (steps.flatMap (·.exceptions)) := by
  induction steps generalizing r with
  | nil => rfl
  | cons x steps ih =>
    rw [extendAll, List.foldl_cons, ← extendAll, ih]
    simp only [extend, List.flatMap_cons, addIds, List.foldl_append]

/-- What a registry knows of licenses, or of exceptions, if it was made of
    `entries` and the `ids` were added: `look` finds the entry of an id, and
    there are `count` of them. -/
structure Knows (look : String → Option Entry) (count : Nat) (entries : List Entry)
    (ids : List String) : Prop where
  answers : ∀ q x, look q = x ↔ Answer entries ids q x
  counts : ∃ reps, OneOfEach reps (entries.map (·.id) ++ ids) ∧ count = reps.length
  /-- Only ASCII characters of an id may differ from those that were asked for. -/
  folds : ∀ q e, look q = some e →
    List.Forall₂ (fun c d => c = d ∨ c.toNat < 128 ∧ d.toNat < 128) e.id.toList q.toList

theorem knows_index (entries : List Entry) (ids : List String) :
    Knows (fun q => (addIds (index entries) ids)[foldCase q]?) (addIds (index entries) ids).size
      entries ids := by
  have hanswer := (answers_index entries).addIds ids
  obtain ⟨reps, hreps, hsize, -⟩ := (counts_index entries).addIds ids
  refine ⟨fun q x => ⟨fun h => h ▸ hanswer q, (hanswer q).unique⟩, ⟨reps, hreps, hsize⟩, ?_⟩
  intro q e h
  have hq := hanswer q
  rw [h] at hq
  exact hq.equalUpToCase.same_or_ascii

section
variable (version : String) (licenses exceptions : List Entry) (steps : List Extension)

theorem answer_license? (q : String) : Answer licenses (steps.flatMap (·.licenses)) q
    (((ofEntries version licenses exceptions).extendAll steps).license? q) := by
  rw [extendAll_eq]
  exact (answers_index licenses).addIds _ q

/-- **What a registry knows**, however often it has been extended: of the
    entries that it was made of the last one, and behind them the first id that
    was added, each up to ASCII case, for licenses and for exceptions apart.
    It has as many entries as there are ids up to case, and keeps its version. -/
theorem lookup_extendAll :
    Knows ((ofEntries version licenses exceptions).extendAll steps).license?
        ((ofEntries version licenses exceptions).extendAll steps).licenseCount
        licenses (steps.flatMap (·.licenses)) ∧
      Knows ((ofEntries version licenses exceptions).extendAll steps).exception?
        ((ofEntries version licenses exceptions).extendAll steps).exceptionCount
        exceptions (steps.flatMap (·.exceptions)) ∧
      ((ofEntries version licenses exceptions).extendAll steps).version = version := by
  rw [extendAll_eq]
  exact ⟨knows_index licenses _, knows_index exceptions _, rfl⟩

end

end Registry

end LicenseExpr
