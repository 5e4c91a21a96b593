/-
  The case of letters in ids.

  * `mapIds f` puts `f id` in the place of every id, in tokens
    (`Kind.mapId`), in what is written, and in trees;
  * `read_mapIds`: the machine treats ids alike, apart from what `single` says
    of what is written, so it reads tokens with other ids in the same way;
  * `mapIds_toExpr`: legacy ids are found in any case, so the trees of
    expressions that are written in another case are equal up to case;
  * `licenseSet_mapIds`: a registry knows the licenses of a tree in any case;
  * `parse_congr_foldCase`: tokens that are equal up to the case of their ids
    have equal trees up to case, with the same license set, or the same error
    at the same place.
-/
import LicenseExpr.Proofs.ByteOrder
import LicenseExpr.Proofs.Diagnosis
import LicenseExpr.Proofs.LegacyIds
import LicenseExpr.Registry

namespace LicenseExpr

open Token (Kind kinds)

/-! ## Changing ids -/

/-- The token with another id. -/
def Token.Kind.mapId (f : String → String) : Kind → Kind
  | id word plus => id (f word) plus
  | operator op => operator op
  | opening => opening
  | closing => closing

/-- The expression with other ids. -/
def Written.mapIds (f : String → String) : Written → Written
  | id word plus => id (f word) plus
  | excepted license exception => excepted (license.mapIds f) (f exception)
  | group inner => group (inner.mapIds f)
  | compound l op r => compound (l.mapIds f) op (r.mapIds f)

/-- The leaf with another id. -/
def Leaf.mapId (f : String → String) : Leaf → Leaf
  | license id orLater => license (f id) orLater
  | exception id => exception (f id)

/-- The tree with other ids: its shape, its operators and the suffixes `+`
    stay as they are. -/
def Expr.mapIds (f : String → String) : Expr → Expr
  | license id orLater => license (f id) orLater
  | exception id => exception (f id)
  | compound l op r => compound (l.mapIds f) op (r.mapIds f)

namespace Expr
variable {f : String → String}

theorem isLicense_mapIds (e : Expr) : (e.mapIds f).isLicense = e.isLicense := by
  cases e <;> rfl

theorem leaves_mapIds (e : Expr) : (e.mapIds f).leaves = e.leaves.map (Leaf.mapId f) := by
  induction e with
  | license id orLater => rw [mapIds, leaves_license, leaves_license]; rfl
  | exception id => rw [mapIds, leaves_exception, leaves_exception]; rfl
  | compound l op r ihl ihr =>
    rw [mapIds, leaves_compound, leaves_compound, ihl, ihr, List.map_append]

theorem operands_mapIds (op : Operator) (e : Expr) :
    (e.mapIds f).operands op = (e.operands op).map (mapIds f) := by
  induction e with
  | license | exception => rfl
  | compound l o r ihl ihr =>
    by_cases ho : o = op
    · subst ho
      rw [mapIds, operands_compound_self, operands_compound_self, ihl, ihr, List.map_append]
    · have hne : ∀ l r, (compound l o r).operator? ≠ some op := fun _ _ h => ho (Option.some.inj h)
      rw [mapIds, operands_of_ne (hne _ _), operands_of_ne (hne _ _)]
      rfl

theorem leftDeep_mapIds (op : Operator) (first : Expr) (os : List Expr) :
    (leftDeep op first os).mapIds f = leftDeep op (first.mapIds f) (os.map (mapIds f)) := by
  induction os generalizing first with
  | nil => rfl
  | cons o os ih => rw [leftDeep_cons, ih, List.map_cons, leftDeep_cons, mapIds]

end Expr

/-! ## The machine -/

namespace Machine
variable {M : Machine} {f : String → String}

/-- The frame with other ids. -/
def Frame.mapIds (f : String → String) (g : Frame) : Frame :=
  ⟨g.alternatives.map (Written.mapIds f), g.factors.map (Written.mapIds f)⟩

def Outer.mapIds (f : String → String) (outer : Outer) : Outer :=
  outer.map fun gq => (gq.1.mapIds f, gq.2)

/-- The state with other ids. -/
def State.mapIds (f : String → String) : State → State
  | operand g outer => operand (g.mapIds f) (Outer.mapIds f outer)
  | behind g w outer => behind (g.mapIds f) (w.mapIds f) (Outer.mapIds f outer)
  | excepting g w outer => excepting (g.mapIds f) (w.mapIds f) (Outer.mapIds f outer)
  | surplus w place => surplus (w.mapIds f) place

theorem Outer.length_mapIds (outer : Outer) : (Outer.mapIds f outer).length = outer.length :=
  List.length_map _

theorem join_mapIds (op : Operator) (before : Option Written) (w : Written) :
    join op (before.map (Written.mapIds f)) (w.mapIds f) = (join op before w).mapIds f := by
  cases before <;> rfl

theorem Frame.conj_mapIds (g : Frame) (w : Written) :
    (g.mapIds f).conj (w.mapIds f) = (g.conj w).mapIds f :=
  join_mapIds .and g.factors w

theorem Frame.close_mapIds (g : Frame) (w : Written) :
    (g.mapIds f).close (w.mapIds f) = (g.close w).mapIds f := by
  rw [Frame.close, Frame.conj_mapIds]
  exact join_mapIds .or g.alternatives _

theorem isAtom_mapIds (w : Written) : (w.mapIds f).isAtom = w.isAtom := by
  cases w <;> rfl

/-- **A step does not look at ids**, apart from what `single` sees of them. -/
theorem step_mapIds (hf : ∀ w : Written, M.single (w.mapIds f) = M.single w) (p : Nat) (s : State)
    (k : Kind) : M.step p (s.mapIds f) (k.mapId f) = (M.step p s k).map (State.mapIds f) := by
  cases s with
  | operand g outer =>
    cases k with
    | id word plus => rfl
    | operator op => rfl
    | closing => simp only [State.mapIds, Kind.mapId, step, Outer.length_mapIds]; rfl
    | opening =>
      simp only [State.mapIds, Kind.mapId, step, Outer.length_mapIds]
      split <;> rfl
  | behind g w outer =>
    cases k with
    | id | opening => cases outer <;> rfl
    | closing =>
      cases outer with
      | nil => simp only [State.mapIds, Kind.mapId, Outer.mapIds, List.map_nil, step,
          Frame.close_mapIds]; rfl
      | cons gq outer => simp only [State.mapIds, Kind.mapId, Outer.mapIds, List.map_cons, step,
          Frame.close_mapIds]; rfl
    | operator op =>
      cases op with
      | and => simp only [State.mapIds, Kind.mapId, step, Frame.conj_mapIds]; rfl
      | or => simp only [State.mapIds, Kind.mapId, step, Frame.close_mapIds]; rfl
      | withException =>
        simp only [State.mapIds, Kind.mapId, step, isAtom_mapIds, hf]
        split <;> rfl
  | excepting g w outer =>
    cases k with
    | id word plus => cases plus <;> rfl
    | operator | opening | closing => rfl
  | surplus w q => cases k <;> rfl

theorem run_mapIds (hf : ∀ w : Written, M.single (w.mapIds f) = M.single w) (p : Nat) (s : State)
    (ks : List Kind) :
    M.run p (s.mapIds f) (ks.map (Kind.mapId f)) = (M.run p s ks).map (State.mapIds f) := by
  induction ks generalizing p s with
  | nil => rfl
  | cons k ks ih =>
    rw [List.map_cons, run, run, step_mapIds hf]
    cases M.step p s k with
    | error e => rfl
    | ok t => exact ih (p + 1) t

theorem conclude_mapIds (n : Nat) (s : State) :
    conclude n (s.mapIds f) = (conclude n s).map (Written.mapIds f) := by
  cases s with
  | operand | excepting | surplus => rfl
  | behind g w outer =>
    cases outer with
    | nil => exact congrArg Except.ok (Frame.close_mapIds g w)
    | cons => rfl

/-- **The machine does not look at ids**: with other ids it reads the
    expression with those ids, or refuses the same token for the same cause. -/
theorem read_mapIds (hf : ∀ w : Written, M.single (w.mapIds f) = M.single w) (ks : List Kind) :
    M.read (ks.map (Kind.mapId f)) = (M.read ks).map (Written.mapIds f) := by
  have hrun := run_mapIds hf 0 start ks
  rw [show start.mapIds f = start from rfl] at hrun
  rw [read, read, hrun]
  cases M.run 0 start ks with
  | error e => rfl
  | ok s => rw [List.length_map]; exact conclude_mapIds _ s

end Machine

/-! ## Legacy ids -/

namespace Legacy

/-- A key is found for an id in any case. -/
theorem find?_foldCase {α : Type} (key : α → String) (l : List α) (id : String) :
    l.find? (fun a => sameFolded (key a) (foldCase id)) =
      l.find? (fun a => sameFolded (key a) id) := by
  simp only [sameFolded, foldCase_foldCase]

theorem versioned?_foldCase (id : String) : versioned? (foldCase id) = versioned? id :=
  find?_foldCase Versioned.id versioned id

theorem combined?_foldCase (id : String) : combined? (foldCase id) = combined? id :=
  find?_foldCase Combined.id combined id

theorem exception?_foldCase (id : String) : exception? (foldCase id) = exception? id :=
  find?_foldCase Renamed.id exceptions id

end Legacy

section
open LicenseExpr.Expr

theorem resolveVersioned_foldCase (id : String) (plus : Bool) :
    (resolveVersioned (foldCase id) plus).mapIds foldCase =
      (resolveVersioned id plus).mapIds foldCase := by
  rw [resolveVersioned, resolveVersioned, Legacy.versioned?_foldCase]
  cases Legacy.versioned? id with
  | some v => rfl
  | none => exact congrArg (license · plus) (foldCase_foldCase id)

theorem resolveLicense_foldCase (id : String) (plus : Bool) :
    (resolveLicense (foldCase id) plus).mapIds foldCase =
      (resolveLicense id plus).mapIds foldCase := by
  rw [resolveLicense, resolveLicense, Legacy.combined?_foldCase]
  cases Legacy.combined? id with
  | some c => rfl
  | none => exact resolveVersioned_foldCase id plus

theorem resolveException_foldCase (id : String) :
    (resolveException (foldCase id)).mapIds foldCase = (resolveException id).mapIds foldCase := by
  rw [resolveException, resolveException, Legacy.exception?_foldCase]
  cases Legacy.exception? id with
  | some r => rfl
  | none => exact congrArg exception (foldCase_foldCase id)

/-- **The tree of an expression does not depend on the case of its ids**,
    apart from the case of those that it keeps. -/
theorem mapIds_toExpr (w : Written) :
    (w.mapIds foldCase).toExpr.mapIds foldCase = w.toExpr.mapIds foldCase := by
  -- how operands are joined depends on operators only, so the ids matter in leaves alone
  induction w with
  | id word plus => exact resolveLicense_foldCase word plus
  | excepted license exception ih =>
    rw [Written.mapIds, Written.toExpr, Written.toExpr, Expr.mapIds, Expr.mapIds, ih,
      resolveException_foldCase]
  | group inner ih => exact ih
  | compound l op r ihl ihr =>
    rw [Written.mapIds, Written.toExpr, Written.toExpr, leftDeep_mapIds, leftDeep_mapIds,
      ← operands_mapIds, ← operands_mapIds, ihl, ihr]

theorem isSingle_mapIds (w : Written) : (w.mapIds foldCase).isSingle = w.isSingle := by
  rw [Written.isSingle, Written.isSingle, ← isLicense_mapIds (f := foldCase), mapIds_toExpr,
    isLicense_mapIds]

end

/-! ## Registries -/

namespace Registry

theorem license?_foldCase (r : Registry) (id : String) :
    r.license? (foldCase id) = r.license? id := by
  rw [license?, license?, foldCase_foldCase]

/-- What a registry knows of a tree. -/
theorem mem_licenseSet {r : Registry} {e : Expr} {s : String} : s ∈ r.licenseSet e ↔
    ∃ id orLater entry, Leaf.license id orLater ∈ e.leaves ∧ r.license? id = some entry ∧
      entry.id = s := by
  simp only [licenseSet, mem_sortUnique, List.mem_map, List.mem_filterMap, Expr.mem_licenseIds]
  constructor
  · rintro ⟨entry, ⟨id, ⟨orLater, hleaf⟩, hentry⟩, rfl⟩
    exact ⟨id, orLater, entry, hleaf, hentry, rfl⟩
  · rintro ⟨id, orLater, entry, hleaf, hentry, rfl⟩
    exact ⟨entry, ⟨id, ⟨orLater, hleaf⟩, hentry⟩, rfl⟩

/-- **A registry knows licenses in any case.** -/
theorem licenseSet_mapIds (r : Registry) (e : Expr) :
    r.licenseSet (e.mapIds foldCase) = r.licenseSet e := by
  refine sortUnique_eq_iff.2 ⟨pairwise_sortUnique _, fun s => Iff.trans ?_ mem_sortUnique⟩
  show s ∈ r.licenseSet e ↔ s ∈ r.licenseSet (e.mapIds foldCase)
  rw [mem_licenseSet, mem_licenseSet, Expr.leaves_mapIds]
  constructor
  · rintro ⟨id, orLater, entry, hleaf, hentry, rfl⟩
    exact ⟨foldCase id, orLater, entry, List.mem_map_of_mem hleaf,
      (license?_foldCase r id).trans hentry, rfl⟩
  · rintro ⟨id, orLater, entry, hleaf, hentry, rfl⟩
    obtain ⟨leaf, hmem, hid⟩ := List.mem_map.1 hleaf
    cases leaf with
    | license id' orLater' =>
      cases hid
      exact ⟨id', orLater, entry, hmem, (license?_foldCase r id').symm.trans hentry, rfl⟩
    | exception id' => cases hid

/-- Trees that are equal up to the case of their ids have the same licenses. -/
theorem licenseSet_congr {e e' : Expr} (h : e.mapIds foldCase = e'.mapIds foldCase)
    (r : Registry) : r.licenseSet e = r.licenseSet e' := by
  rw [← licenseSet_mapIds, h, licenseSet_mapIds]

end Registry

/-! ## Texts -/

namespace Token
variable {ts ts' : List Token}

/-- The tokens are of the same kinds, with ids that are equal up to case. -/
def SameUpToCase (ts ts' : List Token) : Prop :=
  List.Forall₂ (fun t t' => t.kind.mapId foldCase = t'.kind.mapId foldCase) ts ts'

theorem SameUpToCase.length_eq (h : SameUpToCase ts ts') : ts.length = ts'.length :=
  List.Forall₂.length_eq h

theorem sameUpToCase_iff : SameUpToCase ts ts' ↔
    (kinds ts).map (Kind.mapId foldCase) = (kinds ts').map (Kind.mapId foldCase) := by
  rw [← List.forall₂_eq_eq_eq, List.forall₂_map_left_iff, List.forall₂_map_right_iff,
    List.forall₂_map_left_iff, List.forall₂_map_right_iff]
  rfl

end Token

/-- A legacy license with a legacy exception, or a license that is kept. -/
theorem parse_legacy_excepted {text id x w : String} {ts : List Token}
    (ht : Token.tokenize text = .ok ts)
    (hk : kinds ts = [.id id true, .operator .withException, .id x false, .operator .or,
      .id w false])
    (hid : foldCase "GPL-2.0" = foldCase id) (hx : foldCase "Classpath-exception" = foldCase x)
    (hw : CurrentLicense w false) :
    parse text = .ok (.compound (.compound (.license "GPL-2.0-or-later" false) .withException
      (.exception "Classpath-exception-2.0")) .or (.license w false)) := by
  have hlicense : resolveLicense id true = .license "GPL-2.0-or-later" false :=
    resolveLicense_of_versioned (v := ⟨"GPL-2.0", "GPL-2.0-only", "GPL-2.0-or-later"⟩)
      (by simp [Legacy.versioned]) hid true
  have hexception : resolveException x = .exception "Classpath-exception-2.0" :=
    resolveException_of_mem (r := ⟨"Classpath-exception", "Classpath-exception-2.0"⟩)
      (by simp [Legacy.exceptions]) hx
  have hsingle : Parser.machine.single (.id id true) = true := congrArg Expr.isLicense hlicense
  have hread : Parser.machine.read (kinds ts) =
      .ok (.compound (.excepted (.id id true) x) .or (.id w false)) := by
    simp only [hk, Machine.read, Machine.run, Machine.step, Machine.start, Written.isAtom,
      hsingle]
    rfl
  have hparse := parse_of_ok ht hread
  simp only [Written.toExpr, hlicense, hexception, resolveLicense_of_current hw] at hparse
  exact hparse

/-- `WITH` does not follow a combined id. -/
theorem read_combined_excepted {id x : String}
    (hid : foldCase "GPL-2.0-with-GCC-exception" = foldCase id) :
    Parser.machine.read [.id id false, .operator .withException, .id x false] =
      .error ⟨.invalidWithOperand, 1⟩ := by
  have hcombined := resolveLicense_of_combined
    (c := ⟨"GPL-2.0-with-GCC-exception", "GPL-2.0", "GCC-exception-2.0"⟩)
    (v := ⟨"GPL-2.0", "GPL-2.0-only", "GPL-2.0-or-later"⟩) (by simp [Legacy.combined]) hid
    (by simp [Legacy.versioned]) rfl false
  have hsingle : Parser.machine.single (.id id false) = false := congrArg Expr.isLicense hcombined
  simp only [Machine.read, Machine.run, Machine.step, Machine.start, Written.isAtom, hsingle]
  rfl

/-- **The case of ids is irrelevant** to what is accepted, to the shape of the
    tree, and to the licenses that a registry knows in it. -/
theorem parse_congr_foldCase {text text' : String} {ts ts' : List Token}
    (ht : Token.tokenize text = .ok ts) (ht' : Token.tokenize text' = .ok ts')
    (h : Token.SameUpToCase ts ts') :
    (∃ e e', parse text = .ok e ∧ parse text' = .ok e' ∧
        e.mapIds foldCase = e'.mapIds foldCase ∧
          ∀ r : Registry, r.licenseSet e = r.licenseSet e') ∨
      ∃ err err', parse text = .error err ∧ parse text' = .error err' ∧ err.cause = err'.cause ∧
        SamePlace text text' ts ts' err err' := by
  by_cases hne : ts = []
  · subst hne
    cases h
    exact Or.inr ⟨⟨.emptyExpression, 0, text⟩, ⟨.emptyExpression, 0, text'⟩,
      by rw [parse, read, ht], by rw [parse, read, ht'], rfl, .empty rfl rfl rfl rfl⟩
  have hne' : ts' ≠ [] := by
    rintro rfl
    exact hne (List.eq_nil_of_length_eq_zero h.length_eq)
  have hread := congrArg Parser.machine.read (Token.sameUpToCase_iff.1 h)
  rw [Machine.read_mapIds isSingle_mapIds, Machine.read_mapIds isSingle_mapIds] at hread
  cases hm : Parser.machine.read (kinds ts) with
  | ok w =>
    cases hm' : Parser.machine.read (kinds ts') with
    | error e' => rw [hm, hm'] at hread; cases hread
    | ok w' =>
      rw [hm, hm'] at hread
      have hw : w.mapIds foldCase = w'.mapIds foldCase := Except.ok.inj hread
      have he : w.toExpr.mapIds foldCase = w'.toExpr.mapIds foldCase := by
        rw [← mapIds_toExpr, hw, mapIds_toExpr]
      exact Or.inl ⟨_, _, parse_of_ok ht hm, parse_of_ok ht' hm', he, Registry.licenseSet_congr he⟩
  | error e =>
    cases hm' : Parser.machine.read (kinds ts') with
    | ok w' => rw [hm, hm'] at hread; cases hread
    | error e' =>
      rw [hm, hm'] at hread
      cases hread
      exact Or.inr ⟨_, _, parse_of_error ht hne hm, parse_of_error ht' hne' hm',
        by rw [cause_errorAt, cause_errorAt],
        samePlace_errorAt text text' e.cause h.length_eq e.place⟩

/-- Legacy ids are found in any case behind `WITH`, in front of it, and where
    they keep `WITH` from following. -/
theorem parse_congr_foldCase_legacy :
    (∃ ts ts', Token.tokenize "GPL-2.0+ WITH classpath-exception OR mit" = .ok ts ∧
      Token.tokenize "gpl-2.0+  WITH Classpath-Exception OR MIT" = .ok ts' ∧
        Token.SameUpToCase ts ts' ∧
          ∃ e e', parse "GPL-2.0+ WITH classpath-exception OR mit" = .ok e ∧
            parse "gpl-2.0+  WITH Classpath-Exception OR MIT" = .ok e' ∧
            e = .compound (.compound (.license "GPL-2.0-or-later" false) .withException
              (.exception "Classpath-exception-2.0")) .or (.license "mit" false) ∧
            e' = .compound (.compound (.license "GPL-2.0-or-later" false) .withException
              (.exception "Classpath-exception-2.0")) .or (.license "MIT" false) ∧
            e.mapIds foldCase = e'.mapIds foldCase ∧
              ∀ r : Registry, r.licenseSet e = r.licenseSet e') ∧
    ∃ ts ts', Token.tokenize "GPL-2.0-with-GCC-exception WITH mit" = .ok ts ∧
      Token.tokenize "gpl-2.0-with-gcc-exception  WITH MIT" = .ok ts' ∧
        Token.SameUpToCase ts ts' ∧
          ∃ err err', parse "GPL-2.0-with-GCC-exception WITH mit" = .error err ∧
            parse "gpl-2.0-with-gcc-exception  WITH MIT" = .error err' ∧
            err = ⟨.invalidWithOperand, 27, "WITH"⟩ ∧ err' = ⟨.invalidWithOperand, 28, "WITH"⟩ ∧
            SamePlace "GPL-2.0-with-GCC-exception WITH mit" "gpl-2.0-with-gcc-exception  WITH MIT"
              ts ts' err err' := by
  have hids : foldCase "GPL-2.0" = foldCase "gpl-2.0" ∧
      foldCase "classpath-exception" = foldCase "Classpath-Exception" ∧
        foldCase "GPL-2.0-with-GCC-exception" = foldCase "gpl-2.0-with-gcc-exception" ∧
          foldCase "mit" = foldCase "MIT" := by
    simp only [foldCase_eq_iff]
    decide
  constructor
  · obtain ⟨ts, hts⟩ : ∃ ts : List Token, ts = [⟨.id "GPL-2.0" true, 0⟩,
        ⟨.operator .withException, 9⟩, ⟨.id "classpath-exception" false, 14⟩, ⟨.operator .or, 34⟩,
        ⟨.id "mit" false, 37⟩] := ⟨_, rfl⟩
    obtain ⟨ts', hts'⟩ : ∃ ts : List Token, ts = [⟨.id "gpl-2.0" true, 0⟩,
        ⟨.operator .withException, 10⟩, ⟨.id "Classpath-Exception" false, 15⟩, ⟨.operator .or, 35⟩,
        ⟨.id "MIT" false, 38⟩] := ⟨_, rfl⟩
    have ht : Token.tokenize "GPL-2.0+ WITH classpath-exception OR mit" = .ok ts := by
      rw [hts]
      decide +kernel
    have ht' : Token.tokenize "gpl-2.0+  WITH Classpath-Exception OR MIT" = .ok ts' := by
      rw [hts']
      decide +kernel
    have hsame : Token.SameUpToCase ts ts' := by
      rw [Token.sameUpToCase_iff, hts, hts']
      simp only [kinds, List.map, Kind.mapId, hids]
    have hparse := parse_legacy_excepted ht (by rw [hts]; rfl) rfl
      (foldCase_eq_iff.2 (by decide)) (by decide)
    have hparse' := parse_legacy_excepted ht' (by rw [hts']; rfl) hids.1
      (foldCase_eq_iff.2 (by decide)) (by decide)
    rcases parse_congr_foldCase ht ht' hsame with
      ⟨e, e', he, he', hmap, hset⟩ | ⟨err, -, herr, -⟩
    · exact ⟨ts, ts', ht, ht', hsame, e, e', he, he', Except.ok.inj (he.symm.trans hparse),
        Except.ok.inj (he'.symm.trans hparse'), hmap, hset⟩
    · cases hparse.symm.trans herr
  · obtain ⟨ts, hts⟩ : ∃ ts : List Token, ts = [⟨.id "GPL-2.0-with-GCC-exception" false, 0⟩,
        ⟨.operator .withException, 27⟩, ⟨.id "mit" false, 32⟩] := ⟨_, rfl⟩
    obtain ⟨ts', hts'⟩ : ∃ ts : List Token, ts = [⟨.id "gpl-2.0-with-gcc-exception" false, 0⟩,
        ⟨.operator .withException, 28⟩, ⟨.id "MIT" false, 33⟩] := ⟨_, rfl⟩
    have ht : Token.tokenize "GPL-2.0-with-GCC-exception WITH mit" = .ok ts := by
      rw [hts]
      decide +kernel
    have ht' : Token.tokenize "gpl-2.0-with-gcc-exception  WITH MIT" = .ok ts' := by
      rw [hts']
      decide +kernel
    have hsame : Token.SameUpToCase ts ts' := by
      rw [Token.sameUpToCase_iff, hts, hts']
      simp only [kinds, List.map, Kind.mapId, hids]
    subst hts hts'
    have herror := parse_of_error ht (List.cons_ne_nil _ _) (read_combined_excepted rfl)
    have herror' := parse_of_error ht' (List.cons_ne_nil _ _) (read_combined_excepted hids.2.2.1)
    rcases parse_congr_foldCase ht ht' hsame with ⟨e, -, he, -⟩ | ⟨err, err', h, h', -, hplace⟩
    · cases herror.symm.trans he
    · exact ⟨_, _, ht, ht', hsame, err, err', h, h', Except.error.inj (h.symm.trans herror),
        Except.error.inj (h'.symm.trans herror'), hplace⟩

end LicenseExpr
