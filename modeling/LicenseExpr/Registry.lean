/-
  Registries: which license and exception ids are known.

  * a registry finds ids without regard to ASCII case and answers with the
    canonical spelling;
  * `ofEntries` builds one from lists, where a later entry replaces an earlier
    one of the same folded id; `extend` adds current ids and leaves those
    alone that are already known;
  * `published` is the registry of the published list;
  * `licenseSet` are the known licenses that an expression refers to, in the
    registry's spelling.  Unknown ids are dropped.
-/
import Std.Data.HashMap
import LicenseExpr.Expr.Leaves
import LicenseExpr.Registry.Published
import LicenseExpr.Text.Ascii

namespace LicenseExpr

/-- A registry of ids; the tables are keyed by the folded id. -/
structure Registry where
  /-- The version of the list that the registry was built from. -/
  version : String
  licenses : Std.HashMap String Registry.Entry
  exceptions : Std.HashMap String Registry.Entry

namespace Registry

/-- The table of a list of entries; of two entries whose ids are equal up to
    case the later one stays. -/
def index (entries : List Entry) : Std.HashMap String Entry :=
  entries.foldl (fun table e => table.insert (foldCase e.id) e) ∅

/-- Adds current ids to a table; of two that are equal up to case the earlier
    one stays, and so does what was there before. -/
def addIds (table : Std.HashMap String Entry) (ids : List String) : Std.HashMap String Entry :=
  ids.foldl (fun table id => table.insertIfNew (foldCase id) ⟨id, false⟩) table

/-- The registry of two lists of entries. -/
def ofEntries (version : String) (licenses exceptions : List Entry) : Registry :=
  ⟨version, index licenses, index exceptions⟩

/-- The registry with further current ids. -/
def extend (r : Registry) (licenses exceptions : List String) : Registry :=
  { r with
    licenses := addIds r.licenses licenses
    exceptions := addIds r.exceptions exceptions }

/-- The registry of the published list. -/
def published : Registry :=
  ofEntries publishedVersion publishedLicenses publishedExceptions

/-- The entry of a license id. -/
def license? (r : Registry) (id : String) : Option Entry :=
  r.licenses[foldCase id]?

/-- The entry of an exception id. -/
def exception? (r : Registry) (id : String) : Option Entry :=
  r.exceptions[foldCase id]?

/-- Whether a license id is known. -/
def knowsLicense (r : Registry) (id : String) : Bool :=
  (r.license? id).isSome

/-- Whether an exception id is known. -/
def knowsException (r : Registry) (id : String) : Bool :=
  (r.exception? id).isSome

/-- The number of known licenses. -/
def licenseCount (r : Registry) : Nat :=
  r.licenses.size

/-- The number of known exceptions. -/
def exceptionCount (r : Registry) : Nat :=
  r.exceptions.size

/-- The known licenses of an expression, ascending and each once. -/
def licenseSet (r : Registry) (e : Expr) : List String :=
  sortUnique ((e.licenseIds.filterMap r.license?).map (·.id))

/-! ## Lookups after single insertions -/

theorem addIds_cons (table : Std.HashMap String Entry) (id : String) (ids : List String) :
    addIds table (id :: ids) = addIds (table.insertIfNew (foldCase id) ⟨id, false⟩) ids := rfl

/-- What is in a table stays there when ids are added. -/
theorem addIds_of_some {table : Std.HashMap String Entry} {key : String} {e : Entry}
    (h : table[key]? = some e) (ids : List String) : (addIds table ids)[key]? = some e := by
  induction ids generalizing table with
  | nil => exact h
  | cons id ids ih =>
    rw [addIds_cons]
    refine ih ?_
    rw [Std.HashMap.getElem?_insertIfNew]
    split
    · next hk =>
      exfalso
      rw [beq_iff_eq.1 hk.1] at hk
      exact hk.2 (Std.HashMap.mem_iff_isSome_getElem?.2 (by rw [h]; rfl))
    · exact h

/-- A known license keeps its entry when the registry is extended. -/
theorem license?_extend_of_some {r : Registry} {id : String} {e : Entry}
    (h : r.license? id = some e) (licenses exceptions : List String) :
    (r.extend licenses exceptions).license? id = some e :=
  addIds_of_some h licenses

end Registry

end LicenseExpr
