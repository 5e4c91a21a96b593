/-
  Legacy identifiers and their successors.

  * `versioned` lists the licenses whose plain id was split into an "only"
    and an "or later" id; a `+` behind the legacy id selects the latter;
  * `combined` lists the ids that stand for a license with an exception, where
    the license half is a legacy id again;
  * `exceptions` lists the unversioned names of exceptions;
  * `resolveLicense` and `resolveException` give the tree that an id stands
    for.  Ids are looked up without regard to ASCII case; an id that is not
    listed is kept as it is;
  * an `Event` is something to log that happened on the way; `licenseEvents`
    and `exceptionEvents` are the events of resolving an id.  Events are
    values: whoever reads an expression decides what to do with them.
-/
import LicenseExpr.Expr.Basic
import LicenseExpr.Text.Ascii

namespace LicenseExpr

namespace Legacy

/-! ## Tables -/

/-- A license id with two successors. -/
structure Versioned where
  id : String
  only : String
  orLater : String

/-- The successor, depending on whether a `+` follows the legacy id. -/
def Versioned.successor (v : Versioned) (plus : Bool) : String :=
  if plus then v.orLater else v.only

/-- An id that stands for a license with an exception. -/
structure Combined where
  id : String
  /-- The license half, a legacy id. -/
  license : String
  exception : String

/-- An exception id with its successor. -/
structure Renamed where
  id : String
  successor : String

def versioned : List Versioned :=
  [⟨"GPL-1.0", "GPL-1.0-only", "GPL-1.0-or-later"⟩,
   ⟨"GPL-2.0", "GPL-2.0-only", "GPL-2.0-or-later"⟩,
   ⟨"GPL-3.0", "GPL-3.0-only", "GPL-3.0-or-later"⟩,
   ⟨"LGPL-2.0", "LGPL-2.0-only", "LGPL-2.0-or-later"⟩,
   ⟨"LGPL-2.1", "LGPL-2.1-only", "LGPL-2.1-or-later"⟩,
   ⟨"LGPL-3.0", "LGPL-3.0-only", "LGPL-3.0-or-later"⟩]

def combined : List Combined :=
  [⟨"GPL-2.0-with-autoconf-exception", "GPL-2.0", "Autoconf-exception-2.0"⟩,
   ⟨"GPL-2.0-with-bison-exception", "GPL-2.0", "Bison-exception-2.2"⟩,
   ⟨"GPL-2.0-with-classpath-exception", "GPL-2.0", "Classpath-exception-2.0"⟩,
   ⟨"GPL-2.0-with-font-exception", "GPL-2.0", "Font-exception-2.0"⟩,
   ⟨"GPL-2.0-with-GCC-exception", "GPL-2.0", "GCC-exception-2.0"⟩,
   ⟨"GPL-3.0-with-autoconf-exception", "GPL-3.0", "Autoconf-exception-3.0"⟩,
   ⟨"GPL-3.0-with-GCC-exception", "GPL-3.0", "GCC-exception-3.1"⟩]

def exceptions : List Renamed :=
  [⟨"Bison-exception", "Bison-exception-2.2"⟩,
   ⟨"Classpath-exception", "Classpath-exception-2.0"⟩,
   ⟨"Font-exception", "Font-exception-2.0"⟩]

def versioned? (id : String) : Option Versioned :=
  versioned.find? (sameFolded ·.id id)

def combined? (id : String) : Option Combined :=
  combined.find? (sameFolded ·.id id)

def exception? (id : String) : Option Renamed :=
  exceptions.find? (sameFolded ·.id id)

end Legacy

open Legacy

/-! ## Successors -/

/-- The license that an id stands for if it is no combined id. -/
def resolveVersioned (id : String) (plus : Bool) : Expr :=
  match versioned? id with
  | some v => .license (v.successor plus) false
  | none => .license id plus

/-- The tree that a license id stands for: a license, or for a combined id a
    license with an exception. -/
def resolveLicense (id : String) (plus : Bool) : Expr :=
  match combined? id with
  | some c =>
    .compound (resolveVersioned c.license plus) .withException (.exception c.exception)
  | none => resolveVersioned id plus

/-- The exception that an exception id stands for. -/
def resolveException (id : String) : Expr :=
  match exception? id with
  | some r => .exception r.successor
  | none => .exception id

/-! ## Events -/

/-- Something worth logging that happened while an expression was read. -/
inductive Event where
  /-- A legacy license id was replaced by its successor. -/
  | rewroteLicense (legacy : String) (plus : Bool) (successor : String)
  /-- A legacy id that stands for a license with an exception was split. -/
  | expandedCombined (legacy license exception : String)
  /-- A legacy exception id was replaced by its successor. -/
  | rewroteException (legacy successor : String)
  /-- Closing parentheses at the very end, without partners, were dropped. -/
  | ignoredClosings (offset count : Nat)
  deriving DecidableEq

/-- The events of resolving an id that is no combined id. -/
def versionedEvents (id : String) (plus : Bool) : List Event :=
  match versioned? id with
  | some v => [.rewroteLicense id plus (v.successor plus)]
  | none => []

/-- The events of resolving a license id; for a combined id its expansion
    comes before the rewriting of the license half. -/
def licenseEvents (id : String) (plus : Bool) : List Event :=
  match combined? id with
  | some c => .expandedCombined id c.license c.exception :: versionedEvents c.license plus
  | none => versionedEvents id plus

/-- The events of resolving an exception id. -/
def exceptionEvents (id : String) : List Event :=
  match exception? id with
  | some r => [.rewroteException id r.successor]
  | none => []

end LicenseExpr
