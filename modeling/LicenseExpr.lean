import LicenseExpr.Expr.Json
import LicenseExpr.Expr.Same
import LicenseExpr.Json.Reader
import LicenseExpr.Main
import LicenseExpr.Proofs.Diagnosis
import LicenseExpr.Proofs.RoundTrip
import LicenseExpr.Proofs.Meaning
import LicenseExpr.Proofs.FewestParentheses
import LicenseExpr.Proofs.Regrouping
import LicenseExpr.Proofs.Enclosing
import LicenseExpr.Proofs.Reports
import LicenseExpr.Proofs.EventLog
import LicenseExpr.Proofs.LetterCase
import LicenseExpr.Proofs.Lookup
import LicenseExpr.Proofs.Retired
import LicenseExpr.Proofs.Fragments
import LicenseExpr.Proofs.OpenGroups
import LicenseExpr.Proofs.Tiling
import LicenseExpr.Proofs.Layout
import LicenseExpr.Proofs.Extensions
import LicenseExpr.Proofs.Rendering
import LicenseExpr.Proofs.Comparison
import LicenseExpr.Proofs.Copying
import LicenseExpr.Proofs.Chaining
import LicenseExpr.Proofs.Progress
import LicenseExpr.Proofs.Successors
import LicenseExpr.Proofs.Serialization
