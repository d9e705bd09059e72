import InlineExpect.Diagnostic.Basic

/-!
# The order of diagnostics

Diagnostics are ordered by file and then by offset.  Those about the program as a whole come first,
and those with equal keys stay in the order in which they were reported.
-/

namespace InlineExpect.Diagnostic

/-- Whether the file of a diagnostic comes before the file of another one. -/
def fileBefore : Option String → Option String → Bool
  | none, some _ => true
  | some a, some b => a < b
  | _, none => false

/-- Whether a diagnostic may stand in front of another one. -/
def le (d e : Diagnostic) : Bool :=
  fileBefore d.file e.file || (d.file == e.file && d.start ≤ e.start)

/-- Diagnostics in their order. -/
def sort (ds : List Diagnostic) : List Diagnostic := ds.mergeSort le

theorem sort_perm (ds : List Diagnostic) : (sort ds).Perm ds := List.mergeSort_perm ds le

end InlineExpect.Diagnostic
