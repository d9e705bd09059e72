import InlineExpect.Text.Span
import InlineExpect.Diagnostic.Template

/-!
# Diagnostics

What a checker reports about a program: a message with a code, for the most part located in a file.
-/

namespace InlineExpect

/-- The phase of the checker that reports a diagnostic. -/
inductive Phase where
  | syntactic | semantic | global
  /-- The emission of code, which says nothing about types. -/
  | emit
deriving DecidableEq, Repr

namespace Phase

/-- The name of a phase. -/
def name : Phase → String
  | .syntactic => "syntactic"
  | .semantic => "semantic"
  | .global => "global"
  | .emit => "emit"

/-- The phase with a name. -/
def ofName? : String → Option Phase
  | "syntactic" => some .syntactic
  | "semantic" => some .semantic
  | "global" => some .global
  | "emit" => some .emit
  | _ => none

/-- Whether a phase comes before the emission of code. -/
def isPreEmit (p : Phase) : Bool := p != .emit

end Phase

/-- A report of the checker. -/
structure Diagnostic where
  /-- The file, unless the report is about the program as a whole. -/
  file : Option String
  span : Option Span
  text : String
  code : Nat
  category : Category
  phase : Phase
deriving DecidableEq, Repr

namespace Diagnostic

/-- A report about the program as a whole, worded by a template. -/
def ofTemplate (t : Template) (args : List String) : Diagnostic :=
  ⟨none, none, t.format args, t.code, t.category, .global⟩

/-- A semantic error at a place of a file. -/
def located (file : String) (span : Span) (code : Nat) (text : String) : Diagnostic :=
  ⟨some file, some span, text, code, .error, .semantic⟩

/-- Whether a report is an error. -/
def isError (d : Diagnostic) : Bool := d.category == .error

/-- Whether a report comes from a phase before the emission of code. -/
def isPreEmit (d : Diagnostic) : Bool := d.phase.isPreEmit

/-- The offset at which a report is located, zero if it has no place. -/
def start (d : Diagnostic) : Nat :=
  match d.span with
  | some s => s.start
  | none => 0

/-- The place of a report, in front of its message. -/
def place (d : Diagnostic) : String :=
  match d.file, d.span with
  | some file, some span => s!"{file}({span.start}): "
  | some file, none => s!"{file}: "
  | none, _ => ""

/-- A report on one line. -/
def render (d : Diagnostic) : String := s!"{d.place}{d.category.name} TS{d.code}: {d.text}"

end Diagnostic

end InlineExpect
