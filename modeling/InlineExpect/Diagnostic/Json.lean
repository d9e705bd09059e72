import InlineExpect.Diagnostic.Basic
import InlineExpect.Json.Decode

/-!
# Diagnostics as JSON
-/

namespace InlineExpect

open Json

namespace Span

/-- Reads a span from a record. -/
def ofValue? (v : Value) : Option Span := do
  let fields ← v.fields? ["start", "length"]
  return ⟨← required? fields "start" Value.word?, ← required? fields "length" Value.word?⟩

/-- A span as an object. -/
def toValue (s : Span) : Value := .object [("start", .nat s.start), ("length", .nat s.length)]

end Span

namespace Diagnostic

/-- Reads a diagnostic from a record.  It is a semantic one unless it says otherwise. -/
def ofValue? (v : Value) : Option Diagnostic := do
  let fields ← v.fields? ["file", "span", "messageText", "code", "category", "source"]
  return {
    file := ← optional? fields "file" Value.string?
    span := ← optional? fields "span" Span.ofValue?
    text := ← required? fields "messageText" Value.string?
    code := ← required? fields "code" Value.word?
    category := ← required? fields "category" (Value.name? Category.ofName?)
    phase := ← defaulted? fields "source" .semantic (Value.name? Phase.ofName?) }

/-- A diagnostic as an object. -/
def toValue (d : Diagnostic) : Value :=
  .object
    [("file", d.file.elim .null .string),
      ("span", d.span.elim .null Span.toValue),
      ("messageText", .string d.text),
      ("code", .nat d.code),
      ("category", .string d.category.name),
      ("source", .string d.phase.name)]

end Diagnostic

end InlineExpect
