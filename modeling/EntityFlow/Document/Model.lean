import EntityFlow.Document.Diagnostic
import EntityFlow.Value.Json

/-!
# Models

A document with the places of its parts and the list of what it leaves out.
-/

namespace EntityFlow

/-- A document, the spans of its parts by their paths, and what was left out. -/
structure Model where
  document : Value
  locations : OrderedMap Span
  diagnostics : List Diagnostic
deriving Repr

/-- A natural number in JSON. -/
def Json.nat (n : Nat) : Json := .int n

/-- A span as a JSON object. -/
def Span.toJson (s : Span) : Json :=
  .object [("start", .nat s.start), ("end", .nat s.stop), ("line", .nat s.line),
    ("column", .nat s.column), ("end_line", .nat s.endLine), ("end_column", .nat s.endColumn)]

/-- A diagnostic as a JSON object. -/
def Diagnostic.toJson (d : Diagnostic) : Json :=
  .object [("line", .nat d.line), ("column", .nat d.column), ("end_line", .nat d.endLine),
    ("end_column", .nat d.endColumn), ("message", .string d.message),
    ("skipped", .string d.skipped)]

/-- A model as a JSON object. -/
def Model.toJson (m : Model) : Json :=
  .object [("document", m.document.toJson),
    ("locations", .object (m.locations.map fun (path, span) => (path, span.toJson))),
    ("diagnostics", .array (m.diagnostics.map Diagnostic.toJson))]

end EntityFlow
