import EntityFlow.Tree.Basic

/-!
# Diagnostics

What a document leaves out: the range of the construct, its text and the reason.
-/

namespace EntityFlow

/-- A message at a place of a source. -/
structure Remark where
  line : Nat
  column : Nat
  message : String
deriving Repr, DecidableEq

/-- The parts of a document in which a construct can be left out. -/
inductive Context
  | document
  | entities
  | events
  | inputs
  | enums
  | services
  | flows
  | fieldList
  | enum
  | relationships
  | service
  | method
  | config
  | flow
  | systems
  | system
  | start
  | when
  | ends
deriving Repr, DecidableEq

/-- How messages call a part of a document. -/
def Context.name : Context → String
  | .document => "document"
  | .entities => "entities"
  | .events => "events"
  | .inputs => "inputs"
  | .enums => "enums"
  | .services => "services"
  | .flows => "flows"
  | .fieldList => "field list"
  | .enum => "enum"
  | .relationships => "relationships"
  | .service => "service"
  | .method => "method"
  | .config => "config"
  | .flow => "flow"
  | .systems => "systems"
  | .system => "system"
  | .start => "start"
  | .when => "when"
  | .ends => "end"

/-- Why a construct is left out. -/
inductive Reason
  /-- It is an error node. -/
  | unrecognized (context : Context)
  /-- Its part of the document has no use for a node of its kind. -/
  | unhandled (kind : Node.Kind) (context : Context)
  /-- It breaks the grammar, as the message says. -/
  | grammar (message : String)
deriving Repr, DecidableEq

/-- The wording of a reason. -/
def Reason.message : Reason → String
  | .unrecognized context => "skipped unrecognized input in " ++ context.name
  | .unhandled kind context => "no handler for " ++ kind.name ++ " in " ++ context.name
  | .grammar message => message

/-- A construct that a document leaves out. -/
structure Diagnostic where
  line : Nat
  column : Nat
  endLine : Nat
  endColumn : Nat
  reason : Reason
  /-- The text of the construct. -/
  skipped : String
deriving Repr, DecidableEq

namespace Diagnostic

/-- The wording of the reason. -/
def message (d : Diagnostic) : String := d.reason.message

/-- The diagnostic of a node that is left out. -/
def ofNode (n : Node) (context : Context) : Diagnostic :=
  { line := n.span.line
    column := n.span.column
    endLine := n.span.endLine
    endColumn := n.span.endColumn
    reason := if n.kind = .error then .unrecognized context else .unhandled n.kind context
    skipped := n.text }

/-- The diagnostic of a remark on a place where no construct is left out. -/
def ofRemark (r : Remark) : Diagnostic :=
  { line := r.line
    column := r.column
    endLine := r.line
    endColumn := r.column
    reason := .grammar r.message
    skipped := "" }

/-- What a diagnostic says of the place where the construct starts. -/
def remark (d : Diagnostic) : Remark := ⟨d.line, d.column, d.message⟩

/-- Whether a place comes before another one or is the same, by line and then by column. -/
def notAfter (line column line' column' : Nat) : Bool :=
  line < line' || (line == line' && column ≤ column')

/-- Whether a place lies in the range, its ends included. -/
def covers (d : Diagnostic) (line column : Nat) : Bool :=
  notAfter d.line d.column line column && notAfter line column d.endLine d.endColumn

/-- Whether a diagnostic covers the place of a remark. -/
def coversRemark (d : Diagnostic) (r : Remark) : Bool := d.covers r.line r.column

/-- The place and the message of a diagnostic. -/
def text (d : Diagnostic) : String :=
  toString d.line ++ ":" ++ toString d.column ++ ": " ++ d.message

end Diagnostic

end EntityFlow
