import EntityFlow.Document.EntityBuilder
import EntityFlow.Document.FlowBuilder
import EntityFlow.Grammar.Parse

/-!
# From sources to models

A source is read into a tree and the tree into a model. Remarks on the faults of the grammar explain
what the model leaves out: a diagnostic takes the message of the first remark in its range, and a
remark in no range becomes a diagnostic of its own. Strict compilation accepts no diagnostic at all.
-/

namespace EntityFlow

/-- The model of a tree of a language. -/
def Model.ofTree (language : Language) (tree : Node) : Model :=
  match language with
  | .entity => Model.ofEntityTree tree
  | .flow => Model.ofFlowTree tree

/-! ## Explanations -/

/-- What is said of a fault, and where. -/
def Fault.remark (f : Fault) : Remark := ⟨f.line, f.column, f.message⟩

/-- The diagnostic with the message of the first remark that it covers. -/
def Diagnostic.explainedBy (remarks : List Remark) (d : Diagnostic) : Diagnostic :=
  match remarks.find? d.coversRemark with
  | some r => { d with reason := .grammar r.message }
  | none => d

/-- Diagnostics explained by remarks, followed by those for the remarks that none of them covers. -/
def explain (remarks : List Remark) (diagnostics : List Diagnostic) : List Diagnostic :=
  diagnostics.map (Diagnostic.explainedBy remarks) ++
    (remarks.filter fun r => !diagnostics.any (·.coversRemark r)).map Diagnostic.ofRemark

/-! ## Compilation -/

/-- How a source is compiled. -/
structure CompileOptions where
  /-- Whether a diagnostic fails the compilation. -/
  strict : Bool := false
  /-- How many faults are recorded before everything that is left is given up. -/
  limit : Nat := Parse.defaultLimit
deriving Repr, DecidableEq

/-- Why a source has no model. -/
inductive CompileError
  | lexical (fault : LexicalFault)
  | strict (diagnostics : List Diagnostic)
deriving Repr

/-- The model of a parse. -/
def Parse.model (language : Language) (p : Parse) : Model :=
  let built := Model.ofTree language p.tree
  { built with diagnostics := explain (p.faults.map Fault.remark) built.diagnostics }

/-- The warnings of a parse: one for each construct that the document leaves out, where it starts and
in the words of the document, whatever the faults say of it. -/
def Parse.warnings (language : Language) (p : Parse) : List Remark :=
  (Model.ofTree language p.tree).diagnostics.map Diagnostic.remark

/-- Compiles a source. -/
def compile (language : Language) (options : CompileOptions) (source : String) :
    Except CompileError Model :=
  match Parse.ofSource? language options.limit source with
  | .error fault => .error (.lexical fault)
  | .ok p =>
      let model := p.model language
      if options.strict && !model.diagnostics.isEmpty then .error (.strict model.diagnostics)
      else .ok model

/-! ## Reports -/

/-- A remark on a file. -/
structure Report extends Remark where
  file : String
deriving Repr, DecidableEq

namespace Report

/-- The report of a text that cannot be cut into tokens. -/
def ofLexical (file : String) (f : LexicalFault) : Report :=
  { line := f.position.line, column := f.position.column, message := f.cause.message, file }

/-- The report of a break of the grammar. -/
def ofFault (file : String) (f : Fault) : Report := { f.remark with file }

/-- The place and the message. -/
def text (r : Report) : String :=
  r.file ++ ":" ++ toString r.line ++ ":" ++ toString r.column ++ ": " ++ r.message

/-- The report as a JSON object. -/
def toJson (r : Report) : Json :=
  .object [("column", .nat r.column), ("file", .string r.file), ("line", .nat r.line),
    ("message", .string r.message)]

end Report

/-- What is said of a source that strict compilation refuses. -/
def CompileError.strictMessage (diagnostics : List Diagnostic) : String :=
  toString diagnostics.length ++ " construct(s) skipped in strict mode"

/-- The wording of an error in a file. -/
def CompileError.message (file : String) : CompileError → String
  | .lexical fault => (Report.ofLexical file fault).text
  | .strict diagnostics => strictMessage diagnostics

/-- An error in a file as a JSON object. -/
def CompileError.toJson (file : String) : CompileError → Json
  | .lexical fault => (Report.ofLexical file fault).toJson
  | .strict diagnostics =>
      .object [("message", .string (strictMessage diagnostics)),
        ("diagnostics", .array (diagnostics.map Diagnostic.toJson))]

end EntityFlow
