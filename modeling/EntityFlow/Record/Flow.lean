import EntityFlow.Record.Entity

/-!
# Records of the flow language

What a document says about flows: their systems, starts, rules and ends.
-/

namespace EntityFlow

/-- Options by name and in the order of their declaration. -/
structure OptionSet where
  keyed : OrderedMap Value := []
  list : List (String × Value) := []
deriving Repr

namespace OptionSet

/-- Adds options, each to the map and to the list. -/
def add (o : OptionSet) (more : List (String × Value)) : OptionSet :=
  { keyed := more.foldl (fun m entry => m.put entry.1 entry.2) o.keyed
    list := o.list ++ more }

/-- The two entries for options in the value of a record. -/
def entries (o : OptionSet) : List (String × Value) :=
  [("options", .mapping o.keyed), ("optionsList", optionEntries o.list)]

end OptionSet

/-! ## Systems -/

/-- A service of a system: the commands it takes. -/
structure ServiceStub where
  name : String
  options : OptionSet := {}
  commands : List String := []
deriving Repr

namespace ServiceStub

/-- The name of a service that is declared without one. -/
def defaultName : String := "DefaultService"

/-- The value of a service. -/
def toValue (s : ServiceStub) : Value :=
  .mapping ([("name", .string s.name)] ++ s.options.entries ++ [("commands", .strings s.commands)])

end ServiceStub

/-- A system that takes part in a flow. -/
structure System where
  name : String
  documentation : Option String := none
  options : OptionSet := {}
  /-- Where the description of the system's entities is found. -/
  entityModel : Option String := none
  services : OrderedMap ServiceStub := []
  events : List String := []
deriving Repr

/-- The value of a system. -/
def System.toValue (s : System) : Value :=
  .mapping
    ([("name", .string s.name)] ++ optionalString "javadoc" s.documentation ++ s.options.entries ++
      optionalString "zdl" s.entityModel ++
      [("services", .mapping (s.services.mapValues ServiceStub.toValue)),
        ("events", .strings s.events)])

/-! ## Starts -/

/-- A way in which a flow starts. -/
structure Start where
  name : String
  className : String
  documentation : Option String := none
  options : OptionSet := {}
  fields : OrderedMap Field := []
deriving Repr

namespace Start

/-- The start of a name. -/
def named (name : String) : Start := { name, className := Name.upperCamel name }

/-- The value of a start. -/
def toValue (s : Start) : Value :=
  .mapping
    ([("name", .string s.name), ("className", .string s.className)] ++
      optionalString "javadoc" s.documentation ++ s.options.entries ++
      [("fields", .mapping (s.fields.mapValues Field.toValue))])

end Start

/-! ## Rules -/

/-- The commands, events and policies of a rule or a branch. -/
structure Actions where
  commands : List String := []
  events : List String := []
  policies : List String := []
deriving Repr, DecidableEq

namespace Actions

/-- The entries for actions in the value of a branch. -/
def entries (a : Actions) : List (String × Value) :=
  [("commands", .strings a.commands), ("events", .strings a.events),
    ("policies", .strings a.policies)]

/-- The value of the actions of an else branch. -/
def toValue (a : Actions) : Value := .mapping a.entries

end Actions

/-- A branch with a condition of its own, after the first one. -/
structure ElseIf where
  condition : String
  actions : Actions := {}
deriving Repr, DecidableEq

/-- The value of a further branch. -/
def ElseIf.toValue (e : ElseIf) : Value :=
  .mapping ([("condition", .string e.condition)] ++ e.actions.entries)

/-- A conditional block with its branches. -/
structure Conditional where
  condition : String
  actions : Actions := {}
  elseIfs : List ElseIf := []
  otherwise : Option Actions := none
deriving Repr, DecidableEq

/-- The value of a conditional block. -/
def Conditional.toValue (c : Conditional) : Value :=
  .mapping
    ([("condition", .string c.condition)] ++ c.actions.entries ++
      [("elseIfs", .sequence (c.elseIfs.map ElseIf.toValue))] ++
      Value.optional "else" (c.otherwise.map Actions.toValue))

/-- A rule: what follows its triggers, and all conditional blocks within it. -/
structure When where
  triggers : List String
  actions : Actions := {}
  conditionals : List Conditional := []
deriving Repr, DecidableEq

/-- The value of a rule. -/
def When.toValue (w : When) : Value :=
  .mapping
    [("triggers", .strings w.triggers), ("commands", .strings w.actions.commands),
      ("events", .strings w.actions.events),
      ("ifs", .sequence (w.conditionals.map Conditional.toValue)),
      ("policies", .strings w.actions.policies)]

/-! ## Ends -/

/-- The events with which a flow ends, by outcome; an outcome may not be declared. -/
structure End where
  completed : Option (List String) := none
  suspended : Option (List String) := none
  cancelled : Option (List String) := none
deriving Repr, DecidableEq

/-- The value of the ends of a flow. -/
def End.toValue (e : End) : Value :=
  .mapping
    [("outcomes", .mapping
      (Value.optional "completed" (e.completed.map Value.strings) ++
        Value.optional "suspended" (e.suspended.map Value.strings) ++
        Value.optional "cancelled" (e.cancelled.map Value.strings)))]

/-! ## Flows -/

/-- A flow. -/
structure Flow where
  name : String
  className : String
  documentation : Option String := none
  options : OptionSet := {}
  systems : OrderedMap System := []
  starts : OrderedMap Start := []
  whens : List When := []
  ending : Option End := none
deriving Repr

namespace Flow

/-- The flow of a name. -/
def named (name : String) : Flow := { name, className := Name.upperCamel name }

/-- The value of a flow. -/
def toValue (f : Flow) : Value :=
  .mapping
    ([("name", .string f.name), ("className", .string f.className)] ++
      optionalString "javadoc" f.documentation ++ f.options.entries ++
      [("systems", .mapping (f.systems.mapValues System.toValue)),
        ("starts", .mapping (f.starts.mapValues Start.toValue)),
        ("whens", .sequence (f.whens.map When.toValue)),
        ("end", (f.ending.map End.toValue).getD (.mapping []))])

end Flow

/-- A document of the flow language. -/
structure FlowDocument where
  documentation : Option String := none
  imports : List (String × String) := []
  config : OrderedMap Value := []
  flows : OrderedMap Flow := []
deriving Repr

/-- The value of a document. -/
def FlowDocument.toValue (d : FlowDocument) : Value :=
  .mapping
    (optionalString "javadoc" d.documentation ++
      [("imports", .sequence (d.imports.map fun (key, value) =>
          .mapping [("key", .string key), ("value", .string value)])),
        ("config", .mapping d.config),
        ("flows", .mapping (d.flows.mapValues Flow.toValue))])

end EntityFlow
