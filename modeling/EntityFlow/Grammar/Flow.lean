import EntityFlow.Grammar.Shared

/-!
# The flow language

Imports, configuration and flows. A flow has systems, starts, rules and ends; a rule says which
commands, events and policies follow its triggers, and under which conditions.
-/

namespace EntityFlow.Grammar.Flow

/-- The words that start a construct. -/
def keywords : List String := ["import", "config", "flow"]

/-! ## Imports and configuration -/

/-- An import. -/
def importing : Grammar :=
  tree .importDecl
    (list [take, name .importKey, symbol .colon, tree .importValue stringValue])

/-- Simple values between commas; a single one stands for itself. -/
def plainList : Grammar :=
  node simpleValue [(sees .comma, .arrayPlain)] none (many (sees .comma) (seq take simpleValue))

/-- The value of a configuration option: pairs or simple values without brackets around them, or a
value in brackets or braces. -/
def configValue : Grammar :=
  choose (.and (sees .word) (.kind 1 .colon)) (tree .pairs (commaSeparated pair))
    (choose (.or (sees .lBracket) (sees .lBrace)) value plainList)

/-- A configuration option. -/
def configOption : Grammar := tree .configOption (seq (name .fieldName) configValue)

/-- The configuration. -/
def config : Grammar := tree .config (seq take (block configOption))

/-! ## Systems -/

/-- The commands of a service of a system. -/
def serviceCommands : Grammar :=
  tree .flowSystemServiceCommands (list [word "commands", symbol .colon, names .id])

/-- What a system is made of. -/
def systemItem : Grammar :=
  alternatives (seq javadoc options) .systemItem
    [⟨seesWord "zdl", .flowSystemZdl, seq take stringValue⟩,
      ⟨seesWord "service", .flowSystemService,
        list [
          take,
          opt (sees .word) (name .flowSystemServiceName),
          opt (sees .lBrace) (block serviceCommands)]⟩,
      ⟨seesWord "events", .flowSystemEvents, list [take, symbol .colon, names .id]⟩]

/-- A system. -/
def system : Grammar :=
  tree .flowSystem (list [javadoc, options, name .flowSystemName, block systemItem])

/-! ## Rules -/

/-- A block of rule items. -/
def ruleItems : Grammar := block (call .ruleItem)

/-- What follows the word that opens a condition. -/
def conditional : Grammar := seq stringValue ruleItems

/-- A condition with its branches. -/
def condition : Grammar :=
  list [
    take,
    conditional,
    many (.and (seesWord "else") (.word 1 ["if"]))
      (tree .flowWhenElseIf (list [take, take, conditional])),
    opt (seesWord "else") (tree .flowWhenElse (seq take ruleItems))]

/-- The grammar of an item of a rule. -/
def ruleItemRule : Grammar :=
  alternatives done .ruleItem
    [⟨seesWord "command", .flowWhenCommand, seq take (name .id)⟩,
      ⟨seesWord "event", .flowWhenEvent, seq take (name .id)⟩,
      ⟨seesWord "policy", .flowWhenPolicy, seq take stringValue⟩,
      ⟨seesWord "if", .flowWhenIf, condition⟩]

/-- The names that trigger a rule. -/
def trigger : Grammar :=
  tree .flowWhenTrigger
    (seq (name .flowWhenEventTrigger)
      (many (.word 0 ["and", "or"]) (seq take (name .flowWhenEventTrigger))))

/-! ## Flows -/

/-- What follows the word for an outcome. -/
def outcomeEvents : Grammar := list [take, symbol .colon, names .id]

/-- A way in which a flow ends: the word for it and the names of events. -/
def outcome : Grammar :=
  alternatives done .outcome
    [⟨seesWord "completed", .flowEndCompleted, outcomeEvents⟩,
      ⟨seesWord "suspended", .flowEndSuspended, outcomeEvents⟩,
      ⟨seesWord "cancelled", .flowEndCancelled, outcomeEvents⟩]

/-- What a flow is made of. -/
def flowItem : Grammar :=
  alternatives (seq javadoc options) .flowItem
    [⟨seesWord "systems", .flowSystems, seq take (block system)⟩,
      ⟨seesWord "start", .flowStart,
        list [take, name .flowStartName, opt (sees .lBrace) fields]⟩,
      ⟨seesWord "when", .flowWhen, list [take, trigger, ruleItems]⟩,
      ⟨seesWord "end", .flowEnd, seq take (block outcome)⟩]

/-- A flow. -/
def flow : Grammar :=
  tree .flow (list [javadoc, options, word "flow", name .flowName, block flowItem])

/-- A whole source. -/
def source : Grammar :=
  list [
    globalJavadoc ["flow"],
    many seesMore
      (recovering (.construct keywords)
        (choose (seesWord "import") importing (choose (seesWord "config") config flow)))]

end EntityFlow.Grammar.Flow
