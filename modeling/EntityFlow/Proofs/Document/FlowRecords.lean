import EntityFlow.Proofs.Document.Rules

/-!
# Records of flows

The record of a flow is said by its node alone (`Flow.ofDeclaration`), and so are the records of the
systems, services, starts and ends in it. Building comes to the same records with open frames: each
part of a construct changes the record on top (`withParts`), and a construct that is closed hands
its record to the one around it. So the flows of a document are the declared ones put in order
(`FlowBuilder.flows_ofTree`, `Parse.flows`).
-/

namespace EntityFlow

open FlowBuilder (names valueText? moreEvents)

/-! ## Declared records -/

/-- The options of a node. -/
def OptionSet.ofNode (n : Node) : OptionSet :=
  { keyed := OrderedMap.ofEntries n.options, list := n.options }

/-- The events of some nodes of a kind, if there are any. -/
def End.eventsOf (parts : List Node) (k : Node.Kind) : Option (List String) :=
  match parts.filter (·.kind == k) with
  | [] => none
  | declared => some (declared.flatMap (names · .id))

/-- The ends that a node declares: for each outcome all its events, if it is declared at all. -/
def End.ofNode (n : Node) : End :=
  { completed := End.eventsOf n.children .flowEndCompleted
    suspended := End.eventsOf n.children .flowEndSuspended
    cancelled := End.eventsOf n.children .flowEndCancelled }

namespace ServiceStub

/-- The service under the key that it has in a system. -/
def entry (s : ServiceStub) : String × ServiceStub := (s.name, s)

/-- The service that a node declares. -/
def ofNode (n : Node) : ServiceStub :=
  { name := (n.childText .flowSystemServiceName).getD defaultName
    options := OptionSet.ofNode n
    commands := (n.childrenOf .flowSystemServiceCommands).flatMap (names · .id) }

end ServiceStub

namespace System

/-- The system under the key that it has in a flow. -/
def entry (s : System) : String × System := (s.name, s)

/-- The system of a declaration with a name. -/
def ofDeclaration (n : Node) (name : String) : System :=
  { name
    documentation := n.documentation?
    options := OptionSet.ofNode n
    entityModel := (n.childrenOf .flowSystemZdl).getLast?.bind valueText?
    services := OrderedMap.ofEntries
      ((n.childrenOf .flowSystemService).map fun stub => (ServiceStub.ofNode stub).entry)
    events := (n.childrenOf .flowSystemEvents).flatMap (names · .id) }

/-- The systems that some nodes declare, in order; a declaration without a name declares none. -/
def declaredIn (ns : List Node) : List System :=
  (ns.filter (·.kind == .flowSystem)).filterMap fun n =>
    (n.child .flowSystemName).map fun name => ofDeclaration n name.text

end System

namespace Start

/-- The start under the key that it has in a flow. -/
def entry (s : Start) : String × Start := (s.name, s)

/-- The start of a declaration with a name. -/
def ofDeclaration (n : Node) (name : String) : Start :=
  { Start.named name with
    documentation := n.documentation?
    options := OptionSet.ofNode n
    fields := OrderedMap.ofEntries
      ((n.childrenOf .field).map fun field => ((Field.ofNode field).name, Field.ofNode field)) }

/-- The starts that some nodes declare, in order; a declaration without a name declares none. -/
def declaredIn (ns : List Node) : List Start :=
  (ns.filter (·.kind == .flowStart)).filterMap fun n =>
    (n.child .flowStartName).map fun name => ofDeclaration n name.text

end Start

namespace Flow

/-- The flow under the key that it has in a document. -/
def entry (f : Flow) : String × Flow := (f.name, f)

/-- The flow of a declaration with a name: its systems are those of all its blocks of systems, and
its ends those of the last such block. -/
def ofDeclaration (n : Node) (name : String) : Flow :=
  { Flow.named name with
    documentation := n.documentation?
    options := OptionSet.ofNode n
    systems := OrderedMap.ofEntries
      ((System.declaredIn ((n.childrenOf .flowSystems).flatMap (·.children))).map System.entry)
    starts := OrderedMap.ofEntries ((Start.declaredIn n.children).map Start.entry)
    whens := (n.childrenOf .flowWhen).map When.ofNode
    ending := (n.childrenOf .flowEnd).getLast?.map End.ofNode }

/-- The flows that some nodes declare, in order; a declaration without a name declares none. -/
def declaredIn (ns : List Node) : List Flow :=
  (ns.filter (·.kind == .flow)).filterMap fun n =>
    (n.child .flowName).map fun name => ofDeclaration n name.text

end Flow

/-! ## Records with more parts -/

/-- Where every part overwrites, the last one stays. -/
theorem foldl_overwrite {α β : Type} (f : α → Option β) (items : List α) :
    items.foldl (fun _ a => f a) none = items.getLast?.bind f := by
  rcases List.eq_nil_or_concat' items with rfl | ⟨front, last, rfl⟩
  · rfl
  · rw [List.foldl_append, List.getLast?_concat]
    rfl

/-- The service with what some nodes add to it. -/
def ServiceStub.withParts (s : ServiceStub) (parts : List Node) : ServiceStub :=
  { s with
    commands := s.commands ++
      (parts.filter (·.kind == .flowSystemServiceCommands)).flatMap (names · .id) }

/-- The system with what some nodes add to it. -/
def System.withParts (s : System) (parts : List Node) : System :=
  { s with
    entityModel := (parts.filter (·.kind == .flowSystemZdl)).foldl
      (fun _ part => valueText? part) s.entityModel
    services := s.services.putAll ((parts.filter (·.kind == .flowSystemService)).map
      fun stub => (ServiceStub.ofNode stub).entry)
    events := s.events ++ (parts.filter (·.kind == .flowSystemEvents)).flatMap (names · .id) }

/-- The start with what some nodes add to it. -/
def Start.withParts (s : Start) (parts : List Node) : Start :=
  { s with
    fields := s.fields.putAll ((parts.filter (·.kind == .field)).map
      fun field => ((Field.ofNode field).name, Field.ofNode field)) }

/-- The events of an outcome with what some nodes add to it. -/
def End.addEvents (parts : List Node) (k : Node.Kind) (events : Option (List String)) :
    Option (List String) :=
  (parts.filter (·.kind == k)).foldl (fun events part => moreEvents (names part .id) events) events

/-- The ends with what some nodes add to them. -/
def End.withParts (e : End) (parts : List Node) : End :=
  { completed := End.addEvents parts .flowEndCompleted e.completed
    suspended := End.addEvents parts .flowEndSuspended e.suspended
    cancelled := End.addEvents parts .flowEndCancelled e.cancelled }

/-- The flow with what the nodes of a block of systems add to it. -/
def Flow.withSystems (f : Flow) (parts : List Node) : Flow :=
  { f with systems := f.systems.putAll ((System.declaredIn parts).map System.entry) }

/-- The flow with what some nodes add to it. -/
def Flow.withParts (f : Flow) (parts : List Node) : Flow :=
  { f with
    systems := f.systems.putAll ((System.declaredIn
      ((parts.filter (·.kind == .flowSystems)).flatMap (·.children))).map System.entry)
    starts := f.starts.putAll ((Start.declaredIn parts).map Start.entry)
    whens := f.whens ++ (parts.filter (·.kind == .flowWhen)).map When.ofNode
    ending := (parts.filter (·.kind == .flowEnd)).foldl
      (fun _ part => some (End.ofNode part)) f.ending }

/-- The parts of a node can be added one after the other. -/
structure Additive {R : Type} (withParts : R → List Node → R) : Prop where
  nil : ∀ r, withParts r [] = r
  append : ∀ r first second, withParts (withParts r first) second = withParts r (first ++ second)

@[simp] theorem System.declaredIn_nil : declaredIn [] = [] := rfl

@[simp] theorem Start.declaredIn_nil : declaredIn [] = [] := rfl

theorem System.declaredIn_append (first second : List Node) :
    declaredIn (first ++ second) = declaredIn first ++ declaredIn second := by
  simp [declaredIn]

theorem Start.declaredIn_append (first second : List Node) :
    declaredIn (first ++ second) = declaredIn first ++ declaredIn second := by
  simp [declaredIn]

theorem Flow.declaredIn_append (first second : List Node) :
    declaredIn (first ++ second) = declaredIn first ++ declaredIn second := by
  simp [declaredIn]

theorem ServiceStub.additive : Additive ServiceStub.withParts := by
  constructor <;> simp [ServiceStub.withParts]

theorem System.additive : Additive System.withParts := by
  constructor <;> simp [System.withParts]

theorem Start.additive : Additive Start.withParts := by
  constructor <;> simp [Start.withParts]

theorem End.additive : Additive End.withParts := by
  constructor <;> simp [End.withParts, End.addEvents]

theorem Flow.additive_withSystems : Additive Flow.withSystems := by
  constructor <;> simp [Flow.withSystems, System.declaredIn]

theorem Flow.additive : Additive Flow.withParts := by
  constructor <;> simp [Flow.withParts, System.declaredIn_append, Start.declaredIn_append]

/-- Added to none, the events of an outcome are those that are declared. -/
theorem End.addEvents_none (parts : List Node) (k : Node.Kind) :
    End.addEvents parts k none = End.eventsOf parts k := by
  have more (ns : List Node) (events : List String) :
      ns.foldl (fun events part => moreEvents (names part .id) events) (some events) =
        some (events ++ ns.flatMap (names · .id)) := by
    induction ns generalizing events with
    | nil => simp
    | cons n rest ih =>
        rw [List.foldl_cons, moreEvents, ih]
        simp
  unfold End.addEvents End.eventsOf
  cases parts.filter (·.kind == k) with
  | nil => rfl
  | cons first rest =>
      rw [List.foldl_cons, moreEvents, more]
      rfl

theorem End.withParts_empty (n : Node) : End.withParts {} n.children = End.ofNode n := by
  rw [End.withParts, End.addEvents_none, End.addEvents_none, End.addEvents_none]
  rfl

theorem ServiceStub.withParts_opened (n : Node) :
    ServiceStub.withParts
      { name := (n.childText .flowSystemServiceName).getD defaultName
        options := OptionSet.ofNode n } n.children = ServiceStub.ofNode n := rfl

theorem System.withParts_opened (n : Node) (name : String) :
    System.withParts
      { name, documentation := n.documentation?, options := OptionSet.ofNode n } n.children =
      System.ofDeclaration n name := by
  rw [System.ofDeclaration, ← foldl_overwrite]
  rfl

theorem Start.withParts_opened (n : Node) (name : String) :
    Start.withParts
      { Start.named name with
        documentation := n.documentation?, options := OptionSet.ofNode n } n.children =
      Start.ofDeclaration n name := rfl

theorem Flow.withParts_opened (n : Node) (name : String) :
    Flow.withParts
      { Flow.named name with
        documentation := n.documentation?, options := OptionSet.ofNode n } n.children =
      Flow.ofDeclaration n name := by
  rw [Flow.ofDeclaration, Option.map_eq_bind, ← foldl_overwrite]
  rfl

/-! ## Steps -/

namespace FlowBuilder.Shows

variable {b : FlowBuilder} {document : FlowDocument} {top : FlowFrame}
  {frames rest : List FlowFrame}

theorem locate (shows : Shows b document frames) (path : String) (span : Span) :
    Shows (b.locate path span) document frames :=
  ⟨shows.document, shows.frames⟩

theorem changeTop (shows : Shows b document (top :: rest))
    (change : FlowFrame → Option FlowFrame) :
    Shows (b.changeTop change) document ((change top).getD top :: rest) := by
  refine ⟨shows.document, ?_⟩
  rw [FlowBuilder.changeTop, Scope.changeTop, shows.frames]
  rfl

theorem applyOptions (shows : Shows b document (top :: rest)) (n : Node) :
    Shows (b.applyOptions n) document (top.addOptions n.options :: rest) :=
  shows.changeTop _

/-- Where each part changes the record on top as it should, all of them do. -/
theorem foldl {R : Type} (frame : R → FlowFrame) {withParts : R → List Node → R}
    (additive : Additive withParts) {step : FlowBuilder → Node → FlowBuilder} {ns : List Node}
    (each : ∀ n ∈ ns, ∀ {b : FlowBuilder} {r : R}, Shows b document (frame r :: rest) →
      Shows (step b n) document (frame (withParts r [n]) :: rest))
    {r : R} (shows : Shows b document (frame r :: rest)) :
    Shows (ns.foldl step b) document (frame (withParts r ns) :: rest) := by
  induction ns generalizing b r with
  | nil =>
      rw [additive.nil]
      exact shows
  | cons n ns ih =>
      have first := each n List.mem_cons_self shows
      have later := ih (fun m member => each m (List.mem_cons_of_mem _ member)) first
      rw [additive.append] at later
      exact later

/-- A construct is closed after all its parts, and hands its record on. -/
theorem exitParts {R : Type} (frame : R → FlowFrame) {withParts : R → List Node → R}
    (additive : Additive withParts) {step : FlowBuilder → Node → FlowBuilder} {ns : List Node}
    (each : ∀ n ∈ ns, ∀ {b : FlowBuilder} {r : R}, Shows b document (frame r :: rest) →
      Shows (step b n) document (frame (withParts r [n]) :: rest))
    {opened finished : R} (shows : Shows b document (frame opened :: rest))
    (record : withParts opened ns = finished) {document' : FlowDocument} {after : List FlowFrame}
    (register : ∀ {closed : FlowBuilder}, Shows closed document rest →
      Shows (closed.register (frame finished)) document' after) :
    Shows (ns.foldl step b).exit document' after := by
  have inside := shows.foldl frame additive each
  rw [record] at inside
  exact inside.exit register

/-! ## Systems -/

theorem addServiceStubPart {record : ServiceStub} (n : Node)
    (shows : Shows b document (.serviceStub record :: rest)) :
    Shows (b.addServiceStubPart n) document (.serviceStub (record.withParts [n]) :: rest) := by
  unfold FlowBuilder.addServiceStubPart
  split
  · rename_i kind
    have added : record.withParts [n] =
        { record with commands := record.commands ++ names n .id } := by
      simp [ServiceStub.withParts, kind]
    rw [added]
    exact shows.changeTop _
  · rename_i kind
    have same : record.withParts [n] = record := by simp [ServiceStub.withParts, kind]
    rw [same]
    exact shows.skip n .service
  · rename_i noCommands _
    have noCommands : n.kind ≠ .flowSystemServiceCommands := noCommands
    have same : record.withParts [n] = record := by simp [ServiceStub.withParts, noCommands]
    rw [same]
    exact shows

/-- A service goes to the system around it. -/
theorem addServiceStub {system : System} (n : Node)
    (shows : Shows b document (.system system :: rest)) :
    Shows (b.addServiceStub n) document
      (.system { system with
        services := system.services.put (ServiceStub.ofNode n).name (ServiceStub.ofNode n) } ::
        rest) := by
  have opened := (shows.enter (.serviceStub
    { name := (n.childText .flowSystemServiceName).getD ServiceStub.defaultName })).applyOptions n
  refine exitParts .serviceStub ServiceStub.additive (fun part _ _ _ => addServiceStubPart part)
    opened (ServiceStub.withParts_opened n) fun closed => ?_
  rw [register]
  exact closed.changeNearest _

theorem addSystemPart {record : System} (n : Node)
    (shows : Shows b document (.system record :: rest)) :
    Shows (b.addSystemPart n) document (.system (record.withParts [n]) :: rest) := by
  unfold FlowBuilder.addSystemPart
  split
  · rename_i kind
    have added : record.withParts [n] = { record with entityModel := valueText? n } := by
      simp [System.withParts, kind]
    rw [added]
    exact shows.changeTop _
  · rename_i kind
    have added : record.withParts [n] = { record with
        services := record.services.put (ServiceStub.ofNode n).name (ServiceStub.ofNode n) } := by
      simp [System.withParts, ServiceStub.entry, kind]
    rw [added]
    exact shows.addServiceStub n
  · rename_i kind
    have added : record.withParts [n] =
        { record with events := record.events ++ names n .id } := by
      simp [System.withParts, kind]
    rw [added]
    exact shows.changeTop _
  · rename_i kind
    have same : record.withParts [n] = record := by simp [System.withParts, kind]
    rw [same]
    exact shows.skip n .system
  · rename_i noModel noService noEvents _
    have noModel : n.kind ≠ .flowSystemZdl := noModel
    have noService : n.kind ≠ .flowSystemService := noService
    have noEvents : n.kind ≠ .flowSystemEvents := noEvents
    have same : record.withParts [n] = record := by
      simp [System.withParts, noModel, noService, noEvents]
    rw [same]
    exact shows

/-- A system goes to the flow around it. -/
theorem addSystem {flow : Flow} {n : Node} (kind : n.kind = .flowSystem)
    (shows : Shows b document (.flow flow :: rest)) :
    Shows (b.addSystem n) document (.flow (flow.withSystems [n]) :: rest) := by
  unfold FlowBuilder.addSystem
  cases named : n.child .flowSystemName with
  | none =>
      have same : flow.withSystems [n] = flow := by
        simp [Flow.withSystems, System.declaredIn, kind, named]
      rw [same]
      exact shows
  | some name =>
      have added : flow.withSystems [n] = { flow with
          systems := flow.systems.put name.text (System.ofDeclaration n name.text) } := by
        simp [Flow.withSystems, System.declaredIn, System.entry, System.ofDeclaration, kind, named]
      rw [added]
      have opened := ((shows.locate (b.flowPath ++ ".systems." ++ name.text) n.span).enter
        (.system { name := name.text, documentation := n.documentation? })).applyOptions n
      refine exitParts .system System.additive (fun part _ _ _ => addSystemPart part) opened
        (System.withParts_opened n name.text) fun closed => ?_
      rw [register]
      exact closed.changeNearest _

theorem addSystemsPart {flow : Flow} (n : Node)
    (shows : Shows b document (.flow flow :: rest)) :
    Shows (b.addSystemsPart n) document (.flow (flow.withSystems [n]) :: rest) := by
  unfold FlowBuilder.addSystemsPart
  split
  · rename_i kind
    exact shows.addSystem kind
  · rename_i kind
    have same : flow.withSystems [n] = flow := by
      simp [Flow.withSystems, System.declaredIn, kind]
    rw [same]
    exact shows.skip n .systems
  · rename_i noSystem _
    have noSystem : n.kind ≠ .flowSystem := noSystem
    have same : flow.withSystems [n] = flow := by
      simp [Flow.withSystems, System.declaredIn, noSystem]
    rw [same]
    exact shows

/-! ## Starts and ends -/

theorem addStartPart {record : Start} (n : Node)
    (shows : Shows b document (.start record :: rest)) :
    Shows (b.addStartPart n) document (.start (record.withParts [n]) :: rest) := by
  unfold FlowBuilder.addStartPart
  split
  · rename_i kind
    have added : record.withParts [n] =
        { record with fields := record.fields.put (Field.ofNode n).name (Field.ofNode n) } := by
      simp [Start.withParts, kind]
    rw [added]
    exact shows.changeNearest _
  · rename_i kind
    have same : record.withParts [n] = record := by simp [Start.withParts, kind]
    rw [same]
    exact shows.skip n .start
  · rename_i noField _
    have noField : n.kind ≠ .field := noField
    have same : record.withParts [n] = record := by simp [Start.withParts, noField]
    rw [same]
    exact shows

/-- A start goes to the flow around it. -/
theorem addStart {flow : Flow} {n : Node} (kind : n.kind = .flowStart)
    (shows : Shows b document (.flow flow :: rest)) :
    Shows (b.addStart n) document
      (.flow { flow with starts := flow.starts.putAll ((Start.declaredIn [n]).map Start.entry) } ::
        rest) := by
  unfold FlowBuilder.addStart
  cases named : n.child .flowStartName with
  | none =>
      have none : Start.declaredIn [n] = [] := by simp [Start.declaredIn, kind, named]
      rw [none]
      exact shows
  | some name =>
      have one : Start.declaredIn [n] = [Start.ofDeclaration n name.text] := by
        simp [Start.declaredIn, kind, named]
      rw [one]
      have opened := ((shows.locate (b.flowPath ++ ".starts." ++ name.text) n.span).enter
        (.start { Start.named name.text with documentation := n.documentation? })).applyOptions n
      refine exitParts .start Start.additive (fun part _ _ _ => addStartPart part) opened
        (Start.withParts_opened n name.text) fun closed => ?_
      rw [register]
      exact closed.changeNearest _

theorem addEndPart {record : End} (n : Node) (shows : Shows b document (.ending record :: rest)) :
    Shows (b.addEndPart n) document (.ending (record.withParts [n]) :: rest) := by
  unfold FlowBuilder.addEndPart
  dsimp only
  split
  · rename_i kind
    have added : record.withParts [n] =
        { record with completed := moreEvents (names n .id) record.completed } := by
      simp [End.withParts, End.addEvents, kind]
    rw [added]
    exact shows.changeTop _
  · rename_i kind
    have added : record.withParts [n] =
        { record with suspended := moreEvents (names n .id) record.suspended } := by
      simp [End.withParts, End.addEvents, kind]
    rw [added]
    exact shows.changeTop _
  · rename_i kind
    have added : record.withParts [n] =
        { record with cancelled := moreEvents (names n .id) record.cancelled } := by
      simp [End.withParts, End.addEvents, kind]
    rw [added]
    exact shows.changeTop _
  · rename_i kind
    have same : record.withParts [n] = record := by simp [End.withParts, End.addEvents, kind]
    rw [same]
    exact shows.skip n .ends
  · rename_i noCompleted noSuspended noCancelled _
    have noCompleted : n.kind ≠ .flowEndCompleted := noCompleted
    have noSuspended : n.kind ≠ .flowEndSuspended := noSuspended
    have noCancelled : n.kind ≠ .flowEndCancelled := noCancelled
    have same : record.withParts [n] = record := by
      simp [End.withParts, End.addEvents, noCompleted, noSuspended, noCancelled]
    rw [same]
    exact shows

/-- The ends go to the flow around them, in place of those that it had. -/
theorem addEnd {flow : Flow} (n : Node) (shows : Shows b document (.flow flow :: rest)) :
    Shows (b.addEnd n) document (.flow { flow with ending := some (End.ofNode n) } :: rest) := by
  have opened := (shows.enter (.ending {})).applyOptions n
  refine exitParts .ending End.additive (fun part _ _ _ => addEndPart part) opened
    (End.withParts_empty n) fun closed => ?_
  rw [register]
  exact closed.changeNearest _

/-! ## Flows -/

theorem addFlowPart {flow : Flow} {n : Node} (all : n.AllInPlace)
    (shows : Shows b document (.flow flow :: rest)) :
    Shows (b.addFlowPart n) document (.flow (flow.withParts [n]) :: rest) := by
  unfold FlowBuilder.addFlowPart
  split
  · rename_i kind
    have added : flow.withParts [n] = flow.withSystems n.children := by
      simp [Flow.withParts, Flow.withSystems, Start.declaredIn, kind]
    rw [added]
    exact shows.foldl .flow Flow.additive_withSystems fun part _ _ _ => addSystemsPart part
  · rename_i kind
    have added : flow.withParts [n] = { flow with
        starts := flow.starts.putAll ((Start.declaredIn [n]).map Start.entry) } := by
      simp [Flow.withParts, kind]
    rw [added]
    exact shows.addStart kind
  · rename_i kind
    have added : flow.withParts [n] =
        { flow with whens := flow.whens ++ [When.ofNode n] } := by
      simp [Flow.withParts, Start.declaredIn, kind]
    rw [added]
    exact addWhen kind all shows
  · rename_i kind
    have added : flow.withParts [n] = { flow with ending := some (End.ofNode n) } := by
      simp [Flow.withParts, Start.declaredIn, kind]
    rw [added]
    exact shows.addEnd n
  · rename_i kind
    have same : flow.withParts [n] = flow := by simp [Flow.withParts, Start.declaredIn, kind]
    rw [same]
    exact shows.skip n .flow
  · rename_i noSystems noStart noWhen noEnd _
    have noSystems : n.kind ≠ .flowSystems := noSystems
    have noStart : n.kind ≠ .flowStart := noStart
    have noWhen : n.kind ≠ .flowWhen := noWhen
    have noEnd : n.kind ≠ .flowEnd := noEnd
    have same : flow.withParts [n] = flow := by
      simp [Flow.withParts, Start.declaredIn, noSystems, noStart, noWhen, noEnd]
    rw [same]
    exact shows

/-- A flow goes to the document, under its name. -/
theorem addFlow {n name : Node} (named : n.child .flowName = some name) (all : n.AllInPlace)
    (shows : Shows b document frames) :
    Shows (b.addFlow n)
      { document with
        flows := document.flows.put name.text (Flow.ofDeclaration n name.text) } frames := by
  unfold FlowBuilder.addFlow
  rw [named]
  have opened := (((shows.locate ("flows." ++ name.text ++ ".name") name.span).locate
    ("flows." ++ name.text) n.span).enter
      (.flow { Flow.named name.text with documentation := n.documentation? })).applyOptions n
  refine exitParts .flow Flow.additive (fun part member _ _ => addFlowPart (all.part member)) opened
    (Flow.withParts_opened n name.text) fun closed => ?_
  refine ⟨?_, closed.frames⟩
  rw [register, closed.document]
  rfl

end FlowBuilder.Shows

/-! ## Documents -/

namespace FlowBuilder

/-- A top-level node puts the flow that it declares, if it declares one, and leaves nothing open. -/
theorem flows_addTopLevel {b : FlowBuilder} (closed : b.scope.frames = []) {n : Node}
    (all : n.AllInPlace) :
    (b.addTopLevel n).scope.frames = [] ∧
      (b.addTopLevel n).document.flows =
        b.document.flows.putAll ((Flow.declaredIn [n]).map Flow.entry) := by
  by_cases isFlow : n.kind = .flow
  · have step : b.addTopLevel n = b.addFlow n := by
      unfold addTopLevel
      rw [isFlow]
    rw [step]
    cases named : n.child .flowName with
    | none =>
        have none : Flow.declaredIn [n] = [] := by simp [Flow.declaredIn, isFlow, named]
        unfold addFlow
        rw [none, named]
        exact ⟨closed, rfl⟩
    | some name =>
        have one : Flow.declaredIn [n] = [Flow.ofDeclaration n name.text] := by
          simp [Flow.declaredIn, isFlow, named]
        have added := Shows.addFlow named all ⟨rfl, closed⟩
        rw [one, added.document]
        exact ⟨added.frames, rfl⟩
  · have none : Flow.declaredIn [n] = [] := by simp [Flow.declaredIn, isFlow]
    have kept := keeps_addTopLevel b n isFlow
    have frames := kept.frames
    rw [closed] at frames
    rw [none, kept.flows]
    exact ⟨List.map_eq_nil_iff.mp frames, rfl⟩

theorem flows_foldl_addTopLevel (ns : List Node) {b : FlowBuilder} (closed : b.scope.frames = [])
    (all : ∀ n ∈ ns, n.AllInPlace) :
    (ns.foldl addTopLevel b).document.flows =
      b.document.flows.putAll ((Flow.declaredIn ns).map Flow.entry) := by
  induction ns generalizing b with
  | nil => rfl
  | cons n rest ih =>
      have split : Flow.declaredIn (n :: rest) = Flow.declaredIn [n] ++ Flow.declaredIn rest :=
        Flow.declaredIn_append [n] rest
      obtain ⟨closedNext, added⟩ := flows_addTopLevel closed (all n List.mem_cons_self)
      have later := ih closedNext fun m member => all m (List.mem_cons_of_mem _ member)
      rw [List.foldl_cons, later, added, split, List.map_append, OrderedMap.putAll_append]

/-- The flows of a document are the declared ones, put in order. -/
theorem flows_ofTree {tree : Node} (all : tree.AllInPlace) :
    (ofTree tree).document.flows =
      OrderedMap.ofEntries ((Flow.declaredIn tree.children).map Flow.entry) :=
  flows_foldl_addTopLevel tree.children rfl fun _ member => all.part member

end FlowBuilder

/-! ## Sources -/

/-- Every flow of a source is a part of its root. -/
theorem Node.AllInPlace.mem_childrenOf_flow {tree n : Node} (all : tree.AllInPlace)
    (root : tree.kind = .zfl) (member : n ∈ tree.subtrees) (isFlow : n.kind = .flow) :
    n ∈ tree.childrenOf .flow := by
  have notRoot : n ≠ tree := by
    rintro rfl
    rw [isFlow] at root
    cases root
  obtain ⟨parent, outer, part, may⟩ := all.exists_parent member notRoot
  rw [isFlow] at may
  rw [all.eq_of_root outer (beq_iff_eq.mp may)] at part
  exact List.mem_filter.mpr ⟨part, by simp [isFlow]⟩

/-- **The flows of a document are the flows of its source.** Every flow of a source is a part of its
root. Where it has a name, building it puts under this name the record that its node says alone, and
does nothing else to the document. The flows of the document are these records, a later one in the
place of an earlier one of the same name. -/
theorem Parse.flows {limit : Nat} {source : String} {p : Parse}
    (parsed : Parse.ofSource? .flow limit source = .ok p) :
    (FlowBuilder.ofTree p.tree).document.flows =
        OrderedMap.ofEntries ((Flow.declaredIn p.tree.children).map Flow.entry) ∧
      (Model.ofFlowTree p.tree).document.get? "flows" =
        some (.mapping ((OrderedMap.ofEntries
          ((Flow.declaredIn p.tree.children).map Flow.entry)).mapValues Flow.toValue)) ∧
      ∀ n ∈ p.tree.subtrees, n.kind = .flow → n ∈ p.tree.childrenOf .flow ∧
        ∀ name, n.child .flowName = some name → ∀ b : FlowBuilder,
          (b.addFlow n).document =
            { b.document with
              flows := b.document.flows.put name.text (Flow.ofDeclaration n name.text) } := by
  obtain ⟨tokens, lexed, rfl⟩ := Parse.exists_tokens parsed
  have all := Parse.allInPlace limit (Token.lex_inOrder lexed).ended
  have flows := FlowBuilder.flows_ofTree all
  refine ⟨flows, ?_, ?_⟩
  · rw [← flows]
    exact FlowDocument.get?_flows _
  · intro n member isFlow
    have part := all.mem_childrenOf_flow rfl member isFlow
    refine ⟨part, ?_⟩
    intro name named b
    have inside := all.part (List.mem_filter.mp part).1
    exact (FlowBuilder.Shows.addFlow named inside ⟨rfl, rfl⟩).document

/-- A flow with two blocks of systems that share a system, with two starts of one name and with two
blocks of ends. -/
def FlowBuilder.repeatedParts : String :=
  "flow F\x7bsystems\x7bS\x7bzdl \"a\" service T\x7bcommands:c\x7d\x7d\x7d
systems\x7bS\x7bzdl \"b\" zdl \"c\" events:x events:y service T\x7bcommands:c\x7d
service\x7bcommands:d commands:g\x7dservice T\x7bcommands:h\x7d\x7dU\x7b\x7d\x7d
start G\x7ba A,b B\x7dstart H\x7b\x7dstart G\x7bb C,a D\x7d
end\x7bcompleted:e\x7dend\x7bsuspended:f suspended:g\x7d\x7d"

/-- What a system says, options and documentation apart: of its services the commands. -/
structure System.Outline where
  entityModel : Option String
  services : OrderedMap (List String)
  events : List String
deriving Repr, DecidableEq

/-- What a flow says of its systems, its starts and its ends: of its starts the types of the
fields. -/
structure Flow.Outline where
  systems : OrderedMap System.Outline
  starts : OrderedMap (OrderedMap String)
  ending : Option End
deriving Repr, DecidableEq

/-- The outline of a flow. -/
def Flow.outline (f : Flow) : Outline :=
  { systems := f.systems.mapValues fun system =>
      ⟨system.entityModel, system.services.mapValues (·.commands), system.events⟩
    starts := f.starts.mapValues fun start => start.fields.mapValues (·.type)
    ending := f.ending }

/-- The outline of the flow with repeated parts. -/
def FlowBuilder.repeatedOutline : Flow.Outline :=
  { systems := [("S", ⟨some "c", [("T", ["h"]), ("DefaultService", ["d", "g"])], ["x", "y"]⟩),
      ("U", ⟨none, [], []⟩)]
    starts := [("G", [("b", "C"), ("a", "D")]), ("H", [])]
    ending := some { suspended := some ["f", "g"] } }

/-- Of the first system and start of a repeated name and of the first block of ends nothing is left
but the places of the names. -/
theorem Parse.flows_repeatedParts :
    ∃ p, Parse.ofSource? .flow 10 FlowBuilder.repeatedParts = .ok p ∧
      (FlowBuilder.ofTree p.tree).document.flows.mapValues Flow.outline =
        [("F", FlowBuilder.repeatedOutline)] := by
  have computed : (Parse.ofSource? .flow 10 FlowBuilder.repeatedParts).toOption.map (fun p =>
      (OrderedMap.ofEntries ((Flow.declaredIn p.tree.children).map Flow.entry)).mapValues
        Flow.outline) = some [("F", FlowBuilder.repeatedOutline)] := by decide +kernel
  obtain ⟨p, found, outline⟩ := Option.map_eq_some_iff.mp computed
  have parsed : Parse.ofSource? .flow 10 FlowBuilder.repeatedParts = .ok p := by
    cases known : Parse.ofSource? .flow 10 FlowBuilder.repeatedParts with
    | error fault =>
        rw [known] at found
        cases found
    | ok q =>
        rw [known] at found
        rw [Option.some.inj found]
  exact ⟨p, parsed, by rw [(Parse.flows parsed).1]; exact outline⟩

end EntityFlow
