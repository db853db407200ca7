import EntityFlow.Document.Compile
import EntityFlow.Proofs.Document.FlowSteps
import EntityFlow.Proofs.Document.Lookups

/-!
# The two views of options

A record has its options twice: in a map by name, and in a list as they were declared. The map is
made of the list, so an option has the place of its first declaration and the value of its last one
(`OptionSet.Agrees`). The two never drift apart (`options_agree`):

* **flows**: every step in which a flow document is built keeps them in agreement, in the records
  that are open and in those that are finished (`FlowBuilder.OptionsAgree.step`);
* **methods**: so does every option that is added to a method, declared or implied, and the flag for
  pagination follows the option of that name (`Method.OptionsAgree.withOptions`,
  `Method.Paginates.withOptions`).
-/

namespace EntityFlow

/-! ## Views that agree -/

namespace OptionSet

/-- That the map is made of the list, one option put after the other. -/
def Agrees (o : OptionSet) : Prop := o.keyed = OrderedMap.ofEntries o.list

theorem agrees_empty : Agrees {} := rfl

theorem Agrees.add {o : OptionSet} (agrees : o.Agrees) (more : List (String × Value)) :
    (o.add more).Agrees := by
  show o.keyed.putAll more = OrderedMap.putAll .empty (o.list ++ more)
  rw [OrderedMap.putAll_append, agrees]
  rfl

end OptionSet

/-- That a record has options, and that the map of them is made of the list of them. -/
def Value.OptionsAgree (record : Value) : Prop :=
  ∃ list, record.get? "options" = some (.mapping (OrderedMap.ofEntries list)) ∧
    record.get? "optionsList" = some (optionEntries list)

theorem OptionSet.Agrees.record {o : OptionSet} {record : Value} (agrees : o.Agrees)
    (keyed : record.get? "options" = some (.mapping o.keyed))
    (list : record.get? "optionsList" = some (optionEntries o.list)) : record.OptionsAgree :=
  ⟨o.list, by rw [keyed, agrees], list⟩

/-! ## Maps of records -/

namespace OrderedMap

variable {α : Type} {p : α → Prop} {m : OrderedMap α}

/-- That every value of a map has a property. -/
def Each (p : α → Prop) (m : OrderedMap α) : Prop := ∀ entry ∈ m, p entry.2

theorem each_empty : Each p [] := fun _ member => absurd member List.not_mem_nil

theorem Each.put (each : m.Each p) (key : String) {value : α} (holds : p value) :
    (m.put key value).Each p := by
  intro entry member
  rcases mem_put member with rfl | before
  · exact holds
  · exact each entry before

theorem Each.of_value? (each : m.Each p) {key : String} {value : α}
    (known : m.value? key = some value) : p value :=
  each _ (mem_of_value? known)

theorem each_ofEntries {entries : List (String × α)} (each : ∀ entry ∈ entries, p entry.2) :
    (ofEntries entries).Each p :=
  fun entry member => each entry (mem_ofEntries member)

/-- An entry that may be absent is none of another key. -/
theorem value?_optional_append {key other : String} (different : key ≠ other)
    (value : Option Value) (rest : OrderedMap Value) :
    value? (Value.optional key value ++ rest) other = value? rest other := by
  cases value with
  | none => rfl
  | some v => exact if_neg different

end OrderedMap

/-! ## Flows while they are built -/

/-- That the views agree in a system and in each of its services. -/
structure System.OptionsAgree (s : System) : Prop where
  own : s.options.Agrees
  services : s.services.Each (·.options.Agrees)

/-- That the views agree in a flow and in everything of it that has options. -/
structure Flow.OptionsAgree (f : Flow) : Prop where
  own : f.options.Agrees
  systems : f.systems.Each System.OptionsAgree
  starts : f.starts.Each (·.options.Agrees)

namespace FlowFrame

variable {frame changed : FlowFrame} {change : FlowFrame → Option FlowFrame}

/-- That the views agree in the record of a frame. -/
def OptionsAgree : FlowFrame → Prop
  | .flow r => r.OptionsAgree
  | .system r => r.OptionsAgree
  | .serviceStub r => r.options.Agrees
  | .start r => r.options.Agrees
  | _ => True

/-- What is opened has no options. -/
theorem Opened.optionsAgree (opened : frame.Opened) : frame.OptionsAgree := by
  cases opened with
  | flow => exact ⟨rfl, OrderedMap.each_empty, OrderedMap.each_empty⟩
  | system => exact ⟨rfl, OrderedMap.each_empty⟩
  | serviceStub => exact OptionSet.agrees_empty
  | start => exact OptionSet.agrees_empty
  | _ => trivial

/-- Options are added to both views. -/
theorem OptionsAgree.addOptions (agree : frame.OptionsAgree) (options : List (String × Value)) :
    (frame.addOptions options).OptionsAgree := by
  cases frame with
  | flow r => exact ⟨agree.own.add options, agree.systems, agree.starts⟩
  | system r => exact ⟨agree.own.add options, agree.services⟩
  | serviceStub r => exact OptionSet.Agrees.add agree options
  | start r => exact OptionSet.Agrees.add agree options
  | _ => trivial

/-- A detail leaves the options alone. -/
theorem Detail.optionsAgree (detail : Detail change) (found : change frame = some changed)
    (agree : frame.OptionsAgree) : changed.OptionsAgree := by
  cases detail with
  | commands more =>
      cases frame <;> cases found
      exact agree
  | entityModel model =>
      cases frame <;> cases found
      exact ⟨agree.own, agree.services⟩
  | events more =>
      cases frame <;> cases found
      exact ⟨agree.own, agree.services⟩
  | field field =>
      cases frame <;> cases found
      exact agree
  | actions set => cases frame <;> cases found <;> trivial
  | ending set =>
      cases frame <;> cases found
      trivial

end FlowFrame

namespace FlowBuilder

variable {b after : FlowBuilder}

/-- That the views agree in all records that are finished or open. -/
structure OptionsAgree (b : FlowBuilder) : Prop where
  flows : b.document.flows.Each Flow.OptionsAgree
  frames : ∀ frame ∈ b.scope.frames, frame.OptionsAgree

namespace OptionsAgree

theorem changeTop (agree : b.OptionsAgree) {change : FlowFrame → Option FlowFrame}
    (keeps : ∀ frame changed, change frame = some changed →
      frame.OptionsAgree → changed.OptionsAgree) : (b.changeTop change).OptionsAgree := by
  refine ⟨agree.flows, Scope.forall_changeTop ?_ agree.frames⟩
  intro frame before
  cases found : change frame with
  | none => exact before
  | some changed => exact keeps frame changed found before

theorem changeNearest (agree : b.OptionsAgree) {change : FlowFrame → Option FlowFrame}
    (keeps : ∀ frame changed, change frame = some changed →
      frame.OptionsAgree → changed.OptionsAgree) : (b.changeNearest change).OptionsAgree :=
  ⟨agree.flows, Scope.forall_changeNearest keeps agree.frames⟩

/-- A finished record goes to the frame that owns it, which has the same options as before. -/
theorem register (agree : b.OptionsAgree) {frame : FlowFrame} (finished : frame.OptionsAgree) :
    (b.register frame).OptionsAgree := by
  have toFlow {set : Flow → Flow} (keeps : ∀ f : Flow, f.OptionsAgree → (set f).OptionsAgree) :
      (b.changeNearest (FlowFrame.changeFlow? set)).OptionsAgree := by
    refine agree.changeNearest ?_
    intro frame changed found before
    cases frame <;> cases found
    exact keeps _ before
  cases frame with
  | flow r => exact ⟨agree.flows.put r.name finished, agree.frames⟩
  | system r => exact toFlow fun f before =>
      ⟨before.own, before.systems.put r.name finished, before.starts⟩
  | start r => exact toFlow fun f before =>
      ⟨before.own, before.systems, before.starts.put r.name finished⟩
  | when r => exact toFlow fun f before => ⟨before.own, before.systems, before.starts⟩
  | ending r => exact toFlow fun f before => ⟨before.own, before.systems, before.starts⟩
  | serviceStub r =>
      refine agree.changeNearest ?_
      intro frame changed found before
      cases frame <;> cases found
      exact ⟨before.own, before.services.put r.name finished⟩
  | _ =>
      refine agree.changeNearest ?_
      intro frame changed found before
      cases frame <;> cases found
      trivial

theorem exit (agree : b.OptionsAgree) : b.exit.OptionsAgree := by
  have frames := agree.frames
  unfold FlowBuilder.exit Scope.exit
  cases known : b.scope.frames with
  | nil => exact agree
  | cons top outer =>
      rw [known] at frames
      obtain ⟨onTop, below⟩ := List.forall_mem_cons.mp frames
      have popped : OptionsAgree { b with scope := ⟨outer⟩ } := ⟨agree.flows, below⟩
      exact popped.register onTop

/-- Every step keeps the views in agreement. -/
theorem step (step : Step b after) (agree : b.OptionsAgree) : after.OptionsAgree := by
  cases step with
  | skip n context => exact ⟨agree.flows, agree.frames⟩
  | locate path span => exact ⟨agree.flows, agree.frames⟩
  | preface d same => exact ⟨same ▸ agree.flows, agree.frames⟩
  | enter frame opened =>
      exact ⟨agree.flows, List.forall_mem_cons.mpr ⟨opened.optionsAgree, agree.frames⟩⟩
  | applyOptions n =>
      refine agree.changeTop ?_
      intro frame changed added before
      cases added
      exact before.addOptions n.options
  | changeTop change detail => exact agree.changeTop fun _ _ => detail.optionsAgree
  | changeNearest change detail => exact agree.changeNearest fun _ _ => detail.optionsAgree
  | exit => exact agree.exit

end OptionsAgree

/-- In every document the views agree. -/
theorem optionsAgree_ofTree (tree : Node) : (ofTree tree).OptionsAgree := by
  refine ofTree_induction ?_ (fun _ _ step agree => agree.step step) tree
  exact ⟨OrderedMap.each_empty, fun _ member => absurd member List.not_mem_nil⟩

end FlowBuilder

/-! ## Methods -/

namespace Method

variable {m : Method}

/-- That the views agree in a method. -/
def OptionsAgree (m : Method) : Prop := OptionSet.Agrees ⟨m.options, m.optionsList⟩

theorem optionsAgree_named (name : String) : (named name).OptionsAgree := rfl

theorem OptionsAgree.addOption (agree : m.OptionsAgree) (name : String) (value : Value) :
    (m.addOption name value).OptionsAgree :=
  OptionSet.Agrees.add agree [(name, value)]

/-- However many options are added, the views stay in agreement. -/
theorem OptionsAgree.withOptions (agree : m.OptionsAgree) (added : List (String × Value)) :
    (m.withOptions added).OptionsAgree := by
  induction added generalizing m with
  | nil => exact agree
  | cons option rest ih => exact ih (agree.addOption option.1 option.2)

theorem optionsList_withOptions (m : Method) (added : List (String × Value)) :
    (m.withOptions added).optionsList = m.optionsList ++ added := by
  induction added generalizing m with
  | nil => exact (List.append_nil _).symm
  | cons option rest ih =>
      show ((m.addOption option.1 option.2).withOptions rest).optionsList = _
      rw [ih, addOption, List.append_assoc, List.singleton_append]

/-- That a method is paginated as its option says; a value that is no truth value says that it is,
and without the option it is not. -/
def Paginates (m : Method) : Prop :=
  m.paginated = (m.options.value? "paginated").elim false fun value => value.boolean?.getD true

theorem Paginates.addOption (paginates : m.Paginates) (name : String) (value : Value) :
    (m.addOption name value).Paginates := by
  unfold Paginates Method.addOption
  rw [OrderedMap.value?_put]
  by_cases same : name = "paginated"
  · rw [if_pos same, if_pos same.symm, Option.elim_some]
  · rw [if_neg same, if_neg (Ne.symm same)]
    exact paginates

theorem Paginates.withOptions (paginates : m.Paginates) (added : List (String × Value)) :
    (m.withOptions added).Paginates := by
  induction added generalizing m with
  | nil => exact paginates
  | cons option rest ih => exact ih (paginates.addOption option.1 option.2)

end Method

/-- The request of an implied method is an option like any other. -/
theorem Crud.optionsAgree_routed {m : Method} (agree : m.OptionsAgree) (service : Option String)
    (request path : String) : (routed service request path m).OptionsAgree := by
  cases service with
  | none => exact agree
  | some name => exact Method.OptionsAgree.addOption agree request (.string path)

theorem Crud.optionsAgree_methods {entity : String} {service : Option String} {m : Method}
    (member : m ∈ methods entity service) : m.OptionsAgree := by
  have each (request path name : String) :
      (routed service request path (.named name)).OptionsAgree :=
    optionsAgree_routed (Method.optionsAgree_named name) service request path
  simp only [methods, List.mem_cons, List.not_mem_nil, or_false] at member
  rcases member with rfl | rfl | rfl | rfl | rfl <;> exact each _ _ _

theorem Service.optionsAgree_methodsOf {n : Node} {name : String} {m : Method}
    (member : m ∈ methodsOf n name) : m.OptionsAgree := by
  unfold methodsOf at member
  split at member
  · obtain ⟨aggregate, _, inside⟩ := List.mem_flatMap.mp member
    exact Crud.optionsAgree_methods inside
  · obtain ⟨declaration, _, declares⟩ := List.mem_filterMap.mp member
    obtain ⟨methodName, _, rfl⟩ := Option.map_eq_some_iff.mp declares
    have bare : (EntityBuilder.declaredMethod declaration methodName.text).OptionsAgree := rfl
    exact bare.withOptions declaration.options

/-- In every document the views agree in all methods, declared or implied. -/
theorem EntityBuilder.optionsAgree_ofTree (tree : Node) :
    (ofTree tree).document.services.Each fun s => s.methods.Each Method.OptionsAgree := by
  rw [services_ofTree]
  refine OrderedMap.each_ofEntries ?_
  intro entry member
  obtain ⟨s, declared, rfl⟩ := List.mem_map.mp member
  obtain ⟨n, _, declares⟩ := List.mem_filterMap.mp declared
  obtain ⟨name, _, rfl⟩ := Option.map_eq_some_iff.mp declares
  refine OrderedMap.each_ofEntries ?_
  intro entry member
  obtain ⟨m, isMethod, rfl⟩ := List.mem_map.mp member
  exact Service.optionsAgree_methodsOf isMethod

/-! ## Records in documents -/

theorem ServiceStub.optionsAgree_toValue {s : ServiceStub} (agrees : s.options.Agrees) :
    s.toValue.OptionsAgree :=
  agrees.record rfl rfl

theorem System.optionsAgree_toValue {s : System} (agrees : s.options.Agrees) :
    s.toValue.OptionsAgree := by
  obtain ⟨_, documentation, _⟩ := s
  cases documentation <;> exact agrees.record rfl rfl

theorem Start.optionsAgree_toValue {s : Start} (agrees : s.options.Agrees) :
    s.toValue.OptionsAgree := by
  obtain ⟨_, _, documentation, _⟩ := s
  cases documentation <;> exact agrees.record rfl rfl

theorem Flow.optionsAgree_toValue {f : Flow} (agrees : f.options.Agrees) :
    f.toValue.OptionsAgree := by
  obtain ⟨_, _, documentation, _⟩ := f
  cases documentation <;> exact agrees.record rfl rfl

theorem Method.optionsAgree_toValue {m : Method} (agree : m.OptionsAgree) :
    m.toValue.OptionsAgree := by
  refine OptionSet.Agrees.record agree ?_ ?_
  all_goals
    simp [toValue, Value.get?, Value.mapping?, optionalString, OrderedMap.value?,
      OrderedMap.value?_optional_append]

theorem System.get?_services (s : System) :
    s.toValue.get? "services" = some (.mapping (s.services.mapValues ServiceStub.toValue)) := by
  obtain ⟨_, documentation, _, model, _⟩ := s
  cases documentation <;> cases model <;> rfl

/-- Where a document of a language has records with options, name by name. -/
inductive OptionRecord : Language → List String → Prop
  | flow (flow : String) : OptionRecord .flow ["flows", flow]
  | system (flow system : String) : OptionRecord .flow ["flows", flow, "systems", system]
  | serviceStub (flow system service : String) :
      OptionRecord .flow ["flows", flow, "systems", system, "services", service]
  | start (flow start : String) : OptionRecord .flow ["flows", flow, "starts", start]
  | method (service method : String) :
      OptionRecord .entity ["services", service, "methods", method]

theorem FlowDocument.optionsAgree_atKeys? {d : FlowDocument}
    (agree : d.flows.Each Flow.OptionsAgree) {keys : List String} (kind : OptionRecord .flow keys)
    {record : Value} (found : d.toValue.atKeys? keys = some record) : record.OptionsAgree := by
  have at? (a : Address) (inLanguage : a.language = .flow) :
      d.toValue.atKeys? a.keys = d.record? a := d.foldlM_keys inLanguage .get?
  have systemOf {flow system : String} {v : Value}
      (found : d.record? (.system flow system) = some v) :
      ∃ s : System, s.OptionsAgree ∧ s.toValue = v := by
    obtain ⟨f, isFlow, inFlow⟩ := Option.bind_eq_some_iff.mp found
    obtain ⟨s, isSystem, same⟩ := Option.map_eq_some_iff.mp inFlow
    exact ⟨s, (agree.of_value? isFlow).systems.of_value? isSystem, same⟩
  cases kind with
  | flow flow =>
      rw [show ["flows", flow] = (Address.flow flow).keys from rfl, at? _ rfl] at found
      obtain ⟨f, isFlow, rfl⟩ := Option.map_eq_some_iff.mp found
      exact Flow.optionsAgree_toValue (agree.of_value? isFlow).own
  | system flow system =>
      rw [show ["flows", flow, "systems", system] = (Address.system flow system).keys from rfl,
        at? _ rfl] at found
      obtain ⟨s, agrees, rfl⟩ := systemOf found
      exact System.optionsAgree_toValue agrees.own
  | serviceStub flow system service =>
      rw [show ["flows", flow, "systems", system, "services", service] =
          (Address.system flow system).keys ++ ["services", service] from rfl, Value.atKeys?,
        List.foldlM_append, ← Value.atKeys?, at? _ rfl] at found
      obtain ⟨v, isSystem, inSystem⟩ := Option.bind_eq_some_iff.mp found
      obtain ⟨s, agrees, rfl⟩ := systemOf isSystem
      rw [Value.Follows.get?.foldlM_record s.get?_services] at inSystem
      obtain ⟨stub, isStub, rfl⟩ := Option.map_eq_some_iff.mp inSystem
      exact ServiceStub.optionsAgree_toValue (agrees.services.of_value? isStub)
  | start flow start =>
      rw [show ["flows", flow, "starts", start] = (Address.start flow start).keys from rfl,
        at? _ rfl] at found
      obtain ⟨f, isFlow, inFlow⟩ := Option.bind_eq_some_iff.mp found
      obtain ⟨s, isStart, rfl⟩ := Option.map_eq_some_iff.mp inFlow
      exact Start.optionsAgree_toValue ((agree.of_value? isFlow).starts.of_value? isStart)

theorem EntityDocument.optionsAgree_atKeys? {d : EntityDocument}
    (agree : d.services.Each fun s => s.methods.Each Method.OptionsAgree) {keys : List String}
    (kind : OptionRecord .entity keys) {record : Value}
    (found : d.toValue.atKeys? keys = some record) : record.OptionsAgree := by
  cases kind with
  | method service method =>
      have at? : d.toValue.atKeys? (Address.method service method).keys = _ := d.atKeys?_keys rfl
      obtain ⟨s, isService, inService⟩ := Option.bind_eq_some_iff.mp (at?.symm.trans found)
      obtain ⟨m, isMethod, rfl⟩ := Option.map_eq_some_iff.mp inService
      exact Method.optionsAgree_toValue ((agree.of_value? isService).of_value? isMethod)

/-- **The two views of options never drift apart.** In the document of every tree, each record with
options has the map of them made of the list of them. A method whose views agree keeps them so
whatever options are added. And if options are added to a new method, it lists these, and its option
`paginated` says whether it is paginated: without one it is not, and with a value that is no truth
value it is. -/
theorem options_agree :
    (∀ (language : Language) (tree : Node) (keys : List String) (record : Value),
      OptionRecord language keys →
      (Model.ofTree language tree).document.atKeys? keys = some record → record.OptionsAgree) ∧
    (∀ (m : Method) (added : List (String × Value)), m.OptionsAgree →
      (m.withOptions added).OptionsAgree) ∧
    ∀ (name : String) (added : List (String × Value)),
      let m := (Method.named name).withOptions added
      m.optionsList = added ∧ m.options = OrderedMap.ofEntries m.optionsList ∧
      ("paginated" ∉ added.map (·.1) → m.paginated = false) ∧
      ("paginated" ∈ added.map (·.1) →
        ∃ value, m.options.value? "paginated" = some value ∧
          m.paginated = value.boolean?.getD true) := by
  refine ⟨?_, fun m added agree => agree.withOptions added, ?_⟩
  · intro language tree keys record kind found
    cases language with
    | entity =>
        have agree := EntityBuilder.optionsAgree_ofTree tree
        exact EntityDocument.optionsAgree_atKeys? agree kind found
    | flow =>
        have agree := (FlowBuilder.optionsAgree_ofTree tree).flows
        exact FlowDocument.optionsAgree_atKeys? agree kind found
  · intro name added m
    have listed : m.optionsList = added := Method.optionsList_withOptions (.named name) added
    have keyed : m.options = OrderedMap.ofEntries m.optionsList :=
      (Method.optionsAgree_named name).withOptions added
    have start : (Method.named name).Paginates := rfl
    have paginates : m.paginated = _ := start.withOptions added
    have known : "paginated" ∈ m.options.keys ↔ "paginated" ∈ added.map (·.1) := by
      rw [keyed, listed, OrderedMap.mem_keys_ofEntries]
    refine ⟨listed, keyed, ?_, ?_⟩
    · intro absent
      rw [paginates, OrderedMap.value?_eq_none_iff.mpr (mt known.mp absent), Option.elim_none]
    · intro present
      cases found : m.options.value? "paginated" with
      | none => exact absurd (known.mpr present) (OrderedMap.value?_eq_none_iff.mp found)
      | some value =>
          refine ⟨value, rfl, ?_⟩
          rw [paginates, found, Option.elim_some]

/-- A flow `F` with a system `S` whose service `T` has the option `a` twice, the second time with
the value `false`, and the option `b` between. -/
def FlowBuilder.repeatedOption : Node :=
  let node (kind : Node.Kind) (text : String) := Node.mk kind text ⟨0, 0, 0, 0, 0, 0⟩
  let option (name : String) (value : List Node) :=
    node .option "" (node .optionName name [] :: value)
  let no := node .optionValue "" [node .falseLiteral "false" []]
  let service := node .flowSystemService ""
    [node .flowSystemServiceName "T" [], option "a" [], option "b" [], option "a" [no]]
  node .zdl "" [node .flow "" [node .flowName "F" [], node .flowSystems ""
    [node .flowSystem "" [node .flowSystemName "S" [], service]]]]

/-- The last value of an option that is repeated stands in the place of the first one. -/
theorem options_agree_repeated :
    (∃ record, (Model.ofTree .flow FlowBuilder.repeatedOption).document.atKeys?
        ["flows", "F", "systems", "S", "services", "T"] = some record ∧
      record.get? "options" = some (.mapping [("a", .boolean false), ("b", .boolean true)]) ∧
      record.OptionsAgree) ∧
    ∃ m : Method, m.options = [("paginated", .boolean false), ("a", .string "x")] ∧
      m.OptionsAgree ∧ m.paginated = false := by
  let added : List (String × Value) :=
    [("paginated", .string "yes"), ("a", .string "x"), ("paginated", .boolean false)]
  refine ⟨⟨_, rfl, rfl, ?_⟩, (Method.named "m").withOptions added, rfl, ?_, ?_⟩
  · exact options_agree.1 .flow FlowBuilder.repeatedOption _ _ (.serviceStub "F" "S" "T") rfl
  · exact options_agree.2.1 (.named "m") added (Method.optionsAgree_named "m")
  · obtain ⟨value, found, paginated⟩ :=
      (options_agree.2.2 "m" added).2.2.2 (by decide)
    cases found
    exact paginated

end EntityFlow
