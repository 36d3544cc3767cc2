import M8flow.Lib.Xml

/-!
# Outcome buttons

`outcomes_for_task` of `human_task/__init__.py`: the buttons of a user task whose gateway
branches on the variable `outcome`.

- `parseOutcomeLiteral` is the regular expression for `outcome == '...'`, in both orders.
- `scan` is the loop over the conditional flows, and `buttons` adds the default flow.
- `outcomesForTask` finds the gateway, its flows in the BPMN source and the names of tasks.

Every button keeps the flow that it is derived from, which the answer leaves out.
-/

namespace M8flow.Workflow.Outcomes

open M8flow.Lib

/-! ## Conditions -/

def skipSpaces (s : Text) : Text := s.dropWhile Text.isSpace

/-- `\s*==\s*`: what follows. -/
def afterEquals (s : Text) : Option Text :=
  let s := skipSpaces s
  if "==".toList.isPrefixOf s then some (skipSpaces (s.drop 2)) else none

/-- `(?P<v>.*?)` and the quote again: the shortest literal after which `rest` matches. -/
def lazyLiteral (quote : Char) (rest : Text → Bool) : Text → Option Text
  | [] => none
  | c :: s =>
      if c = quote ∧ rest s then some []
      -- `.` does not match a newline
      else if c = '\n' then none
      else (lazyLiteral quote rest s).map (c :: ·)

def isQuote (c : Char) : Bool := c = '\'' ∨ c = '"'

/-- `outcome\s*==\s*(['"])(?P<v1>.*?)\1\s*$`. -/
def leftLiteral (s : Text) : Option Text :=
  if "outcome".toList.isPrefixOf s then
    match afterEquals (s.drop 7) with
    | some (quote :: s) =>
        if isQuote quote then lazyLiteral quote (fun rest => rest.all Text.isSpace) s else none
    | _ => none
  else none

/-- `\s*==\s*outcome\s*$`. -/
def endsWithOutcome (s : Text) : Bool :=
  match afterEquals s with
  | some s => "outcome".toList.isPrefixOf s && (s.drop 7).all Text.isSpace
  | none => false

/-- `(['"])(?P<v2>.*?)\3\s*==\s*outcome\s*$`. -/
def rightLiteral (s : Text) : Option Text :=
  match s with
  | quote :: s => if isQuote quote then lazyLiteral quote endsWithOutcome s else none
  | [] => none

/-- `_parse_outcome_literal`. -/
def parseOutcomeLiteral (condition : Text) : Option Text :=
  let s := skipSpaces condition
  (leftLiteral s).or (rightLiteral s)

/-! ## Flows -/

/-- An entry of `cond_task_specs`. -/
structure CondTaskSpec where
  condition : Option Text
  taskSpec : Text
  deriving Repr, DecidableEq

/-- A condition that is not read. -/
def CondTaskSpec.unsupported (entry : CondTaskSpec) : Bool :=
  match entry.condition with
  | none => false
  | some condition => (parseOutcomeLiteral condition).isNone

/-- A sequence flow of the BPMN source. -/
structure SequenceFlow where
  id : Option Text
  name : Option Text
  target : Option Text
  deriving Repr, DecidableEq

/-- `_GATEWAY_TYPENAMES`. -/
inductive GatewayType where
  | exclusive
  | inclusive
  deriving Repr, DecidableEq

/-- A flow of a gateway: one of its conditional flows by its position, or its default. -/
inductive Flow where
  | conditional (position : Nat)
  | default
  deriving Repr, DecidableEq

/-- A gateway, with its flows in the source and the names of the tasks. -/
structure Gateway where
  typename : GatewayType
  condTaskSpecs : List CondTaskSpec
  defaultTaskSpec : Option Text
  flows : List SequenceFlow
  taskNames : List (Text × Text)
  deriving Repr, DecidableEq

/-- A button, with the flow that it is derived from. -/
structure Button where
  value : Text
  label : Text
  flow : Flow
  deriving Repr, DecidableEq

namespace Gateway

variable (gateway : Gateway)

/-- `flow_by_target.get(task_spec)`: the last flow with the target. -/
def flowByTarget (taskSpec : Text) : Option SequenceFlow :=
  gateway.flows.reverse.find? fun flow => truthy flow.target = some taskSpec

/-- `task_names.get(task_spec)`: the last name of the task. -/
def taskName (taskSpec : Text) : Option Text :=
  (gateway.taskNames.reverse.find? fun entry => entry.1 = taskSpec).map Prod.snd

/-- `_flow_label(flow, task_spec, task_names) or value`. -/
def labelOf (flow : Option SequenceFlow) (taskSpec value : Text) : Text :=
  ((flow.bind SequenceFlow.name).or (gateway.taskName taskSpec)).getD value

/-- `_default_flow_value`, of the flow to the target. -/
def defaultFlowValue (taskSpec : Text) : Text :=
  let flow := gateway.flowByTarget taskSpec
  ((flow.bind SequenceFlow.name).or (truthy (flow.bind SequenceFlow.id))).getD taskSpec

/-- The button of a value for the flow to a task. -/
def button (taskSpec value : Text) (flow : Flow) : Button :=
  ⟨value, gateway.labelOf (gateway.flowByTarget taskSpec) taskSpec value, flow⟩

/-- The value that a conditional flow offers, if it offers any.  A flow without a condition
is offered like a default flow, unless it is the default flow. -/
def offer (entry : CondTaskSpec) : Option Text :=
  match entry.condition with
  | none =>
      if gateway.defaultTaskSpec = some entry.taskSpec then none
      else some (gateway.defaultFlowValue entry.taskSpec)
  | some condition => parseOutcomeLiteral condition

/-- The loop over the conditional flows from a position on, with the targets that have been
emitted: the buttons, the targets, and whether a condition was not read. -/
def scan : List CondTaskSpec → Nat → List Text → List Button × List Text × Bool
  | [], _, emitted => ([], emitted, false)
  | entry :: entries, position, emitted =>
      if entry.taskSpec ∈ emitted then scan entries (position + 1) emitted
      else
        match gateway.offer entry with
        | some value =>
            let (found, emitted', skipped) :=
              scan entries (position + 1) (entry.taskSpec :: emitted)
            (gateway.button entry.taskSpec value (.conditional position) :: found, emitted',
              skipped)
        | none =>
            let (found, emitted', skipped) := scan entries (position + 1) emitted
            (found, emitted', entry.unsupported || skipped)

/-- The buttons of the gateway. -/
def buttons : List Button :=
  if gateway.flows.length ≤ 1 then []
  else
    let (found, emitted, skipped) := gateway.scan gateway.condTaskSpecs 0 []
    match truthy gateway.defaultTaskSpec with
    | none => found
    | some taskSpec =>
        if skipped then found
        else if taskSpec ∈ emitted then found
        else found ++ [gateway.button taskSpec (gateway.defaultFlowValue taskSpec) .default]

end Gateway

/-! ## The rows -/

/-- `TaskDefinitionModel`, with the properties that a gateway has. -/
structure TaskDefinition where
  tenantId : Text
  bpmnProcessDefinitionId : Nat
  bpmnIdentifier : Text
  bpmnName : Option Text
  /-- no value for the specs that are not gateways -/
  typename : Option GatewayType
  bpmnId : Option Text
  condTaskSpecs : List CondTaskSpec
  defaultTaskSpec : Option Text
  deriving Repr, DecidableEq

/-- `WorkItemModel`, with the outputs of its task definition. -/
structure WorkItem where
  id : Nat
  tenantId : Text
  processInstanceId : Nat
  outputs : List Text
  deriving Repr, DecidableEq

/-- `ProcessInstanceModel`. -/
structure ProcessInstance where
  id : Nat
  tenantId : Text
  bpmnProcessDefinitionId : Option Nat
  deriving Repr, DecidableEq

/-- `BpmnProcessDefinitionModel`. -/
structure ProcessDefinition where
  id : Nat
  tenantId : Text
  sourceBpmnXml : Option Text
  deriving Repr, DecidableEq

/-- The rows that the function reads. -/
structure Rows where
  workItems : List WorkItem
  instances : List ProcessInstance
  definitions : List ProcessDefinition
  taskDefinitions : List TaskDefinition
  deriving Repr, DecidableEq

/-- `ET.fromstring`, which refuses some texts. -/
abbrev Parser := Text → Option (Xml.Node Text)

/-- `_gateway_sequence_flows`. -/
def gatewaySequenceFlows (parse : Parser) (sourceXml : Option Text) (gatewayBpmnId : Text) :
    List SequenceFlow :=
  match truthy sourceXml, truthy (some gatewayBpmnId) with
  | some xml, some gatewayId =>
      match parse xml with
      | none => []
      | some root =>
          (root.iter.filter fun element =>
            element.localName = "sequenceFlow".toList ∧
              element.get? "sourceRef" = some gatewayId).map fun element =>
            { id := element.get? "id"
              name := truthy ((element.get? "name").map Text.strip)
              target := element.get? "targetRef" }
  | _, _ => []

/-- The gateway after a task of the tenant, if there is one. -/
def gatewayAfter (parse : Parser) (rows : Rows) (tenantId : Text) (workItemId : Nat) :
    Option Gateway := do
  let workItem ← rows.workItems.find? fun row => row.id = workItemId
  guard (workItem.tenantId = tenantId ∧ workItem.outputs ≠ [])
  let owner ← rows.instances.find? fun row => row.id = workItem.processInstanceId
  guard (owner.tenantId = tenantId)
  let definitionId ← owner.bpmnProcessDefinitionId
  let ownTasks := rows.taskDefinitions.filter fun row =>
    row.tenantId = tenantId ∧ row.bpmnProcessDefinitionId = definitionId
  let row ← ownTasks.find? fun row => row.bpmnIdentifier ∈ workItem.outputs ∧ row.typename.isSome
  let typename ← row.typename
  let sourceXml := (rows.definitions.find? fun row => row.id = definitionId).bind fun row =>
    if row.tenantId = tenantId then row.sourceBpmnXml else none
  pure
    { typename
      condTaskSpecs := row.condTaskSpecs
      defaultTaskSpec := row.defaultTaskSpec
      flows := gatewaySequenceFlows parse sourceXml ((truthy row.bpmnId).getD row.bpmnIdentifier)
      taskNames := ownTasks.filterMap fun task =>
        (truthy task.bpmnName).map fun name => (task.bpmnIdentifier, name) }

/-- The buttons of a task, with their flows. -/
def buttonsForTask (parse : Parser) (rows : Rows) (tenantId : Text) (workItemId : Nat) :
    List Button :=
  match gatewayAfter parse rows tenantId workItemId with
  | none => []
  | some gateway => gateway.buttons

/-- `outcomes_for_task`: the values and the labels. -/
def outcomesForTask (parse : Parser) (rows : Rows) (tenantId : Text) (workItemId : Nat) :
    List (Text × Text) :=
  (buttonsForTask parse rows tenantId workItemId).map fun button => (button.value, button.label)

end M8flow.Workflow.Outcomes
