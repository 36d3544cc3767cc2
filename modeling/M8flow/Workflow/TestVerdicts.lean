import Mathlib.Logic.Relation
import M8flow.Workflow.ModelTests

/-!
# The verdicts of unit tests

What a test case of a process model ought to say, as a walk over the process that is given
without a program: `Visit` is one node with the item of its task data, `Next` goes on to the
node after it, and `ShouldPass` asks for a walk to an end event with the expected data.

- `visit_of_step` and `step_of_visit` say that the loop body makes exactly these visits.
- `walk_ends` and `walk_of_ends` relate the whole loop to the walks.
- `verdict_right_iff` says for which cases the verdict is the right one.
-/

namespace M8flow.Workflow.ModelTests

open M8flow.Lib M8flow.Lib.Xml Relation

variable {α γ : Type}

/-! ## Walks without a program -/

/-- The data that a test case gives for a task. -/
def seriesOf (tasks : Globals α) (taskId : Text) : Option (Value α) :=
  ((tasks.get? taskId).bind Value.asDict).bind fun props => props.get? "data".toList

/-- What the visit of a task takes that comes after `count` visits of the same task. -/
inductive Takes (tasks : Globals α) (taskId : Text) (count : Nat) (required : Bool) :
    Option (Value α) → Prop where
  | nothing (given : seriesOf tasks taskId = none) (optional : required = false) :
      Takes tasks taskId count required none
  | item {items : List (Value α)} {item : Value α} (given : seriesOf tasks taskId = some (.list items))
      (taken : items[count]? = some item) : Takes tasks taskId count required (some item)

/-- What an item adds to the data. -/
def payloadOf (item : Option (Value α)) : Globals α := (item.bind Value.asDict).getD .empty

/-- A place in a walk: the nodes that were visited, the node to visit, and the data. -/
structure Place (α : Type) where
  visited : List Text
  id : Text
  data : Globals α

/-- The kinds of tasks that cannot do without data. -/
def needsData (node : Element) : Bool :=
  node.localName ∈ ["userTask".toList, "serviceTask".toList]

/-- The visit of a node leaves along a flow, with new data. -/
inductive Visit (python : Python α γ) (process : Process) (tasks : Globals α)
    (mocks : Option (Globals α)) (place : Place α) : Element → Globals α → Prop where
  | gateway {node flow : Element} {flowId : Text}
      (here : process.nodes.get? place.id = some node)
      (kind : node.localName = "exclusiveGateway".toList)
      (chosen : nextFromGateway python node process.flows place.data = .ok flowId)
      (leaves : process.flows.get? flowId = some flow) :
      Visit python process tasks mocks place flow place.data
  | task {node flow : Element} {flowId : Text} {data : Globals α} {item : Option (Value α)}
      (here : process.nodes.get? place.id = some node)
      (notEnd : node.localName ≠ "endEvent".toList)
      (notGateway : node.localName ≠ "exclusiveGateway".toList)
      (script : runScript python node place.data mocks = .ok data)
      (takes : Takes tasks place.id (place.visited.count place.id) (needsData node) item)
      (first : (outgoingIds node).head? = some flowId)
      (leaves : process.flows.get? flowId = some flow) :
      Visit python process tasks mocks place flow (data.merge (payloadOf item))

/-- The walk goes on from one place to another. -/
def Next (python : Python α γ) (process : Process) (tasks : Globals α)
    (mocks : Option (Globals α)) (place next : Place α) : Prop :=
  ∃ flow, Visit python process tasks mocks place flow next.data ∧
    truthy (flow.get? "targetRef") = some next.id ∧ next.visited = place.visited ++ [place.id]

/-- The place is before an end event. -/
def AtEnd (process : Process) (place : Place α) : Prop :=
  ∃ node, process.nodes.get? place.id = some node ∧ node.localName = "endEvent".toList

/-- The walk leaves a place along a flow that leads nowhere. -/
def Dangles (python : Python α γ) (process : Process) (tasks : Globals α)
    (mocks : Option (Globals α)) (place : Place α) (data : Globals α) : Prop :=
  ∃ flow, Visit python process tasks mocks place flow data ∧ truthy (flow.get? "targetRef") = none

/-- The walks of a test case over a document come to a place. -/
def Comes (python : Python α γ) (xml : Text) (testCase : Globals α) (process : Process)
    (place : Place α) : Prop :=
  ∃ start id, indexProcess python xml = .ok process ∧
    (process.nodes.values.find? fun node => node.localName = "startEvent".toList) = some start ∧
    start.get? "id" = some id ∧
    ReflTransGen (Next python process (tasksOf testCase) (mocksOf testCase)) ⟨[], id, .empty⟩ place

/-- The data are what the test case expects. -/
def Expected (python : Python α γ) (testCase : Globals α) (data : Globals α) : Prop :=
  (expectedOf python testCase).equal python.same (.dict data.entries) = true

/-- The walk comes to an end event within the step limit, with the expected data. -/
def ShouldPass (python : Python α γ) (xml : Text) (testCase : Globals α) : Prop :=
  ∃ process place, Comes python xml testCase process place ∧ AtEnd process place ∧
    place.visited.length < maxSteps ∧ Expected python testCase place.data

/-- The walk leaves along a flow that leads nowhere, below the step limit and with the
expected data. -/
def StopsOnFlow (python : Python α γ) (xml : Text) (testCase : Globals α) : Prop :=
  ∃ process place data, Comes python xml testCase process place ∧
    Dangles python process (tasksOf testCase) (mocksOf testCase) place data ∧
    place.visited.length + 1 < maxSteps ∧ Expected python testCase data

/-- `run_one_test_case` reports `passed`. -/
def ReportsPassed (python : Python α γ) (xml bpmnFile testCaseIdentifier : Text)
    (testCase : Globals α) : Prop :=
  ∃ answer, runOneTestCase python xml bpmnFile testCaseIdentifier testCase = .ok answer ∧
    answer.passed = true

/-! ## There is one walk -/

section Determinism

variable {python : Python α γ} {process : Process} {tasks : Globals α}
  {mocks : Option (Globals α)} {place next other : Place α}

theorem Takes.unique {taskId : Text} {count : Nat} {required : Bool} {item other : Option (Value α)}
    (h : Takes tasks taskId count required item) (h' : Takes tasks taskId count required other) :
    item = other := by
  cases h with
  | nothing given optional =>
      cases h' with
      | nothing => rfl
      | item given' taken => rw [given] at given'; cases given'
  | item given taken =>
      cases h' with
      | nothing given' => rw [given] at given'; cases given'
      | item given' taken' =>
          rw [given] at given'
          rw [Value.list.inj (Option.some.inj given')] at taken
          rw [← taken, ← taken']

theorem Visit.unique {flow flow' : Element} {data data' : Globals α}
    (h : Visit python process tasks mocks place flow data)
    (h' : Visit python process tasks mocks place flow' data') : flow = flow' ∧ data = data' := by
  cases h with
  | gateway here kind chosen leaves =>
      cases h' with
      | gateway here' kind' chosen' leaves' =>
          rw [here] at here'
          rw [← Option.some.inj here', chosen] at chosen'
          rw [← Except.ok.inj chosen', leaves] at leaves'
          exact ⟨Option.some.inj leaves', rfl⟩
      | task here' _ notGateway =>
          rw [here] at here'
          exact absurd (Option.some.inj here' ▸ kind) notGateway
  | task here notEnd notGateway script takes first leaves =>
      cases h' with
      | gateway here' kind' =>
          rw [here] at here'
          exact absurd (Option.some.inj here' ▸ kind') notGateway
      | task here' _ _ script' takes' first' leaves' =>
          rw [here] at here'
          have hnode := Option.some.inj here'
          rw [← hnode] at script' takes' first'
          rw [first] at first'
          rw [← Option.some.inj first', leaves] at leaves'
          rw [script] at script'
          rw [takes.unique takes', Except.ok.inj script']
          exact ⟨Option.some.inj leaves', rfl⟩

theorem Next.unique (h : Next python process tasks mocks place next)
    (h' : Next python process tasks mocks place other) : next = other := by
  obtain ⟨flow, hvisit, htarget, hvisited⟩ := h
  obtain ⟨flow', hvisit', htarget', hvisited'⟩ := h'
  obtain ⟨hflow, hdata⟩ := hvisit.unique hvisit'
  rw [hflow, htarget'] at htarget
  obtain ⟨visited, id, data⟩ := next
  obtain ⟨visited', id', data'⟩ := other
  have hid : id' = id := Option.some.inj htarget
  have hsame : visited = visited' := hvisited.trans hvisited'.symm
  have hdatas : data = data' := hdata
  rw [hid, hsame, hdatas]

theorem AtEnd.no_visit {flow : Element} {data : Globals α} (h : AtEnd process place) :
    ¬ Visit python process tasks mocks place flow data := by
  obtain ⟨node, hnode, hkind⟩ := h
  intro hvisit
  cases hvisit with
  | gateway here kind =>
      rw [here] at hnode
      rw [Option.some.inj hnode, hkind] at kind
      exact absurd kind (by decide)
  | task here notEnd =>
      rw [here] at hnode
      exact notEnd (Option.some.inj hnode ▸ hkind)

/-- A walk that dangles comes to no end event. -/
theorem Dangles.not_atEnd {start : Place α} {data : Globals α}
    (hplace : ReflTransGen (Next python process tasks mocks) start place)
    (hdangles : Dangles python process tasks mocks place data)
    (hother : ReflTransGen (Next python process tasks mocks) start other) :
    ¬ AtEnd process other := by
  intro hend
  obtain ⟨flow, hvisit, hnowhere⟩ := hdangles
  have hstuck : ∀ next, ¬ Next python process tasks mocks place next := by
    intro next hnext
    obtain ⟨flow', hvisit', htarget, _⟩ := hnext
    rw [(hvisit.unique hvisit').1, htarget] at hnowhere
    cases hnowhere
  have hlast : ∀ next, ¬ Next python process tasks mocks other next := by
    intro next hnext
    obtain ⟨flow', hvisit', _⟩ := hnext
    exact hend.no_visit hvisit'
  have hunique : Relator.RightUnique (Next python process tasks mocks) :=
    fun _ _ _ h h' => h.unique h'
  have hsame : place = other := by
    rcases ReflTransGen.total_of_right_unique hunique hplace hother with hpath | hpath
    · rcases hpath.cases_head with heq | ⟨next, hnext, _⟩
      · exact heq
      · exact absurd hnext (hstuck next)
    · rcases hpath.cases_head with heq | ⟨next, hnext, _⟩
      · exact heq.symm
      · exact absurd hnext (hlast next)
  exact hend.no_visit (hsame ▸ hvisit)

end Determinism

/-! ## The loop makes these walks -/

/-- The loop counts the visits of every task that has data. -/
def Counts (process : Process) (tasks : Globals α) (taskIndex : Dict Text Nat)
    (visited : List Text) : Prop :=
  ∀ taskId node, process.nodes.get? taskId = some node →
    node.localName ≠ "exclusiveGateway".toList → seriesOf tasks taskId ≠ none →
      (taskIndex.get? taskId).getD 0 = visited.count taskId

/-- The loop is at a place of the walk. -/
structure State.At (s : State α) (process : Process) (tasks : Globals α) (place : Place α) :
    Prop where
  currentId : truthy s.currentId = some place.id
  data : s.data = place.data
  taskIndex : Counts process tasks s.taskIndex place.visited

/-- No node of a process is a sequence flow. -/
def FlowsApart (process : Process) : Prop :=
  ∀ id node, process.nodes.get? id = some node → node.localName ≠ "sequenceFlow".toList

section Loop

variable {python : Python α γ} {process : Process} {tasks : Globals α}
  {mocks : Option (Globals α)} {place : Place α} {s : State α}

/-- What `_next_task_data` takes, and what it counts. -/
theorem nextTaskData_iff {taskId taskType : Text} {taskIndex taskIndex' : Dict Text Nat}
    {required : Bool} {payload : Option (Globals α)} :
    nextTaskData tasks taskId taskIndex required taskType = .ok (payload, taskIndex') ↔
      ∃ item, Takes tasks taskId ((taskIndex.get? taskId).getD 0) required item ∧
        payload = item.bind Value.asDict ∧
        taskIndex' = if seriesOf tasks taskId = none then taskIndex
          else taskIndex.set taskId ((taskIndex.get? taskId).getD 0 + 1) := by
  rw [nextTaskData, ← seriesOf]
  cases hseries : seriesOf tasks taskId with
  | none =>
      dsimp only
      rw [if_pos rfl]
      cases required with
      | true =>
          constructor
          · intro h
            cases h
          · intro h
            obtain ⟨item, htakes, _⟩ := h
            cases htakes with
            | nothing _ optional => cases optional
            | item given => rw [hseries] at given; cases given
      | false =>
          constructor
          · intro h
            obtain ⟨hpayload, hindex⟩ := Prod.mk.inj (Except.ok.inj h)
            exact ⟨none, .nothing hseries rfl, hpayload.symm, hindex.symm⟩
          · intro h
            obtain ⟨item, htakes, hpayload, hindex⟩ := h
            cases htakes with
            | nothing => rw [hpayload, hindex]; rfl
            | item given => rw [hseries] at given; cases given
  | some series =>
      dsimp only
      rw [if_neg (by simp)]
      cases series with
      | list items =>
          dsimp only [Value.asList]
          cases htaken : items[(taskIndex.get? taskId).getD 0]? with
          | none =>
              constructor
              · intro h
                cases h
              · intro h
                obtain ⟨item, htakes, _⟩ := h
                cases htakes with
                | nothing given => rw [hseries] at given; cases given
                | item given taken =>
                    rw [hseries] at given
                    rw [← Value.list.inj (Option.some.inj given), htaken] at taken
                    cases taken
          | some item =>
              constructor
              · intro h
                obtain ⟨hpayload, hindex⟩ := Prod.mk.inj (Except.ok.inj h)
                exact ⟨some item, .item hseries htaken, hpayload.symm, hindex.symm⟩
              · intro h
                obtain ⟨other, htakes, hpayload, hindex⟩ := h
                have hitem : other = some item := htakes.unique (.item hseries htaken)
                rw [hpayload, hindex, hitem]
                rfl
      | _ =>
          constructor
          · intro h
            cases h
          · intro h
            obtain ⟨item, htakes, _⟩ := h
            cases htakes with
            | nothing given => rw [hseries] at given; cases given
            | item given => rw [hseries] at given; cases given

theorem follow_iff {flowId : Text} {next : State α} :
    follow process s flowId = .ok (some next) ↔
      ∃ flow, process.flows.get? flowId = some flow ∧
        next = { s with currentId := flow.get? "targetRef" } := by
  unfold follow
  cases process.flows.get? flowId with
  | none => simp
  | some flow =>
      constructor
      · intro h
        exact ⟨flow, rfl, (Option.some.inj (Except.ok.inj h)).symm⟩
      · intro h
        obtain ⟨other, hsame, hnext⟩ := h
        rw [hnext, Option.some.inj hsame]

/-- The visit of one more task is counted. -/
theorem counts_task {visited : List Text} {taskIndex : Dict Text Nat} {id : Text}
    (h : Counts process tasks taskIndex visited) :
    Counts process tasks
      (if seriesOf tasks id = none then taskIndex
        else taskIndex.set id ((taskIndex.get? id).getD 0 + 1)) (visited ++ [id]) := by
  intro taskId node hnode hkind hdata
  have hbefore := h taskId node hnode hkind hdata
  rw [List.count_append]
  by_cases hsame : taskId = id
  · subst hsame
    rw [if_neg hdata, Dict.get?_set, if_pos rfl, Option.getD_some, hbefore,
      List.count_singleton_self]
  · have hother : List.count taskId [id] = 0 := List.count_eq_zero_of_not_mem (by simpa using hsame)
    rw [hother, ← hbefore]
    split
    · rfl
    · rw [Dict.get?_set, if_neg hsame]
      rfl

/-- The visit of a gateway needs no count. -/
theorem counts_gateway {visited : List Text} {taskIndex : Dict Text Nat} {id : Text} {node : Element}
    (h : Counts process tasks taskIndex visited) (hnode : process.nodes.get? id = some node)
    (hkind : node.localName = "exclusiveGateway".toList) :
    Counts process tasks taskIndex (visited ++ [id]) := by
  intro taskId other hother hnot hdata
  rw [h taskId other hother hnot hdata, List.count_append]
  have hne : taskId ≠ id := by
    intro hsame
    rw [hsame, hnode] at hother
    exact hnot (Option.some.inj hother ▸ hkind)
  rw [List.count_eq_zero_of_not_mem (a := taskId) (l := [id]) (by simpa using hne), Nat.add_zero]

end Loop

/-! ## One turn of the loop -/

section Turns

variable {python : Python α γ} {process : Process} {tasks : Globals α}
  {mocks : Option (Globals α)} {place : Place α} {s next : State α}

/-- A task that the loop passes is visited. -/
theorem passNode_iff {node : Element} (hs : s.At process tasks place)
    (hnode : process.nodes.get? place.id = some node)
    (hend : node.localName ≠ "endEvent".toList)
    (hgateway : node.localName ≠ "exclusiveGateway".toList) :
    passNode python process tasks mocks place.id node s = .ok (some next) ↔
      ∃ flow, Visit python process tasks mocks place flow next.data ∧
        next.currentId = flow.get? "targetRef" ∧
        next.taskIndex = if seriesOf tasks place.id = none then s.taskIndex
          else s.taskIndex.set place.id ((s.taskIndex.get? place.id).getD 0 + 1) := by
  have hcount : seriesOf tasks place.id ≠ none →
      (s.taskIndex.get? place.id).getD 0 = place.visited.count place.id :=
    hs.taskIndex place.id node hnode hgateway
  have htakes : ∀ item, Takes tasks place.id ((s.taskIndex.get? place.id).getD 0) (needsData node) item ↔
      Takes tasks place.id (place.visited.count place.id) (needsData node) item := by
    intro item
    by_cases hdata : seriesOf tasks place.id = none
    · constructor
      · intro h
        cases h with
        | nothing given optional => exact .nothing given optional
        | item given => rw [hdata] at given; cases given
      · intro h
        cases h with
        | nothing given optional => exact .nothing given optional
        | item given => rw [hdata] at given; cases given
    · rw [hcount hdata]
  unfold passNode
  rw [hs.data]
  constructor
  · intro h
    cases hscript : runScript python node place.data mocks with
    | error e => rw [hscript] at h; cases h
    | ok data =>
        rw [hscript] at h
        dsimp only [Bind.bind, Except.bind] at h
        split at h
        · cases h
        · rename_i result htaken
          obtain ⟨payload, taskIndex⟩ := result
          obtain ⟨item, hitem, hpayload, hindex⟩ := nextTaskData_iff.mp htaken
          dsimp only at h
          split at h
          · cases h
          · rename_i flowId hfirst
            obtain ⟨flow, hflow, hnext⟩ := follow_iff.mp h
            rw [hnext]
            refine ⟨flow, ?_, rfl, hindex⟩
            rw [hpayload]
            exact .task hnode hend hgateway hscript ((htakes item).mp hitem) hfirst hflow
  · intro h
    obtain ⟨flow, hvisit, hid, hindex⟩ := h
    obtain ⟨currentId, nextData, taskIndex⟩ := next
    dsimp only at hvisit hid hindex
    cases hvisit with
    | gateway here kind =>
        rw [hnode] at here
        exact absurd (Option.some.inj here ▸ kind) hgateway
    | task here notEnd notGateway script takes first leaves =>
        rename_i item
        rw [hnode] at here
        rw [← Option.some.inj here] at script takes first
        have htaken : nextTaskData tasks place.id s.taskIndex (needsData node) node.localName =
            .ok (item.bind Value.asDict, taskIndex) :=
          nextTaskData_iff.mpr ⟨item, (htakes item).mpr takes, rfl, hindex⟩
        have hkind : (decide (node.localName ∈ ["userTask".toList, "serviceTask".toList])) =
          needsData node := rfl
        rw [script]
        dsimp only [Bind.bind, Except.bind]
        rw [hkind, htaken]
        dsimp only
        rw [first]
        exact follow_iff.mpr ⟨flow, leaves, by rw [hid]; rfl⟩

/-- The loop breaks exactly at an end event. -/
theorem step_eq_break (hflows : FlowsApart process) :
    step python process tasks mocks place.id s = .ok none ↔ AtEnd process place := by
  unfold step AtEnd
  cases hnode : process.nodes.get? place.id with
  | none => simp
  | some node =>
      dsimp only
      rw [if_neg (hflows _ node hnode)]
      by_cases hend : node.localName = "endEvent".toList
      · rw [if_pos hend]
        exact ⟨fun _ => ⟨node, rfl, hend⟩, fun _ => rfl⟩
      · rw [if_neg hend]
        constructor
        · intro h
          split at h
          · cases hchosen : nextFromGateway python node process.flows s.data with
            | error e => rw [hchosen] at h; cases h
            | ok flowId =>
                rw [hchosen] at h
                dsimp only [Bind.bind, Except.bind] at h
                unfold follow at h
                split at h
                · cases h
                · cases h
          · unfold passNode at h
            dsimp only [Bind.bind, Except.bind] at h
            split at h
            · cases h
            · split at h
              · cases h
              · split at h
                · cases h
                · unfold follow at h
                  split at h
                  · cases h
                  · cases h
        · intro h
          obtain ⟨other, hother, hkind⟩ := h
          exact absurd (Option.some.inj hother ▸ hkind) hend

/-- Where the loop goes on, it visits the node. -/
theorem visit_of_step (hflows : FlowsApart process) (hs : s.At process tasks place)
    (h : step python process tasks mocks place.id s = .ok (some next)) :
    ∃ flow, Visit python process tasks mocks place flow next.data ∧
      next.currentId = flow.get? "targetRef" ∧
      Counts process tasks next.taskIndex (place.visited ++ [place.id]) := by
  unfold step at h
  split at h
  · cases h
  · rename_i node hnode
    rw [if_neg (hflows _ node hnode)] at h
    split at h
    · cases h
    · rename_i hend
      split at h
      · rename_i hgateway
        cases hchosen : nextFromGateway python node process.flows s.data with
        | error e => rw [hchosen] at h; cases h
        | ok flowId =>
            rw [hchosen] at h
            obtain ⟨flow, hflow, hnext⟩ := follow_iff.mp h
            rw [hnext]
            refine ⟨flow, ?_, rfl, counts_gateway hs.taskIndex hnode hgateway⟩
            rw [hs.data] at hchosen ⊢
            exact .gateway hnode hgateway hchosen hflow
      · rename_i hgateway
        obtain ⟨flow, hvisit, hid, hindex⟩ := (passNode_iff hs hnode hend hgateway).mp h
        refine ⟨flow, hvisit, hid, ?_⟩
        rw [hindex]
        exact counts_task hs.taskIndex

/-- The loop goes on wherever a node can be visited. -/
theorem step_of_visit (hflows : FlowsApart process) (hs : s.At process tasks place) {flow : Element}
    {data : Globals α} (h : Visit python process tasks mocks place flow data) :
    ∃ next, step python process tasks mocks place.id s = .ok (some next) := by
  unfold step
  cases h with
  | gateway here kind chosen leaves =>
      rw [here]
      dsimp only
      rw [if_neg (hflows _ _ here), if_neg (by rw [kind]; decide), if_pos kind, hs.data, chosen]
      exact ⟨_, follow_iff.mpr ⟨flow, leaves, rfl⟩⟩
  | task here notEnd notGateway script takes first leaves =>
      rw [here]
      dsimp only
      rw [if_neg (hflows _ _ here), if_neg notEnd, if_neg notGateway]
      exact ⟨⟨_, _, _⟩, (passNode_iff hs here notEnd notGateway).mpr
        ⟨flow, .task here notEnd notGateway script takes first leaves, rfl, rfl⟩⟩

end Turns

/-! ## Whole loops -/

section Loops

variable {python : Python α γ} {process : Process} {tasks : Globals α}
  {mocks : Option (Globals α)} {place : Place α} {s : State α}

/-- Where the loop ends without a limit: at the end of a walk, with the data of it. -/
def Ends (python : Python α γ) (process : Process) (tasks : Globals α)
    (mocks : Option (Globals α)) (start : Place α) (steps : Nat) (data : Globals α) : Prop :=
  ∃ place, ReflTransGen (Next python process tasks mocks) start place ∧
    ((AtEnd process place ∧ place.data = data ∧ place.visited.length < start.visited.length + steps) ∨
      (Dangles python process tasks mocks place data ∧
        place.visited.length + 1 < start.visited.length + steps))

theorem walk_ends (hflows : FlowsApart process) {data : Globals α} (steps : Nat)
    (hs : s.At process tasks place)
    (h : walk python process tasks mocks steps s = .ok (data, false)) :
    Ends python process tasks mocks place steps data := by
  induction steps generalizing s place with
  | zero => cases h
  | succ steps ih =>
      unfold walk at h
      rw [hs.currentId] at h
      dsimp only at h
      split at h
      · cases h
      · rename_i hstep
        have hdata : s.data = data := (Prod.mk.inj (Except.ok.inj h)).1
        refine ⟨place, .refl, .inl ⟨(step_eq_break hflows).mp hstep, hs.data.symm.trans hdata, ?_⟩⟩
        omega
      · rename_i next hstep
        obtain ⟨flow, hvisit, hid, hcounts⟩ := visit_of_step hflows hs hstep
        cases htarget : truthy next.currentId with
        | none =>
            cases steps with
            | zero => cases h
            | succ steps =>
                unfold walk at h
                rw [htarget] at h
                have hdata : next.data = data := (Prod.mk.inj (Except.ok.inj h)).1
                rw [hdata] at hvisit
                rw [hid] at htarget
                refine ⟨place, .refl, .inr ⟨⟨flow, hvisit, htarget⟩, ?_⟩⟩
                omega
        | some target =>
            have hnext : next.At process tasks ⟨place.visited ++ [place.id], target, next.data⟩ :=
              ⟨htarget, rfl, hcounts⟩
            obtain ⟨last, hpath, hend⟩ := ih hnext h
            rw [hid] at htarget
            refine ⟨last, .head ⟨flow, hvisit, htarget, rfl⟩ hpath, ?_⟩
            rw [List.length_append, List.length_singleton] at hend
            rcases hend with ⟨hend, hdata, hlength⟩ | ⟨hend, hlength⟩
            · refine .inl ⟨hend, hdata, ?_⟩
              omega
            · refine .inr ⟨hend, ?_⟩
              omega

theorem length_le_of_path {last : Place α}
    (h : ReflTransGen (Next python process tasks mocks) place last) :
    place.visited.length ≤ last.visited.length := by
  induction h with
  | refl => exact Nat.le_refl _
  | tail _ hnext ih =>
      obtain ⟨_, _, _, hvisited⟩ := hnext
      rw [hvisited, List.length_append, List.length_singleton]
      omega

theorem walk_of_ends (hflows : FlowsApart process) {data : Globals α} (steps : Nat)
    (hs : s.At process tasks place) (h : Ends python process tasks mocks place steps data) :
    walk python process tasks mocks steps s = .ok (data, false) := by
  obtain ⟨last, hpath, hend⟩ := h
  induction hpath using ReflTransGen.head_induction_on generalizing s steps with
  | refl =>
      rcases hend with ⟨hend, hdata, hlength⟩ | ⟨hend, hlength⟩
      · cases steps with
        | zero => omega
        | succ steps =>
            unfold walk
            rw [hs.currentId]
            dsimp only
            rw [(step_eq_break hflows).mpr hend, hs.data, hdata]
      · obtain ⟨flow, hvisit, hnowhere⟩ := hend
        obtain ⟨next, hstep⟩ := step_of_visit hflows hs hvisit
        obtain ⟨flow', hvisit', hid, _⟩ := visit_of_step hflows hs hstep
        obtain ⟨hflow, hdata⟩ := hvisit.unique hvisit'
        have htwo : ∃ rest, steps = rest + 2 := ⟨steps - 2, by omega⟩
        obtain ⟨rest, rfl⟩ := htwo
        unfold walk
        rw [hs.currentId]
        dsimp only
        rw [hstep]
        dsimp only
        unfold walk
        rw [hid, ← hflow, hnowhere, hdata]
  | head hnext hrest ih =>
      rename_i here after
      obtain ⟨flow, hvisit, htarget, hvisited⟩ := hnext
      have hlonger := length_le_of_path hrest
      rw [hvisited, List.length_append, List.length_singleton] at hlonger
      have hone : ∃ rest, steps = rest + 1 := ⟨steps - 1, by omega⟩
      obtain ⟨rest, rfl⟩ := hone
      obtain ⟨next, hstep⟩ := step_of_visit hflows hs hvisit
      obtain ⟨flow', hvisit', hid, hcounts⟩ := visit_of_step hflows hs hstep
      obtain ⟨hflow, hdata⟩ := hvisit.unique hvisit'
      have hnext : next.At process tasks after := by
        refine ⟨?_, hdata.symm, ?_⟩
        · rw [hid, ← hflow, htarget]
        · rw [hvisited]
          exact hcounts
      unfold walk
      rw [hs.currentId]
      dsimp only
      rw [hstep]
      apply ih rest hnext
      rw [hvisited, List.length_append, List.length_singleton]
      rcases hend with ⟨hend, hdata, hlength⟩ | ⟨hend, hlength⟩
      · refine .inl ⟨hend, hdata, ?_⟩
        omega
      · refine .inr ⟨hend, ?_⟩
        omega

end Loops

/-! ## The process of a document -/

section Documents

variable {python : Python α γ} {xml : Text} {process : Process}

/-- Nodes are kept under their ids, and no sequence flow is one of them. -/
def Process.Indexed (process : Process) : Prop :=
  ∀ entry ∈ process.nodes.entries,
    entry.2.localName ≠ "sequenceFlow".toList ∧ truthy (entry.2.get? "id") = some entry.1

theorem indexed_add {child : Element} (h : process.Indexed) : (process.add child).Indexed := by
  unfold Process.add
  cases hid : truthy (child.get? "id") with
  | none => exact h
  | some ident =>
      dsimp only
      split
      · exact h
      · rename_i hkind
        intro entry hentry
        rcases Dict.mem_entries_set hentry with hold | hnew
        · exact h entry hold
        · rw [hnew]
          exact ⟨hkind, hid⟩

theorem indexed_of_indexProcess (h : indexProcess python xml = .ok process) : process.Indexed := by
  unfold indexProcess at h
  cases hroot : python.fromstring xml with
  | error e => rw [hroot] at h; cases h
  | ok root =>
      rw [hroot] at h
      dsimp only [Bind.bind, Except.bind] at h
      split at h
      · cases h
      · rename_i element _
        rw [← Except.ok.inj h]
        have hfold : ∀ (children : List Element) (base : Process), base.Indexed →
            (children.foldl Process.add base).Indexed := by
          intro children
          induction children with
          | nil => exact fun _ hbase => hbase
          | cons child children ih => exact fun base hbase => ih _ (indexed_add hbase)
        apply hfold
        intro entry hentry
        cases hentry

theorem Process.Indexed.flowsApart (h : process.Indexed) : FlowsApart process :=
  fun id node hnode => (h (id, node) (Dict.get?_eq_some.mp hnode)).1

theorem Process.Indexed.start (h : process.Indexed) {start : Element}
    (hstart : (process.nodes.values.find? fun node => node.localName = "startEvent".toList) =
      some start) : ∃ id, start.get? "id" = some id ∧ truthy (some id) = some id := by
  obtain ⟨entry, hentry, hsame⟩ := List.mem_map.mp (List.mem_of_find?_eq_some hstart)
  obtain ⟨hid, hne⟩ := truthy_eq_some.mp (h entry hentry).2
  rw [hsame] at hid
  exact ⟨entry.1, hid, truthy_eq_some.mpr ⟨rfl, hne⟩⟩

end Documents

/-! ## Verdicts -/

section Verdicts

variable {python : Python α γ} {xml bpmnFile testCaseIdentifier : Text} {testCase : Globals α}

theorem passed_verdict_iff {expected : Value α} {outcome : Globals α × Bool} :
    (verdict python bpmnFile testCaseIdentifier expected outcome).passed = true ↔
      outcome.2 = false ∧ expected.equal python.same (.dict outcome.1.entries) = true := by
  unfold verdict
  dsimp only
  split
  · rename_i hlimit
    simp [hlimit]
  · rename_i hlimit
    split
    · rename_i hequal
      simp [hlimit, hequal]
    · rename_i hequal
      simp [hequal]

/-- The test is reported as passed when its walk comes to an end event, and when it leaves
along a flow that leads nowhere. -/
theorem reportsPassed_iff :
    ReportsPassed python xml bpmnFile testCaseIdentifier testCase ↔
      ShouldPass python xml testCase ∨ StopsOnFlow python xml testCase := by
  unfold ReportsPassed runOneTestCase ShouldPass StopsOnFlow Comes
  cases hindex : indexProcess python xml with
  | error e =>
      constructor
      · intro h
        obtain ⟨answer, hanswer, _⟩ := h
        cases hanswer
      · intro h
        rcases h with ⟨_, _, ⟨_, _, hprocess, _⟩, _⟩ | ⟨_, _, _, ⟨_, _, hprocess, _⟩, _⟩
        · cases hprocess
        · cases hprocess
  | ok process =>
      have hindexed := indexed_of_indexProcess hindex
      dsimp only [Bind.bind, Except.bind]
      cases hstart : process.nodes.values.find? fun node =>
          node.localName = "startEvent".toList with
      | none =>
          constructor
          · intro h
            obtain ⟨answer, hanswer, _⟩ := h
            cases hanswer
          · intro h
            rcases h with ⟨_, _, ⟨_, _, hprocess, hfound, _⟩, _⟩ |
              ⟨_, _, _, ⟨_, _, hprocess, hfound, _⟩, _⟩
            · rw [← Except.ok.inj hprocess, hstart] at hfound
              cases hfound
            · rw [← Except.ok.inj hprocess, hstart] at hfound
              cases hfound
      | some start =>
          obtain ⟨id, hid, htruthy⟩ := hindexed.start hstart
          have hat : (startState start : State α).At process (tasksOf testCase) ⟨[], id, .empty⟩ := by
            refine ⟨?_, rfl, fun _ _ _ _ _ => rfl⟩
            show truthy (start.get? "id") = some id
            rw [hid, htruthy]
          have hwalk : ∀ data, walk python process (tasksOf testCase) (mocksOf testCase) maxSteps
                (startState start) = .ok (data, false) ↔
              Ends python process (tasksOf testCase) (mocksOf testCase) ⟨[], id, .empty⟩ maxSteps
                data := by
            intro data
            exact ⟨walk_ends hindexed.flowsApart _ hat, walk_of_ends hindexed.flowsApart _ hat⟩
          dsimp only
          constructor
          · intro h
            obtain ⟨answer, hanswer, hpassed⟩ := h
            cases hloop : walk python process (tasksOf testCase) (mocksOf testCase) maxSteps
                (startState start) with
            | error e =>
                rw [hloop] at hanswer
                cases hanswer
            | ok outcome =>
                rw [hloop] at hanswer
                rw [← Except.ok.inj hanswer, passed_verdict_iff] at hpassed
                obtain ⟨data, limit⟩ := outcome
                obtain ⟨hlimit, hexpected⟩ := hpassed
                dsimp only at hlimit
                rw [hlimit] at hloop
                obtain ⟨place, hpath, hend⟩ := (hwalk data).mp hloop
                rw [List.length_nil, Nat.zero_add] at hend
                rcases hend with ⟨hend, hdata, hlength⟩ | ⟨hend, hlength⟩
                · refine .inl ⟨process, place, ⟨start, id, rfl, hstart, hid, hpath⟩, hend, hlength, ?_⟩
                  rw [hdata]
                  exact hexpected
                · exact .inr ⟨process, place, data, ⟨start, id, rfl, hstart, hid, hpath⟩, hend,
                    hlength, hexpected⟩
          · intro h
            have hends : ∃ data, Ends python process (tasksOf testCase) (mocksOf testCase)
                ⟨[], id, .empty⟩ maxSteps data ∧ Expected python testCase data := by
              unfold Ends
              rw [List.length_nil, Nat.zero_add]
              rcases h with ⟨_, place, ⟨_, _, hprocess, hfound, hstarts, hpath⟩, hend, hlength, hexpected⟩ |
                ⟨_, place, data, ⟨_, _, hprocess, hfound, hstarts, hpath⟩, hend, hlength, hexpected⟩
              · cases hprocess
                cases hstart.symm.trans hfound
                cases hid.symm.trans hstarts
                exact ⟨place.data, ⟨place, hpath, .inl ⟨hend, rfl, hlength⟩⟩, hexpected⟩
              · cases hprocess
                cases hstart.symm.trans hfound
                cases hid.symm.trans hstarts
                exact ⟨data, ⟨place, hpath, .inr ⟨hend, hlength⟩⟩, hexpected⟩
            obtain ⟨data, hends, hexpected⟩ := hends
            rw [(hwalk data).mpr hends]
            exact ⟨_, rfl, passed_verdict_iff.mpr ⟨rfl, hexpected⟩⟩

/-- A walk that leaves along a flow without target comes to no end event. -/
theorem StopsOnFlow.not_shouldPass (h : StopsOnFlow python xml testCase) :
    ¬ ShouldPass python xml testCase := by
  obtain ⟨process, place, data, ⟨start, id, hprocess, hfound, hstarts, hpath⟩, hdangles, _⟩ := h
  rintro ⟨_, other, ⟨_, _, hprocess', hfound', hstarts', hpath'⟩, hend, _⟩
  cases hprocess.symm.trans hprocess'
  cases hfound.symm.trans hfound'
  cases hstarts.symm.trans hstarts'
  exact Dangles.not_atEnd hpath hdangles hpath' hend

/-- The verdict is the right one unless the walk leaves along a flow without target, below the
step limit and with the expected data: such a test is reported as passed, too. -/
theorem verdict_right_iff (python : Python α γ) (xml bpmnFile testCaseIdentifier : Text)
    (testCase : Globals α) :
    (ReportsPassed python xml bpmnFile testCaseIdentifier testCase ↔
        ShouldPass python xml testCase) ↔ ¬ StopsOnFlow python xml testCase := by
  rw [reportsPassed_iff]
  constructor
  · intro hright hstops
    exact hstops.not_shouldPass (hright.mp (Or.inr hstops))
  · intro hnot
    exact ⟨fun h => h.resolve_right hnot, Or.inl⟩

/-- A process whose last flow has no target. -/
def openProcess : Element :=
  node "process" "order"
    [node "startEvent" "start" [textNode "outgoing" "f1"],
      node "scriptTask" "add" [textNode "outgoing" "f2", textNode "script" "total = 3"],
      flowTo "f1" "add",
      .element ⟨none, "sequenceFlow".toList⟩ [(⟨none, "id".toList⟩, "f2".toList)] [] []]

/-- The interpreter of the examples, on this process. -/
def openPython : Python Nat Unit := { examplePython with fromstring := fun _ => .ok openProcess }

/-- The test of a process without end event passes. -/
theorem open_process_passes :
    ReportsPassed openPython [] "order.bpmn".toList "adds".toList (totalCase "_fetch") ∧
      ¬ ShouldPass openPython [] (totalCase "_fetch") := by
  constructor
  · have hpassed : (runOneTestCase openPython [] "order.bpmn".toList "adds".toList
        (totalCase "_fetch")).map Verdict.passed = .ok true := by decide +kernel
    exact ok_of_map hpassed
  · rintro ⟨process, place, ⟨_, _, hprocess, _⟩, ⟨node, hnode, hkind⟩, _⟩
    have hnone : (indexProcess openPython []).map (fun process =>
        process.nodes.values.any fun node => node.localName = "endEvent".toList) = .ok false := by
      decide +kernel
    rw [hprocess] at hnone
    have hno := List.any_eq_false.mp (Except.ok.inj hnone) node (Dict.mem_values_of_get? hnode)
    exact hno (decide_eq_true hkind)

end Verdicts

end M8flow.Workflow.ModelTests
