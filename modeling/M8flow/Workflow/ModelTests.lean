import M8flow.Errors
import M8flow.Lib.Casing
import M8flow.Lib.Dict
import M8flow.Lib.Xml

/-!
# Unit tests of a process model

`run_one_test_case` of `workflow/process_model_tests.py`: a walk over the nodes of a process
that runs its scripts and its gateway conditions with RestrictedPython.  The mocks of a test
case enter the globals of every script, and what a script leaves there is harvested into the
data of the case.

- `Unused` says that nothing the process runs reads or writes the names of the mocks, and
  that the test case does not use them.
- `step_alike` is one node of two walks, with and without the mocks, and `walk_alike` the
  whole walks.
- `same_iff` says when the mocks change nothing.
-/

namespace M8flow.Workflow.ModelTests

open M8flow.Lib M8flow.Lib.Xml

/-! ## Values -/

/-- A Python object: a list, a dictionary with texts for keys, a mock, or anything else. -/
inductive Value (α : Type) where
  | atom (a : α)
  | list (items : List (Value α))
  | dict (entries : List (Text × Value α))
  | function (captured : Value α)

variable {α γ : Type}

/-- An element of a process. -/
abbrev Element := Node Text

/-- The data of a case, and the globals of a script. -/
abbrev Globals (α : Type) := Dict Text (Value α)

namespace Value

def asList : Value α → Option (List (Value α))
  | list items => some items
  | _ => none

def asDict : Value α → Option (Globals α)
  | dict entries => some (Dict.ofEntries entries)
  | _ => none

mutual

/-- `==`, where `same` is that of other objects; functions are compared by identity, and the
two sides have none in common. -/
def equal (same : α → α → Bool) : Value α → Value α → Bool
  | atom a, atom b => same a b
  | list items, list others => equalItems same items others
  | dict entries, dict others =>
      equalEntries same entries others &&
        others.all fun other => entries.any fun entry => entry.1 = other.1
  | _, _ => false

def equalItems (same : α → α → Bool) : List (Value α) → List (Value α) → Bool
  | [], [] => true
  | item :: items, other :: others => equal same item other && equalItems same items others
  | _, _ => false

/-- Every entry is in the other dictionary. -/
def equalEntries (same : α → α → Bool) : List (Text × Value α) → List (Text × Value α) → Bool
  | [], _ => true
  | (key, value) :: entries, others =>
      (match others.lookup key with
        | some other => equal same value other
        | none => false) && equalEntries same entries others

end

end Value

/-- What a test case raises. -/
inductive Raised where
  | api (e : ApiError)
  | other (what : Text)
  deriving Repr, DecidableEq

def unrunnable (message : Text) : Raised :=
  .api (.of "unrunnable_test" (String.ofList message) 400)

def scriptError (message : Text) : Raised :=
  .api (.of "script_error" (String.ofList message) 400)

/-! ## RestrictedPython -/

/-- `compile_restricted_exec(source)` or `compile_restricted_eval(source)`. -/
structure Compiled (γ : Type) where
  errors : List Text
  code : Option γ

/-- RestrictedPython and ElementTree: the codes are of type `γ`, and the objects that are
neither list nor dictionary of type `α`. -/
structure Python (α γ : Type) where
  casing : Casing
  fromstring : Text → Except Raised Element
  compileExec : Text → Compiled γ
  compileEval : Text → Compiled γ
  exec : γ → Globals α → Except Raised (Globals α)
  /-- `bool(eval(code, globals))`, which can raise. -/
  eval : γ → Globals α → Except Raised Bool
  safeGlobals : Globals α
  guard : Text → α
  none : α
  same : α → α → Bool

/-- The names that `_restricted_globals` sets itself. -/
def guardNames : List Text :=
  ["_getattr_".toList, "_getitem_".toList, "_getiter_".toList, "_iter_unpack_sequence_".toList]

variable (python : Python α γ)

def guards : Globals α := Dict.ofEntries (guardNames.map fun name => (name, .atom (python.guard name)))

/-- `_restricted_globals`. -/
def restrictedGlobals (data : Globals α) (mocks : Option (Globals α)) : Globals α :=
  let globals := (python.safeGlobals.merge (guards python)).merge data
  match mocks with
  | some mocks => globals.merge (mocks.mapValues .function)
  | none => globals

/-- The keys that are not harvested. -/
def isHidden (key : Text) : Bool :=
  key ∈ python.safeGlobals.keys || key ∈ guardNames || ['_'].isPrefixOf key

/-- `_exec_script`. -/
def execScript (script : Text) (data : Globals α) (mocks : Option (Globals α)) :
    Except Raised (Globals α) :=
  let compiled := python.compileExec script
  if compiled.errors ≠ [] then .error (scriptError ("; ".toList.intercalate compiled.errors))
  else
    match compiled.code with
    | none => .error (scriptError "Script did not compile".toList)
    | some code =>
        (python.exec code (restrictedGlobals python data mocks)).map fun globals =>
          globals.keep fun key => !isHidden python key

/-- The expression that `_eval_condition` compiles. -/
def conditionText (expression : Text) : Text :=
  let text := expression.strip
  if "$\x7b".toList.isPrefixOf text && ['\x7d'].isSuffixOf text then
    Text.strip (text.drop 2).dropLast
  else text

/-- `_eval_condition`. -/
def evalCondition (expression : Text) (data : Globals α) : Bool :=
  match conditionText expression with
  | [] => true
  | text =>
      let compiled := python.compileEval text
      match if compiled.errors ≠ [] then Option.none else compiled.code with
      | Option.none => false
      | some code =>
          match python.eval code (restrictedGlobals python data Option.none) with
          | .ok holds => holds
          | .error _ => false

/-! ## The process -/

/-- `_child_text`. -/
def childText (element : Element) (localName : String) : Text :=
  Text.strip ("\n".toList.intercalate ((element.childrenNamed localName).map Node.itertext))

/-- `_outgoing_ids`. -/
def outgoingIds (element : Element) : List Text :=
  ((element.childrenNamed "outgoing").map fun child => child.text.strip).filter fun text =>
    text ≠ []

/-- The nodes and the sequence flows of a process, by their ids. -/
structure Process where
  nodes : Dict Text Element
  flows : Dict Text Element

/-- The loop body of `_index_process`. -/
def Process.add (process : Process) (child : Element) : Process :=
  match truthy (child.get? "id") with
  | none => process
  | some ident =>
      if child.localName = "sequenceFlow".toList then
        { process with flows := process.flows.set ident child }
      else { process with nodes := process.nodes.set ident child }

/-- `_index_process`: the first process that is executable, or the first one. -/
def indexProcess (xml : Text) : Except Raised Process := do
  let root ← python.fromstring xml
  let processes := root.iter.filter fun element => element.localName = "process".toList
  let executable := processes.find? fun element =>
    python.casing.lower ((element.get? "isExecutable").getD "true".toList) = "true".toList
  match executable.or processes.head? with
  | none => .error (unrunnable "No BPMN process found".toList)
  | some process =>
      .ok (process.elements.foldl Process.add ⟨.empty, .empty⟩)

/-- The condition of a sequence flow, and nothing if it has none. -/
def conditionOf (flow : Element) : Text :=
  (((flow.childrenNamed "conditionExpression").head?).map fun child => child.itertext.strip).getD []

/-- `_next_from_gateway`. -/
def nextFromGateway (node : Element) (flows : Dict Text Element) (data : Globals α) :
    Except Raised Text :=
  let defaultId := node.get? "default"
  let chosen := (outgoingIds node).find? fun flowId =>
    some flowId ≠ defaultId && (flows.get? flowId).any fun flow =>
      conditionOf flow ≠ [] && evalCondition python (conditionOf flow) data
  match truthy (chosen.or ((truthy defaultId).or (outgoingIds node).head?)) with
  | some flowId => .ok flowId
  | none =>
      .error (unrunnable ("Gateway ".toList ++ (node.get? "id").getD "None".toList ++
        " has no outgoing flow".toList))

/-! ## The walk -/

/-- `_next_task_data`: the data, and the index of the data used up. -/
def nextTaskData (tasks : Globals α) (taskId : Text) (taskIndex : Dict Text Nat) (required : Bool)
    (taskType : Text) : Except Raised (Option (Globals α) × Dict Text Nat) :=
  match ((tasks.get? taskId).bind Value.asDict).bind fun props => props.get? "data".toList with
  | none =>
      if required then
        .error (unrunnable ("Cannot run test. It requires task data for ".toList ++ taskId ++
          " because it is of type '".toList ++ taskType ++ "'".toList))
      else .ok (none, taskIndex)
  | some series =>
      match series.asList with
      | none => .error (unrunnable ("Task data for ".toList ++ taskId ++ " must be an array".toList))
      | some series =>
          let index := (taskIndex.get? taskId).getD 0
          match series[index]? with
          | none =>
              .error (unrunnable ("Missing input task data for task: ".toList ++ taskId ++
                ". Only ".toList ++ (toString series.length).toList ++
                " given but task was called ".toList ++ (toString (index + 1)).toList ++
                " times".toList))
          | some item => .ok (item.asDict, taskIndex.set taskId (index + 1))

/-- Where the walk is: the id of the next node, the data, and how often each task was reached. -/
structure State (α : Type) where
  currentId : Option Text
  data : Globals α
  taskIndex : Dict Text Nat

/-- Go on to the target of a flow. -/
def follow (process : Process) (s : State α) (flowId : Text) : Except Raised (Option (State α)) :=
  match process.flows.get? flowId with
  | none => .error (unrunnable ("Unknown flow ".toList ++ flowId))
  | some flow => .ok (some { s with currentId := flow.get? "targetRef" })

/-- The data after the node's script, if it is a script task that has one. -/
def runScript (node : Element) (data : Globals α) (mocks : Option (Globals α)) :
    Except Raised (Globals α) :=
  if node.localName = "scriptTask".toList ∧ childText node "script" ≠ [] then
    (execScript python (childText node "script") data mocks).map data.merge
  else .ok data

/-- A task, or a node without an effect of its own. -/
def passNode (process : Process) (tasks : Globals α) (mocks : Option (Globals α))
    (currentId : Text) (node : Element) (s : State α) : Except Raised (Option (State α)) := do
  let data ← runScript python node s.data mocks
  let required := node.localName ∈ ["userTask".toList, "serviceTask".toList]
  let (payload, taskIndex) ← nextTaskData tasks currentId s.taskIndex required node.localName
  let data := data.merge (payload.getD .empty)
  match (outgoingIds node).head? with
  | none => .error (unrunnable (currentId ++ " has no outgoing flow".toList))
  | some flowId => follow process { s with data, taskIndex } flowId

/-- The loop body of `run_one_test_case`; nothing is the `break`. -/
def step (process : Process) (tasks : Globals α) (mocks : Option (Globals α)) (currentId : Text)
    (s : State α) : Except Raised (Option (State α)) :=
  match process.nodes.get? currentId with
  | none => .error (unrunnable ("Unknown element ".toList ++ currentId))
  | some node =>
      if node.localName = "sequenceFlow".toList then
        match process.flows.get? currentId with
        | none => .error (.other "KeyError".toList)
        | some flow => .ok (some { s with currentId := flow.get? "targetRef" })
      else if node.localName = "endEvent".toList then .ok none
      else if node.localName = "exclusiveGateway".toList then do
        let flowId ← nextFromGateway python node process.flows s.data
        follow process s flowId
      else passNode python process tasks mocks currentId node s

/-- `_MAX_STEPS`. -/
def maxSteps : Nat := 500

/-- The loop, with the steps that are left: the data at its end, and whether it came to the
step limit. -/
def walk (process : Process) (tasks : Globals α) (mocks : Option (Globals α)) :
    (steps : Nat) → State α → Except Raised (Globals α × Bool)
  | 0, s => .ok (s.data, true)
  | steps + 1, s =>
      match truthy s.currentId with
      | none => .ok (s.data, false)
      | some currentId =>
          match step python process tasks mocks currentId s with
          | .error e => .error e
          | .ok none => .ok (s.data, false)
          | .ok (some next) => walk process tasks mocks steps next

/-- The states in which the loop comes to a node. -/
def arrivals (process : Process) (tasks : Globals α) (mocks : Option (Globals α)) :
    (steps : Nat) → State α → List (State α)
  | 0, _ => []
  | steps + 1, s =>
      match truthy s.currentId with
      | none => []
      | some currentId =>
          s :: match step python process tasks mocks currentId s with
            | .ok (some next) => arrivals process tasks mocks steps next
            | _ => []

/-! ## The verdict -/

/-- `test_case_error_details`. -/
structure Details (α : Type) where
  errorMessages : List Text
  expectedData : Option (Value α)
  outputData : Globals α

/-- What `run_one_test_case` answers. -/
structure Verdict (α : Type) where
  passed : Bool
  bpmnFile : Text
  testCaseIdentifier : Text
  testCaseErrorDetails : Option (Details α)

/-- The comparison with the expected output. -/
def verdict (bpmnFile testCaseIdentifier : Text) (expected : Value α) (outcome : Globals α × Bool) :
    Verdict α :=
  let data := outcome.1
  let failed := fun details : Details α => Verdict.mk false bpmnFile testCaseIdentifier (some details)
  if outcome.2 then failed ⟨["Test exceeded the step limit.".toList], none, data⟩
  else if expected.equal python.same (.dict data.entries) then
    ⟨true, bpmnFile, testCaseIdentifier, none⟩
  else
    failed ⟨["Expected output did not match actual output.".toList], some expected, data⟩

/-- The mocks of a test case. -/
def mocksOf (testCase : Globals α) : Option (Globals α) :=
  (testCase.get? "mocks".toList).bind Value.asDict

/-- The data of the tasks of a test case. -/
def tasksOf (testCase : Globals α) : Globals α :=
  ((testCase.get? "tasks".toList).bind Value.asDict).getD .empty

def expectedOf (testCase : Globals α) : Value α :=
  (testCase.get? "expected_output_json".toList).getD (.atom python.none)

/-- The state before the first node. -/
def startState (start : Element) : State α := ⟨start.get? "id", .empty, .empty⟩

/-- `run_one_test_case`. -/
def runOneTestCase (xml bpmnFile testCaseIdentifier : Text) (testCase : Globals α) :
    Except Raised (Verdict α) := do
  let process ← indexProcess python xml
  match process.nodes.values.find? fun node => node.localName = "startEvent".toList with
  | none => .error (unrunnable ("No start event in ".toList ++ bpmnFile))
  | some start => do
      let outcome ← walk python process (tasksOf testCase) (mocksOf testCase) maxSteps
        (startState start)
      .ok (verdict python bpmnFile testCaseIdentifier (expectedOf python testCase) outcome)

/-! ## Mocks that nothing uses -/

/-- The key is none of the names. -/
def off (names : List Text) (key : Text) : Bool := key ∉ names

/-- The script does with the names nothing: with other values for them it does the same to the
rest, and it leaves their values as they are. -/
structure Ignores (names : List Text) (code : γ) : Prop where
  agree : ∀ globals globals' : Globals α, globals.keep (off names) = globals'.keep (off names) →
    (python.exec code globals).map (Dict.keep (off names)) =
      (python.exec code globals').map (Dict.keep (off names))
  stays : ∀ globals after : Globals α, python.exec code globals = .ok after →
    ∀ name ∈ names, after.get? name = globals.get? name

/-- The dictionaries that the tasks of a test case give. -/
def payloads (tasks : Globals α) : List (Globals α) :=
  tasks.values.flatMap fun props =>
    (((props.asDict.bind fun props => props.get? "data".toList).bind Value.asList).getD []).filterMap
      Value.asDict

/-- Nothing that RestrictedPython runs of the process reads or writes the names, and they are
no keys of the task data or of the expected output. -/
structure Unused (process : Process) (testCase : Globals α) (names : List Text) : Prop where
  scripts : ∀ node ∈ process.nodes.values, node.localName = "scriptTask".toList →
    ∀ code, (python.compileExec (childText node "script")).code = some code →
      Ignores python names code
  conditions : ∀ flow ∈ process.flows.values, ∀ code,
    (python.compileEval (conditionText (conditionOf flow))).code = some code →
      ∀ globals globals' : Globals α, globals.keep (off names) = globals'.keep (off names) →
        python.eval code globals = python.eval code globals'
  taskData : ∀ payload ∈ payloads (tasksOf testCase), ∀ name ∈ names, name ∉ payload.keys
  expected : ∀ entries, expectedOf python testCase = .dict entries →
    ∀ name ∈ names, name ∉ entries.map Prod.fst

/-- The same error, or results in the relation. -/
def Alike {β β' : Type} (R : β → β' → Prop) : Except Raised β → Except Raised β' → Prop
  | .ok a, .ok b => R a b
  | .error e, .error e' => e = e'
  | _, _ => False

namespace Alike

variable {β β' : Type} {R : β → β' → Prop}

theorem cases {x : Except Raised β} {x' : Except Raised β'} (h : Alike R x x') :
    (∃ e, x = .error e ∧ x' = .error e) ∨ ∃ a b, x = .ok a ∧ x' = .ok b ∧ R a b := by
  cases x with
  | error e =>
      cases x' with
      | error e' =>
          have hsame : e = e' := h
          exact Or.inl ⟨e, rfl, by rw [hsame]⟩
      | ok b => exact h.elim
  | ok a =>
      cases x' with
      | error e' => exact h.elim
      | ok b => exact Or.inr ⟨a, b, rfl, rfl, h⟩

theorem bind {δ δ' : Type} {S : δ → δ' → Prop} {x : Except Raised β} {x' : Except Raised β'}
    {f : β → Except Raised δ} {f' : β' → Except Raised δ'} (h : Alike R x x')
    (hf : ∀ a b, R a b → Alike S (f a) (f' b)) : Alike S (x >>= f) (x' >>= f') := by
  rcases h.cases with ⟨e, hx, hx'⟩ | ⟨a, b, hx, hx', hab⟩
  · rw [hx, hx']
    exact rfl
  · rw [hx, hx']
    exact hf a b hab

/-- The same computation on both sides. -/
theorem self {x : Except Raised β} {R : β → β → Prop} (h : ∀ a, x = .ok a → R a a) :
    Alike R x x := by
  cases x with
  | error e => exact rfl
  | ok a => exact h a rfl

end Alike

/-- The data with mocks, of which the data without them is what is left without the names. -/
def DataAlike (names : List Text) (data data' : Globals α) : Prop := data'.keep (off names) = data

/-- The states of the two walks. -/
structure StateAlike (names : List Text) (s s' : State α) : Prop where
  currentId : s.currentId = s'.currentId
  data : DataAlike names s.data s'.data
  taskIndex : s.taskIndex = s'.taskIndex

/-- Both walks go on, or both end. -/
def NextAlike (names : List Text) : Option (State α) → Option (State α) → Prop
  | some s, some s' => StateAlike names s s'
  | none, none => True
  | _, _ => False

section Agreement

variable {python} {names : List Text} {data data' : Globals α} {mocks : Option (Globals α)}

theorem DataAlike.clear (h : DataAlike names data data') : data.keep (off names) = data := by
  rw [← h, Dict.keep_idem]

/-- The keys of the data without mocks are none of the names. -/
theorem DataAlike.not_mem (h : DataAlike names data data') {name : Text} (hname : name ∈ names) :
    name ∉ data.keys := by
  rw [← h.clear, Dict.mem_keys_keep, off, decide_eq_true_eq]
  exact fun hmem => hmem.2 hname

/-- The globals of the two scripts are the same but for the names. -/
theorem restrictedGlobals_alike (hmocks : ∀ given, mocks = some given → ∀ key ∈ given.keys, key ∈ names)
    (h : DataAlike names data data') :
    (restrictedGlobals python data none).keep (off names) =
      (restrictedGlobals python data' mocks).keep (off names) := by
  unfold restrictedGlobals
  dsimp only
  have hbase : ((python.safeGlobals.merge (guards python)).merge data).keep (off names) =
      ((python.safeGlobals.merge (guards python)).merge data').keep (off names) := by
    rw [Dict.keep_merge, Dict.keep_merge _ _ data', h, h.clear]
  cases hgiven : mocks with
  | none => exact hbase
  | some given =>
      have hempty : (given.mapValues Value.function).keep (off names) = Dict.empty := by
        apply Dict.keep_eq_empty
        intro key hkey
        rw [Dict.keys_mapValues] at hkey
        exact decide_eq_false (not_not.mpr (hmocks given hgiven key hkey))
      dsimp only
      rw [Dict.keep_merge _ _ (given.mapValues Value.function), hempty, Dict.merge_empty]
      exact hbase

/-- A name that no data has is hidden from what a script without mocks leaves. -/
theorem hidden_of_mem_globals {name : Text} (hdata : name ∉ data.keys)
    (h : name ∈ (restrictedGlobals python data none).keys) : isHidden python name = true := by
  unfold restrictedGlobals at h
  dsimp only at h
  unfold isHidden
  rcases Dict.mem_keys_merge.mp h with hbase | hin
  · rcases Dict.mem_keys_merge.mp hbase with hsafe | hguard
    · simp [hsafe]
    · have hnames : name ∈ guardNames := by
        unfold guards at hguard
        exact Dict.mem_of_mem_keys_ofEntries hguard
      simp [hnames]
  · exact absurd hin hdata

/-- What is harvested of the two scripts. -/
theorem execScript_alike {script : Text}
    (hmocks : ∀ given, mocks = some given → ∀ key ∈ given.keys, key ∈ names)
    (hscript : ∀ code, (python.compileExec script).code = some code → Ignores python names code)
    (h : DataAlike names data data') :
    Alike (DataAlike names) (execScript python script data none)
      (execScript python script data' mocks) := by
  unfold execScript
  dsimp only
  by_cases herrors : (python.compileExec script).errors ≠ []
  · rw [if_pos herrors, if_pos herrors]
    exact rfl
  · rw [if_neg herrors, if_neg herrors]
    cases hcode : (python.compileExec script).code with
    | none => exact rfl
    | some code =>
        have hignores := hscript code hcode
        have hglobals : (restrictedGlobals python data none).keep (off names) =
            (restrictedGlobals python data' mocks).keep (off names) :=
          restrictedGlobals_alike hmocks h
        have hagree := hignores.agree _ _ hglobals
        dsimp only
        cases hexec : python.exec code (restrictedGlobals python data none) with
        | error e =>
            rw [hexec] at hagree
            cases hexec' : python.exec code (restrictedGlobals python data' mocks) with
            | error e' =>
                rw [hexec'] at hagree
                exact Except.error.inj hagree
            | ok after' =>
                rw [hexec'] at hagree
                cases hagree
        | ok after =>
            rw [hexec] at hagree
            cases hexec' : python.exec code (restrictedGlobals python data' mocks) with
            | error e' =>
                rw [hexec'] at hagree
                cases hagree
            | ok after' =>
                rw [hexec'] at hagree
                have hkept : after.keep (off names) = after'.keep (off names) :=
                  Except.ok.inj hagree
                show (after'.keep _).keep (off names) = after.keep _
                rw [Dict.keep_keep, ← hkept, Dict.keep_keep]
                apply Dict.keep_eq_self
                intro key hkey
                obtain ⟨hafter, hharvested⟩ := Dict.mem_keys_keep.mp hkey
                apply decide_eq_true
                intro hname
                have hvalue := hignores.stays _ after hexec key hname
                have hbefore : key ∈ (restrictedGlobals python data none).keys := by
                  rw [Dict.mem_keys_iff] at hafter ⊢
                  rw [← hvalue]
                  exact hafter
                rw [hidden_of_mem_globals (h.not_mem hname) hbefore] at hharvested
                cases hharvested

end Agreement

/-! ## One node -/

section Steps

variable {python} {process : Process} {testCase : Globals α} {names : List Text}
  {mocks : Option (Globals α)}

theorem mem_payloads {tasks : Globals α} {taskId taskType : Text} {taskIndex taskIndex' : Dict Text Nat}
    {required : Bool} {payload : Globals α}
    (h : nextTaskData tasks taskId taskIndex required taskType = .ok (some payload, taskIndex')) :
    payload ∈ payloads tasks := by
  unfold nextTaskData at h
  split at h
  · split at h
    · cases h
    · cases h
  · rename_i series hseries
    split at h
    · cases h
    · rename_i items hitems
      dsimp only at h
      split at h
      · cases h
      · rename_i item hitem
        obtain ⟨props, hprops, hdata⟩ := Option.bind_eq_some_iff.mp hseries
        obtain ⟨value, hvalue, hdict⟩ := Option.bind_eq_some_iff.mp hprops
        have hpayload : item.asDict = some payload := (Prod.mk.inj (Except.ok.inj h)).1
        unfold payloads
        rw [List.mem_flatMap]
        refine ⟨value, Dict.mem_values_of_get? hvalue, ?_⟩
        rw [List.mem_filterMap, hdict, Option.bind_some, hdata, Option.bind_some, hitems]
        exact ⟨item, List.mem_of_getElem? hitem, hpayload⟩

/-- The payload of a task has none of the names. -/
theorem payload_keep (hunused : Unused python process testCase names) {taskId taskType : Text}
    {taskIndex taskIndex' : Dict Text Nat} {required : Bool} {payload : Option (Globals α)}
    (h : nextTaskData (tasksOf testCase) taskId taskIndex required taskType =
      .ok (payload, taskIndex')) :
    (payload.getD .empty).keep (off names) = payload.getD .empty := by
  apply Dict.keep_eq_self
  intro key hkey
  apply decide_eq_true
  intro hname
  cases payload with
  | none => cases hkey
  | some payload => exact hunused.taskData payload (mem_payloads h) key hname hkey

theorem runScript_alike {node : Element} {data data' : Globals α}
    (hmocks : ∀ given, mocks = some given → ∀ key ∈ given.keys, key ∈ names)
    (hunused : Unused python process testCase names) (hnode : node ∈ process.nodes.values)
    (h : DataAlike names data data') :
    Alike (DataAlike names) (runScript python node data none) (runScript python node data' mocks) := by
  unfold runScript
  split
  · rename_i hscript
    rcases (execScript_alike hmocks (hunused.scripts node hnode hscript.1) h).cases with
      ⟨e, hexec, hexec'⟩ | ⟨harvest, harvest', hexec, hexec', hharvest⟩
    · rw [hexec, hexec']
      exact rfl
    · rw [hexec, hexec']
      show (data'.merge harvest').keep (off names) = data.merge harvest
      rw [Dict.keep_merge, h, hharvest]
  · exact h

theorem evalCondition_alike {flow : Element} {data data' : Globals α}
    (hunused : Unused python process testCase names) (hflow : flow ∈ process.flows.values)
    (h : DataAlike names data data') :
    evalCondition python (conditionOf flow) data = evalCondition python (conditionOf flow) data' := by
  have hnone : ∀ given : Globals α, none = some given → ∀ key ∈ given.keys, key ∈ names := by
    intro given hgiven
    cases hgiven
  have hglobals : (restrictedGlobals python data none).keep (off names) =
      (restrictedGlobals python data' none).keep (off names) := restrictedGlobals_alike hnone h
  unfold evalCondition
  split
  · rfl
  · dsimp only
    split
    · rfl
    · rename_i code hcode
      split at hcode
      · cases hcode
      · rw [hunused.conditions flow hflow code hcode _ _ hglobals]

theorem nextFromGateway_alike {node : Element} {data data' : Globals α}
    (hunused : Unused python process testCase names) (h : DataAlike names data data') :
    nextFromGateway python node process.flows data =
      nextFromGateway python node process.flows data' := by
  have hchosen : ∀ flowId, (process.flows.get? flowId).any (fun flow =>
        conditionOf flow ≠ [] && evalCondition python (conditionOf flow) data) =
      (process.flows.get? flowId).any fun flow =>
        conditionOf flow ≠ [] && evalCondition python (conditionOf flow) data' := by
    intro flowId
    cases hflow : process.flows.get? flowId with
    | none => rfl
    | some flow =>
        rw [Option.any_some, Option.any_some,
          evalCondition_alike hunused (Dict.mem_values_of_get? hflow) h]
  unfold nextFromGateway
  simp only [hchosen]

theorem follow_alike {s s' : State α} {flowId : Text} (h : StateAlike names s s') :
    Alike (NextAlike names) (follow process s flowId) (follow process s' flowId) := by
  unfold follow
  cases process.flows.get? flowId with
  | none => exact rfl
  | some flow => exact ⟨rfl, h.data, h.taskIndex⟩

/-- One node of the two walks. -/
theorem step_alike (currentId : Text) {s s' : State α}
    (hmocks : ∀ given, mocks = some given → ∀ key ∈ given.keys, key ∈ names)
    (hunused : Unused python process testCase names) (h : StateAlike names s s') :
    Alike (NextAlike names) (step python process (tasksOf testCase) none currentId s)
      (step python process (tasksOf testCase) mocks currentId s') := by
  unfold step
  cases hnode : process.nodes.get? currentId with
  | none => exact rfl
  | some node =>
      dsimp only
      split
      · cases process.flows.get? currentId with
        | none => exact rfl
        | some flow => exact ⟨rfl, h.data, h.taskIndex⟩
      · split
        · exact trivial
        · split
          · rw [nextFromGateway_alike hunused h.data]
            apply Alike.bind (Alike.self (R := Eq) fun _ _ => rfl)
            intro flowId flowId' hsame
            rw [hsame]
            exact follow_alike h
          · unfold passNode
            apply Alike.bind
              (runScript_alike hmocks hunused (Dict.mem_values_of_get? hnode) h.data)
            intro data data' hdata
            rw [h.taskIndex]
            apply Alike.bind (Alike.self (R := fun p q => p = q ∧
              (p.1.getD .empty).keep (off names) = p.1.getD .empty) ?_)
            · intro p q hpq
              obtain ⟨hsame, hkeep⟩ := hpq
              rw [← hsame]
              dsimp only
              cases (outgoingIds node).head? with
              | none => exact rfl
              | some flowId =>
                  apply follow_alike
                  refine ⟨h.currentId, ?_, rfl⟩
                  show (data'.merge _).keep (off names) = data.merge _
                  rw [Dict.keep_merge, hdata, hkeep]
            · intro p hp
              exact ⟨rfl, payload_keep hunused hp⟩

end Steps

/-! ## Whole walks -/

theorem ok_of_map {β β' : Type} {x : Except Raised β} {f : β → β'} {b : β'}
    (h : x.map f = .ok b) : ∃ a, x = .ok a ∧ f a = b := by
  cases x with
  | error e => cases h
  | ok a => exact ⟨a, rfl, Except.ok.inj h⟩

/-- The walk comes to a script task that has a script. -/
def RunsScriptAt (process : Process) (s : State α) : Prop :=
  ∃ currentId node, s.currentId = some currentId ∧ process.nodes.get? currentId = some node ∧
    node.localName = "scriptTask".toList ∧ childText node "script" ≠ []

section Walks

variable {python} {process : Process} {testCase tasks : Globals α} {names : List Text}
  {mocks : Option (Globals α)} {s s' : State α} {steps : Nat}

theorem walk_alike (steps : Nat)
    (hmocks : ∀ given, mocks = some given → ∀ key ∈ given.keys, key ∈ names)
    (hunused : Unused python process testCase names) (h : StateAlike names s s') :
    Alike (fun outcome outcome' => DataAlike names outcome.1 outcome'.1 ∧ outcome.2 = outcome'.2)
      (walk python process (tasksOf testCase) none steps s)
      (walk python process (tasksOf testCase) mocks steps s') := by
  induction steps generalizing s s' with
  | zero => exact ⟨h.data, rfl⟩
  | succ steps ih =>
      unfold walk
      rw [← h.currentId]
      cases truthy s.currentId with
      | none => exact ⟨h.data, rfl⟩
      | some currentId =>
          dsimp only
          rcases (step_alike currentId hmocks hunused h).cases with
            ⟨e, hstep, hstep'⟩ | ⟨next, next', hstep, hstep', hnext⟩
          · rw [hstep, hstep']
            exact rfl
          · rw [hstep, hstep']
            cases next with
            | none =>
                cases next' with
                | none => exact ⟨h.data, rfl⟩
                | some next' => exact hnext.elim
            | some next =>
                cases next' with
                | none => exact hnext.elim
                | some next' => exact ih hnext

/-- What a step that goes on makes of the data. -/
theorem step_cases {currentId : Text} {next : State α}
    (h : step python process tasks mocks currentId s = .ok (some next)) :
    ∃ node, process.nodes.get? currentId = some node ∧
      ((node.localName ≠ "scriptTask".toList ∧ next.data = s.data) ∨
        ∃ data payload taskIndex taskIndex' required taskType,
          runScript python node s.data mocks = .ok data ∧
          nextTaskData tasks currentId taskIndex required taskType = .ok (payload, taskIndex') ∧
          next.data = data.merge (payload.getD .empty)) := by
  have hfollow : ∀ {t : State α} {flowId : Text}, follow process t flowId = .ok (some next) →
      next.data = t.data := by
    intro t flowId hflow
    unfold follow at hflow
    split at hflow
    · cases hflow
    · rw [← Option.some.inj (Except.ok.inj hflow)]
  unfold step at h
  split at h
  · cases h
  · rename_i node hnode
    refine ⟨node, hnode, ?_⟩
    split at h
    · rename_i hkind
      split at h
      · cases h
      · left
        rw [← Option.some.inj (Except.ok.inj h), hkind]
        exact ⟨by decide, rfl⟩
    · split at h
      · cases h
      · split at h
        · rename_i hkind
          left
          rw [hkind]
          refine ⟨by decide, ?_⟩
          cases hgateway : nextFromGateway python node process.flows s.data with
          | error e =>
              rw [hgateway] at h
              cases h
          | ok flowId =>
              rw [hgateway] at h
              exact hfollow h
        · right
          unfold passNode at h
          cases hscript : runScript python node s.data mocks with
          | error e =>
              rw [hscript] at h
              cases h
          | ok data =>
              rw [hscript] at h
              dsimp only [Bind.bind, Except.bind] at h
              split at h
              · cases h
              · rename_i result hresult
                obtain ⟨payload, taskIndex⟩ := result
                dsimp only at h
                split at h
                · cases h
                · exact ⟨data, payload, _, taskIndex, _, _, rfl, hresult, hfollow h⟩

/-- No script runs where the walk ends. -/
theorem not_runsScriptAt_of_end {currentId : Text} (hcurrent : s.currentId = some currentId)
    (h : step python process tasks mocks currentId s = .ok none) : ¬ RunsScriptAt process s := by
  rintro ⟨currentId', node, hcurrent', hnode, hkind, -⟩
  rw [hcurrent] at hcurrent'
  rw [← Option.some.inj hcurrent'] at hnode
  have hfollow : ∀ {t : State α} {flowId : Text}, follow process t flowId ≠ .ok none := by
    intro t flowId hflow
    unfold follow at hflow
    split at hflow
    · cases hflow
    · cases hflow
  unfold step at h
  rw [hnode] at h
  dsimp only at h
  rw [hkind, if_neg (by decide), if_neg (by decide), if_neg (by decide)] at h
  unfold passNode at h
  dsimp only [Bind.bind, Except.bind] at h
  split at h
  · cases h
  · split at h
    · cases h
    · split at h
      · cases h
      · exact hfollow h

/-! ### Hidden names -/

/-- What is harvested has no hidden key. -/
theorem not_hidden_of_execScript {script : Text} {data harvest : Globals α}
    (h : execScript python script data mocks = .ok harvest) {key : Text} (hkey : key ∈ harvest.keys) :
    isHidden python key = false := by
  unfold execScript at h
  dsimp only at h
  split at h
  · cases h
  · split at h
    · cases h
    · rename_i code hcode
      obtain ⟨after, -, hafter⟩ := ok_of_map h
      rw [← hafter] at hkey
      exact (Bool.not_eq_true' _).mp (Dict.mem_keys_keep.mp hkey).2

theorem walk_clear (hhidden : ∀ name ∈ names, isHidden python name = true)
    (hunused : Unused python process testCase names) {outcome : Globals α × Bool}
    (hstart : ∀ name ∈ names, name ∉ s.data.keys)
    (h : walk python process (tasksOf testCase) mocks steps s = .ok outcome) :
    ∀ name ∈ names, name ∉ outcome.1.keys := by
  induction steps generalizing s with
  | zero =>
      rw [← Except.ok.inj h]
      exact hstart
  | succ steps ih =>
      unfold walk at h
      split at h
      · rw [← Except.ok.inj h]
        exact hstart
      · rename_i currentId _
        split at h
        · cases h
        · rw [← Except.ok.inj h]
          exact hstart
        · rename_i next hstep
          apply ih ?_ h
          intro name hname
          obtain ⟨node, hnode, ⟨-, hsame⟩ | ⟨data, payload, _, _, _, _, hscript, htask, hdata⟩⟩ :=
            step_cases hstep
          · rw [hsame]
            exact hstart name hname
          · rw [hdata, Dict.mem_keys_merge, not_or]
            constructor
            · unfold runScript at hscript
              split at hscript
              · obtain ⟨harvest, hexec, hmerged⟩ := ok_of_map hscript
                rw [← hmerged, Dict.mem_keys_merge, not_or]
                refine ⟨hstart name hname, ?_⟩
                intro hmem
                have hvisible := not_hidden_of_execScript hexec hmem
                rw [hhidden name hname] at hvisible
                cases hvisible
              · rw [← Except.ok.inj hscript]
                exact hstart name hname
            · cases payload with
              | none => exact List.not_mem_nil
              | some payload => exact hunused.taskData payload (mem_payloads htask) name hname

/-! ### Names that a script brings in -/

/-- A mock that is not hidden is harvested. -/
theorem mem_of_execScript {script : Text} {data harvest given : Globals α} {name : Text}
    (hscript : ∀ code, (python.compileExec script).code = some code → Ignores python names code)
    (hname : name ∈ names) (hgiven : name ∈ given.keys) (hvisible : isHidden python name = false)
    (h : execScript python script data (some given) = .ok harvest) : name ∈ harvest.keys := by
  unfold execScript at h
  dsimp only at h
  split at h
  · cases h
  · split at h
    · cases h
    · rename_i code hcode
      obtain ⟨after, hexec, hafter⟩ := ok_of_map h
      rw [← hafter, Dict.mem_keys_keep, hvisible, Dict.mem_keys_iff,
        (hscript code hcode).stays _ after hexec name hname, ← Dict.mem_keys_iff]
      refine ⟨?_, rfl⟩
      unfold restrictedGlobals
      dsimp only
      rw [Dict.mem_keys_merge, Dict.keys_mapValues]
      exact Or.inr hgiven

/-- A name stays in the data, and comes in with a script. -/
theorem mem_of_step {given : Globals α} {name currentId : Text} {next : State α}
    (hunused : Unused python process testCase names) (hname : name ∈ names)
    (hgiven : name ∈ given.keys) (hvisible : isHidden python name = false)
    (hcurrent : s.currentId = some currentId) (hbefore : name ∈ s.data.keys ∨ RunsScriptAt process s)
    (h : step python process (tasksOf testCase) (some given) currentId s = .ok (some next)) :
    name ∈ next.data.keys := by
  obtain ⟨node, hnode, hcases⟩ := step_cases h
  have hscriptAt : RunsScriptAt process s →
      node.localName = "scriptTask".toList ∧ childText node "script" ≠ [] := by
    rintro ⟨currentId', node', hcurrent', hnode', hruns⟩
    rw [hcurrent] at hcurrent'
    rw [← Option.some.inj hcurrent', hnode] at hnode'
    rw [Option.some.inj hnode']
    exact hruns
  rcases hcases with ⟨hkind, hsame⟩ | ⟨data, payload, _, _, _, _, hscript, -, hdata⟩
  · rw [hsame]
    rcases hbefore with hin | hruns
    · exact hin
    · exact absurd (hscriptAt hruns).1 hkind
  · rw [hdata, Dict.mem_keys_merge]
    left
    unfold runScript at hscript
    split at hscript
    · rename_i hruns
      obtain ⟨harvest, hexec, hmerged⟩ := ok_of_map hscript
      rw [← hmerged, Dict.mem_keys_merge]
      right
      exact mem_of_execScript
        (hunused.scripts node (Dict.mem_values_of_get? hnode) hruns.1) hname hgiven hvisible hexec
    · rename_i hnone
      rw [← Except.ok.inj hscript]
      rcases hbefore with hin | hruns
      · exact hin
      · exact absurd (hscriptAt hruns) hnone

/-- Once a script of the walk ran, the name is in the data at its end. -/
theorem mem_of_walk {given : Globals α} {name : Text} {outcome : Globals α × Bool}
    (hmocks : ∀ key ∈ given.keys, key ∈ names) (hunused : Unused python process testCase names)
    (hgiven : name ∈ given.keys) (hvisible : isHidden python name = false)
    (hstates : StateAlike names s s')
    (hbefore : name ∈ s'.data.keys ∨
      ∃ t ∈ arrivals python process (tasksOf testCase) none steps s, RunsScriptAt process t)
    (h : walk python process (tasksOf testCase) (some given) steps s' = .ok outcome) :
    name ∈ outcome.1.keys := by
  induction steps generalizing s s' with
  | zero =>
      rw [← Except.ok.inj h]
      rcases hbefore with hin | ⟨t, ht, -⟩
      · exact hin
      · cases ht
  | succ steps ih =>
      unfold arrivals at hbefore
      unfold walk at h
      rw [← hstates.currentId] at h
      cases hcurrent : truthy s.currentId with
      | none =>
          rw [hcurrent] at h hbefore
          rw [← Except.ok.inj h]
          rcases hbefore with hin | ⟨t, ht, -⟩
          · exact hin
          · cases ht
      | some currentId =>
          rw [hcurrent] at h hbefore
          dsimp only at h hbefore
          have hcurrent' : s'.currentId = some currentId := by
            rw [← hstates.currentId]
            exact (truthy_eq_some.mp hcurrent).1
          have hsame : RunsScriptAt process s → RunsScriptAt process s' := by
            intro hruns
            obtain ⟨id, node, hid, hrest⟩ := hruns
            rw [hstates.currentId] at hid
            exact ⟨id, node, hid, hrest⟩
          have hgivenMocks : ∀ mocks, some given = some mocks → ∀ key ∈ mocks.keys, key ∈ names := by
            intro mocks hsome
            rw [← Option.some.inj hsome]
            exact hmocks
          rcases (step_alike currentId hgivenMocks hunused hstates).cases with
            ⟨e, hstep, hstep'⟩ | ⟨next, next', hstep, hstep', hnext⟩
          · rw [hstep'] at h
            cases h
          · rw [hstep'] at h
            rw [hstep] at hbefore
            cases next' with
            | none =>
                cases next with
                | some next => exact hnext.elim
                | none =>
                    rw [← Except.ok.inj h]
                    rcases hbefore with hin | ⟨t, ht, hruns⟩
                    · exact hin
                    · rw [List.mem_singleton.mp ht] at hruns
                      exact absurd (hsame hruns) (not_runsScriptAt_of_end hcurrent' hstep')
            | some next' =>
                cases next with
                | none => exact hnext.elim
                | some next =>
                    apply ih hnext ?_ h
                    rcases hbefore with hin | ⟨t, ht, hruns⟩
                    · exact Or.inl (mem_of_step hunused (hmocks name hgiven) hgiven hvisible
                        hcurrent' (Or.inl hin) hstep')
                    · rcases List.mem_cons.mp ht with hfirst | hlater
                      · rw [hfirst] at hruns
                        exact Or.inl (mem_of_step hunused (hmocks name hgiven) hgiven hvisible
                          hcurrent' (Or.inr (hsame hruns)) hstep')
                      · exact Or.inr ⟨t, hlater, hruns⟩

/-- Without scripts the mocks are not read. -/
theorem walk_same
    (h : ∀ t ∈ arrivals python process tasks none steps s, ¬ RunsScriptAt process t) :
    walk python process tasks mocks steps s = walk python process tasks none steps s := by
  induction steps generalizing s with
  | zero => rfl
  | succ steps ih =>
      unfold arrivals at h
      unfold walk
      cases hcurrent : truthy s.currentId with
      | none => rfl
      | some currentId =>
          rw [hcurrent] at h
          dsimp only at h ⊢
          have hnot := h s List.mem_cons_self
          have hstep : step python process tasks mocks currentId s =
              step python process tasks none currentId s := by
            unfold step
            cases hnode : process.nodes.get? currentId with
            | none => rfl
            | some node =>
                have hscript : ∀ mocks, runScript python node s.data mocks = .ok s.data := by
                  intro mocks
                  unfold runScript
                  rw [if_neg]
                  intro hruns
                  exact hnot ⟨currentId, node, (truthy_eq_some.mp hcurrent).1, hnode, hruns⟩
                dsimp only
                unfold passNode
                rw [hscript mocks, hscript none]
          rw [hstep]
          cases hnext : step python process tasks none currentId s with
          | error e => rfl
          | ok next =>
              cases next with
              | none => rfl
              | some next =>
                  dsimp only
                  apply ih
                  intro t ht
                  apply h t
                  rw [hnext]
                  exact List.mem_cons_of_mem s ht

end Walks

/-! ## Test cases -/

/-- The names of the mocks of a test case. -/
def mockNames (testCase : Globals α) : List Text := ((mocksOf testCase).map Dict.keys).getD []

/-- The test case without its mocks. -/
def withoutMocks (testCase : Globals α) : Globals α := testCase.pop "mocks".toList

/-- The case comes to a script task that has a script. -/
def RunsScript (xml : Text) (testCase : Globals α) : Prop :=
  ∃ process start, indexProcess python xml = .ok process ∧
    process.nodes.values.find? (fun node => node.localName = "startEvent".toList) = some start ∧
    ∃ s ∈ arrivals python process (tasksOf testCase) none maxSteps (startState start),
      RunsScriptAt process s

section Cases

variable {python} {xml bpmnFile testCaseIdentifier : Text} {testCase : Globals α}

theorem mocksOf_withoutMocks (testCase : Globals α) : mocksOf (withoutMocks testCase) = none := by
  unfold mocksOf withoutMocks
  rw [Dict.get?_pop, if_pos rfl]
  rfl

theorem tasksOf_withoutMocks (testCase : Globals α) :
    tasksOf (withoutMocks testCase) = tasksOf testCase := by
  unfold tasksOf withoutMocks
  rw [Dict.get?_pop, if_neg (by decide)]

theorem expectedOf_withoutMocks (testCase : Globals α) :
    expectedOf python (withoutMocks testCase) = expectedOf python testCase := by
  unfold expectedOf withoutMocks
  rw [Dict.get?_pop, if_neg (by decide)]

/-- Expected output without a key of the data is not equal to it. -/
theorem not_equal_of_mem {same : α → α → Bool} {expected : Value α} {data : Globals α} {name : Text}
    (hdata : name ∈ data.keys)
    (hexpected : ∀ entries, expected = .dict entries → name ∉ entries.map Prod.fst) :
    expected.equal same (.dict data.entries) = false := by
  cases expected with
  | atom a => rfl
  | list items => rfl
  | function captured => rfl
  | dict entries =>
      have hnot := hexpected entries rfl
      obtain ⟨entry, hentry, hkey⟩ := List.mem_map.mp hdata
      unfold Value.equal
      rw [Bool.and_eq_false_iff]
      right
      rw [List.all_eq_false]
      refine ⟨entry, hentry, ?_⟩
      rw [List.any_eq_true]
      intro hany
      obtain ⟨other, hother, hsame⟩ := hany
      have hfst : other.1 = name := (of_decide_eq_true hsame).trans hkey
      exact hnot (hfst ▸ List.mem_map_of_mem hother)

/-- A verdict on data with the name differs from one on data without it. -/
theorem verdict_ne {expected : Value α} {outcome outcome' : Globals α × Bool} {name : Text}
    (hname : name ∉ outcome.1.keys) (hname' : name ∈ outcome'.1.keys)
    (hexpected : ∀ entries, expected = .dict entries → name ∉ entries.map Prod.fst) :
    verdict python bpmnFile testCaseIdentifier expected outcome' ≠
      verdict python bpmnFile testCaseIdentifier expected outcome := by
  have houtput : ∀ outcome : Globals α × Bool,
      verdict python bpmnFile testCaseIdentifier expected outcome =
          ⟨true, bpmnFile, testCaseIdentifier, none⟩ ∨
        ((verdict python bpmnFile testCaseIdentifier expected outcome).testCaseErrorDetails.map
          Details.outputData) = some outcome.1 := by
    intro outcome
    unfold verdict
    dsimp only
    split
    · exact Or.inr rfl
    · split
      · exact Or.inl rfl
      · exact Or.inr rfl
  have hfailed : ((verdict python bpmnFile testCaseIdentifier expected
      outcome').testCaseErrorDetails.map Details.outputData) = some outcome'.1 := by
    unfold verdict
    dsimp only
    rw [not_equal_of_mem hname' hexpected]
    split
    · rfl
    · rfl
  intro hsame
  rw [hsame] at hfailed
  rcases houtput outcome with hpassed | hdata
  · rw [hpassed] at hfailed
    cases hfailed
  · rw [hdata] at hfailed
    rw [Option.some.inj hfailed] at hname
    exact hname hname'

/-- The mocks of a case, which nothing uses, change nothing exactly if all of their names are
hidden, or the case gives no verdict, or comes to one without a script. -/
theorem same_iff (hunused : ∀ process, indexProcess python xml = .ok process →
      Unused python process testCase (mockNames testCase)) :
    runOneTestCase python xml bpmnFile testCaseIdentifier testCase =
        runOneTestCase python xml bpmnFile testCaseIdentifier (withoutMocks testCase) ↔
      (∀ name ∈ mockNames testCase, isHidden python name = true) ∨
        ∀ answer, runOneTestCase python xml bpmnFile testCaseIdentifier (withoutMocks testCase) =
          .ok answer → ¬ RunsScript python xml testCase := by
  have hnames : ∀ given, mocksOf testCase = some given →
      ∀ key ∈ given.keys, key ∈ mockNames testCase := by
    intro given hgiven key hkey
    unfold mockNames
    rw [hgiven]
    exact hkey
  unfold runOneTestCase RunsScript
  rw [mocksOf_withoutMocks, tasksOf_withoutMocks, expectedOf_withoutMocks]
  cases hindex : indexProcess python xml with
  | error e =>
      refine ⟨fun _ => Or.inr ?_, fun _ => rfl⟩
      intro answer hanswer
      cases hanswer
  | ok process =>
      have hprocess := hunused process hindex
      dsimp only [Bind.bind, Except.bind]
      cases hstart : process.nodes.values.find? fun node =>
          node.localName = "startEvent".toList with
      | none =>
          refine ⟨fun _ => Or.inr ?_, fun _ => rfl⟩
          intro answer hanswer
          cases hanswer
      | some start =>
          have hstates : StateAlike (mockNames testCase) (startState start : State α)
              (startState start) := ⟨rfl, rfl, rfl⟩
          dsimp only
          rcases (walk_alike maxSteps hnames hprocess hstates).cases with
            ⟨e, hwalk, hwalk'⟩ | ⟨outcome, outcome', hwalk, hwalk', hdata, hlimit⟩
          · rw [hwalk, hwalk']
            refine ⟨fun _ => Or.inr ?_, fun _ => rfl⟩
            intro answer hanswer
            cases hanswer
          rw [hwalk, hwalk']
          dsimp only
          constructor
          · intro hsame
            by_cases hhidden : ∀ name ∈ mockNames testCase, isHidden python name = true
            · exact Or.inl hhidden
            right
            intro answer _ hruns
            obtain ⟨process', start', hprocess', hstart', hscript⟩ := hruns
            rw [← Except.ok.inj hprocess'] at hstart' hscript
            rw [hstart] at hstart'
            rw [← Option.some.inj hstart'] at hscript
            rw [not_forall] at hhidden
            obtain ⟨name, hhidden⟩ := hhidden
            rw [Classical.not_imp, Bool.not_eq_true] at hhidden
            obtain ⟨hname, hvisible⟩ := hhidden
            cases hmocks : mocksOf testCase with
            | none =>
                unfold mockNames at hname
                rw [hmocks] at hname
                cases hname
            | some given =>
                have hgiven : name ∈ given.keys := by
                  unfold mockNames at hname
                  rw [hmocks] at hname
                  exact hname
                rw [hmocks] at hwalk'
                have hmem := mem_of_walk (hnames given hmocks) hprocess hgiven hvisible hstates
                  (Or.inr hscript) hwalk'
                exact verdict_ne (hdata.not_mem hname) hmem
                  (fun entries hentries => hprocess.expected entries hentries name hname)
                  (Except.ok.inj hsame)
          · intro hcondition
            rcases hcondition with hhidden | hnone
            · have hempty : ∀ name ∈ mockNames testCase,
                  name ∉ (startState start : State α).data.keys := fun _ _ => List.not_mem_nil
              have hclear : outcome'.1.keep (off (mockNames testCase)) = outcome'.1 := by
                apply Dict.keep_eq_self
                intro key hkey
                apply decide_eq_true
                intro hname
                exact walk_clear hhidden hprocess hempty hwalk' key hname hkey
              have hsame : outcome' = outcome := Prod.ext (hclear.symm.trans hdata) hlimit.symm
              rw [hsame]
            · have hscripts : ∀ t ∈ arrivals python process (tasksOf testCase) none maxSteps
                  (startState start), ¬ RunsScriptAt process t := by
                intro t ht hruns
                exact hnone _ rfl ⟨process, start, rfl, hstart, t, ht, hruns⟩
              rw [walk_same hscripts, hwalk] at hwalk'
              rw [Except.ok.inj hwalk']

end Cases

/-! ### Examples -/

def node (localName id : String) (children : List Element) : Element :=
  .element ⟨none, localName.toList⟩ [(⟨none, "id".toList⟩, id.toList)] []
    (children.map fun child => (child, []))

def flowTo (id target : String) : Element :=
  .element ⟨none, "sequenceFlow".toList⟩
    [(⟨none, "id".toList⟩, id.toList), (⟨none, "targetRef".toList⟩, target.toList)] [] []

def textNode (localName text : String) : Element :=
  .element ⟨none, localName.toList⟩ [] text.toList []

/-- A process that computes a total. -/
def totalProcess : Element :=
  node "process" "order"
    [node "startEvent" "start" [textNode "outgoing" "f1"],
      node "scriptTask" "add" [textNode "outgoing" "f2", textNode "script" "total = 3"],
      node "endEvent" "end" [], flowTo "f1" "add", flowTo "f2" "end"]

/-- The interpreter on the script of this process. -/
def examplePython : Python Nat Unit where
  casing := .ascii
  fromstring _ := .ok totalProcess
  compileExec _ := ⟨[], some ()⟩
  compileEval _ := ⟨[], none⟩
  exec _ globals := .ok (globals.set "total".toList (.atom 3))
  eval _ _ := .ok false
  safeGlobals := Dict.ofEntries [("__builtins__".toList, .atom 0)]
  guard _ := 0
  none := 0
  same a b := a = b

/-- A test case that expects the total, with one mock. -/
def totalCase (mock : String) : Globals Nat :=
  Dict.ofEntries
    [("mocks".toList, .dict [(mock.toList, .atom 7)]),
      ("expected_output_json".toList, .dict [("total".toList, .atom 3)])]

theorem unused_total {process : Process} {testCase : Globals Nat} {names : List Text}
    (hnames : "total".toList ∉ names) (htasks : tasksOf testCase = .empty)
    (hexpected : expectedOf examplePython testCase = .dict [("total".toList, .atom 3)]) :
    Unused examplePython process testCase names where
  scripts := by
    intro node _ _ code _
    constructor
    · intro globals globals' hkeep
      have hset : ∀ globals : Globals Nat, (globals.set "total".toList (.atom 3)).keep (off names) =
          (globals.keep (off names)).set "total".toList (.atom 3) := by
        intro globals
        apply Dict.keep_set
        exact decide_eq_true hnames
      show Except.ok _ = Except.ok _
      rw [hset, hset, hkeep]
    · intro globals after hexec name hname
      rw [← Except.ok.inj hexec, Dict.get?_set, if_neg]
      intro hsame
      rw [hsame] at hname
      exact hnames hname
  conditions := by
    intro flow _ code hcode
    cases hcode
  taskData := by
    rw [htasks]
    intro payload hpayload
    cases hpayload
  expected := by
    intro entries hentries name hname hmem
    rw [hexpected] at hentries
    rw [← Value.dict.inj hentries] at hmem
    rw [List.mem_singleton.mp hmem] at hname
    exact hnames hname

/-- A mock with a hidden name changes nothing. -/
theorem same_hidden_mock :
    runOneTestCase examplePython [] "order.bpmn".toList "adds".toList (totalCase "_fetch") =
      runOneTestCase examplePython [] "order.bpmn".toList "adds".toList
        (withoutMocks (totalCase "_fetch")) := by
  have hnames : mockNames (totalCase "_fetch") = ["_fetch".toList] := by decide
  apply (same_iff ?_).mpr (Or.inl ?_)
  · intro process _
    exact unused_total (by rw [hnames]; decide) rfl rfl
  · rw [hnames]
    decide

/-- A mock with any other name fails the test that passes without it. -/
theorem mock_fails_test :
    (∀ process, indexProcess examplePython [] = .ok process →
        Unused examplePython process (totalCase "fetch") (mockNames (totalCase "fetch"))) ∧
      (runOneTestCase examplePython [] "order.bpmn".toList "adds".toList
        (totalCase "fetch")).map Verdict.passed = .ok false ∧
      (runOneTestCase examplePython [] "order.bpmn".toList "adds".toList
        (withoutMocks (totalCase "fetch"))).map Verdict.passed = .ok true := by
  have hnames : mockNames (totalCase "fetch") = ["fetch".toList] := by decide
  refine ⟨?_, ?_, ?_⟩
  · intro process _
    exact unused_total (by rw [hnames]; decide) rfl rfl
  · decide +kernel
  · decide +kernel

end M8flow.Workflow.ModelTests
