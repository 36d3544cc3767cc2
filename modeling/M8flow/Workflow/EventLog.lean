import M8flow.Lib.Paging
import M8flow.Lib.Table
import M8flow.Lib.Text
import Mathlib.Data.Char
import Mathlib.Data.List.Lex
import Mathlib.Data.Prod.Lex
import Mathlib.Logic.Equiv.Basic

/-!
# The event log of an instance

`list_instance_events_for_designer`: the recorded events of an instance, and a synthesized
row for each finished task that has no recorded event of its kind, sorted by time and cut
into pages.  Every page is a request of its own, for which the database returns the rows of
its two statements in whatever order it has.

- `logRows` merges the two sources, `sortedLog` sorts and filters, and
  `listInstanceEventsForDesigner` cuts.
- `logRows_perm`: which rows there are does not depend on the order.
- `tie_synthesized`: only synthesized rows can tie.
- `swapped_log`: an order of the database that exchanges two tied rows.
- `paged_iff` says when the pages make up the log.
-/

namespace M8flow.Workflow.EventLog

open M8flow.Lib

/-! ## Tables -/

/-- `ProcessInstanceEventModel`; times are microseconds, as `datetime` keeps them. -/
structure EventRecord where
  id : Nat
  m8fTenantId : Text
  processInstanceId : Nat
  taskGuid : Option Text
  eventType : Text
  category : Option Text
  userId : Option Nat
  occurredAt : Option Int
  deriving DecidableEq

/-- `TaskModel`, with the stamp in its properties. -/
structure TaskRecord where
  guid : Text
  m8fTenantId : Text
  processInstanceId : Nat
  taskDefinitionId : Nat
  bpmnProcessId : Option Nat
  state : Text
  lastStateChange : Option Int
  deriving DecidableEq

/-- `TaskDefinitionModel`. -/
structure TaskDefinition where
  id : Nat
  bpmnName : Option Text
  bpmnIdentifier : Text
  typename : Text

/-- `BpmnProcessModel`. -/
structure BpmnProcess where
  id : Nat
  bpmnProcessDefinitionId : Option Nat

/-- `BpmnProcessDefinitionModel`. -/
structure BpmnProcessDefinition where
  id : Nat
  bpmnIdentifier : Text

/-- `UserModel`. -/
structure User where
  id : Nat
  displayName : Option Text
  username : Option Text

/-- `ProcessInstanceErrorModel`, in the order of its ids. -/
structure InstanceError where
  m8fTenantId : Text
  processInstanceId : Nat
  taskGuid : Option Text
  message : Text

/-- The tables; events have an id and tasks a guid of their own. -/
structure Tables where
  events : List EventRecord
  tasks : List TaskRecord
  taskDefinitions : List TaskDefinition
  processes : List BpmnProcess
  processDefinitions : List BpmnProcessDefinition
  users : List User
  errors : List InstanceError
  event_ids : (events.map EventRecord.id).Nodup
  task_guids : (tasks.map TaskRecord.guid).Nodup

/-! ## The two statements -/

/-- `_SPIFF_INTERNAL_TASK_TYPES`. -/
def spiffInternalTaskTypes : List Text :=
  ["BpmnStartTask", "SimpleBpmnTask", "_EndJoin", "BoundaryEventSplit", "BoundaryEventJoin",
    "StartEventSplit", "StartEventJoin"].map String.toList

/-- `_TASK_EVENT_BY_STATE`. -/
def taskEventByState : List (Text × Text) :=
  [("COMPLETED".toList, "task_completed".toList), ("ERROR".toList, "task_failed".toList),
    ("CANCELLED".toList, "task_cancelled".toList)]

/-- `_TASK_EVENT_BY_STATE[state]`. -/
def taskEventOf (state : Text) : Option Text :=
  (taskEventByState.find? fun entry => entry.1 = state).map Prod.snd

/-- `task_columns`. -/
structure TaskColumns where
  bpmnProcess : Option Text
  taskName : Option Text
  taskIdentifier : Option Text
  taskType : Option Text
  deriving DecidableEq

/-- The columns that the outer joins find for a task. -/
def Tables.columns (tables : Tables) (task : TaskRecord) : TaskColumns :=
  let definition := Table.lookup TaskDefinition.id tables.taskDefinitions task.taskDefinitionId
  let process := task.bpmnProcessId.bind (Table.lookup BpmnProcess.id tables.processes)
  { bpmnProcess :=
      ((process.bind BpmnProcess.bpmnProcessDefinitionId).bind
        (Table.lookup BpmnProcessDefinition.id tables.processDefinitions)).map
          BpmnProcessDefinition.bpmnIdentifier
    taskName := definition.bind TaskDefinition.bpmnName
    taskIdentifier := definition.map TaskDefinition.bpmnIdentifier
    taskType := definition.map TaskDefinition.typename }

/-- No task was joined. -/
def TaskColumns.absent : TaskColumns :=
  { bpmnProcess := none, taskName := none, taskIdentifier := none, taskType := none }

/-- A row of `event_stmt`. -/
structure EventResult where
  event : EventRecord
  actorDisplay : Option Text
  actorUsername : Option Text
  columns : TaskColumns
  deriving DecidableEq

/-- A row of `task_stmt`. -/
structure TaskResult where
  task : TaskRecord
  columns : TaskColumns
  deriving DecidableEq

/-- The task that `event_stmt` joins to an event. -/
def Tables.taskOf (tables : Tables) (tenantId : Text) (processInstanceId : Nat)
    (taskGuid : Option Text) : Option TaskRecord :=
  tables.tasks.find? fun task =>
    some task.guid = taskGuid && task.m8fTenantId = tenantId &&
      task.processInstanceId = processInstanceId

/-- `event_stmt`. -/
def Tables.eventStmt (tables : Tables) (tenantId : Text) (processInstanceId : Nat) :
    List EventResult :=
  (tables.events.filter fun event =>
    event.processInstanceId = processInstanceId && event.m8fTenantId = tenantId).map fun event =>
      let user := event.userId.bind (Table.lookup User.id tables.users)
      { event := event
        actorDisplay := user.bind User.displayName
        actorUsername := user.bind User.username
        columns := ((tables.taskOf tenantId processInstanceId event.taskGuid).map
          tables.columns).getD .absent }

/-- `task_stmt`: finished tasks with a definition that is not one of Spiff's own. -/
def Tables.taskStmt (tables : Tables) (tenantId : Text) (processInstanceId : Nat) :
    List TaskResult :=
  (tables.tasks.filter fun task =>
    task.processInstanceId = processInstanceId && task.m8fTenantId = tenantId &&
      (taskEventOf task.state).isSome &&
      match Table.lookup TaskDefinition.id tables.taskDefinitions task.taskDefinitionId with
      | none => false
      | some definition => definition.typename ∉ spiffInternalTaskTypes).map fun task =>
        { task := task, columns := tables.columns task }

/-- `list_instance_errors`. -/
def Tables.instanceErrors (tables : Tables) (tenantId : Text) (processInstanceId : Nat) :
    List (Option Text × Text) :=
  (tables.errors.filter fun error =>
    error.m8fTenantId = tenantId && error.processInstanceId = processInstanceId).map fun error =>
      (error.taskGuid, error.message)

/-! ## The log -/

/-- One row of the response. -/
structure LogRow where
  id : Option Nat
  taskGuid : Option Text
  bpmnProcess : Option Text
  taskName : Option Text
  taskIdentifier : Option Text
  taskType : Option Text
  eventType : Text
  category : Option Text
  user : Text
  occurredAt : Option Int
  errorMessage : Option Text
  deriving DecidableEq

/-- `error_message` of a row: of its task, or the latest for the instance. -/
def errorMessage (errors : List (Option Text × Text)) (taskGuid : Option Text) (eventType : Text) :
    Option Text :=
  if eventType = "task_failed".toList then
    (errors.reverse.find? fun error => error.1 = taskGuid).map Prod.snd
  else if eventType = "process_instance_error".toList then errors.getLast?.map Prod.snd
  else none

/-- The row of a recorded event.  `categoryFor` is `_category_for_event_type`. -/
def eventRow (categoryFor : Text → Option Text) (errors : List (Option Text × Text))
    (result : EventResult) : LogRow where
  id := some result.event.id
  taskGuid := result.event.taskGuid
  bpmnProcess := result.columns.bpmnProcess
  taskName := result.columns.taskName
  taskIdentifier := result.columns.taskIdentifier
  taskType := result.columns.taskType
  eventType := result.event.eventType
  category := result.event.category.or (categoryFor result.event.eventType)
  user := ((truthy result.actorDisplay).or (truthy result.actorUsername)).getD "system".toList
  occurredAt := result.event.occurredAt
  errorMessage := errorMessage errors result.event.taskGuid result.event.eventType

/-- The row of a finished task, as an event of the given type. -/
def taskRow (categoryFor : Text → Option Text) (errors : List (Option Text × Text))
    (result : TaskResult) (synthesizedType : Text) : LogRow where
  id := none
  taskGuid := some result.task.guid
  bpmnProcess := result.columns.bpmnProcess
  taskName := result.columns.taskName
  taskIdentifier := result.columns.taskIdentifier
  taskType := result.columns.taskType
  eventType := synthesizedType
  category := categoryFor synthesizedType
  user := "system".toList
  occurredAt := result.task.lastStateChange
  errorMessage := errorMessage errors (some result.task.guid) synthesizedType

/-- An event of the type is recorded for the task: `(task.guid, synthesized_type) in seen`. -/
def isSeen (events : List EventResult) (guid synthesizedType : Text) : Bool :=
  events.any fun result =>
    result.event.taskGuid = some guid && result.event.eventType = synthesizedType

/-- The row of a task, unless its event is recorded. -/
def synthesizedRow (categoryFor : Text → Option Text) (errors : List (Option Text × Text))
    (events : List EventResult) (result : TaskResult) : Option LogRow :=
  (taskEventOf result.task.state).bind fun synthesizedType =>
    if isSeen events result.task.guid synthesizedType then none
    else some (taskRow categoryFor errors result synthesizedType)

/-- The rows of both sources, in the order in which the database returned them. -/
def logRows (categoryFor : Text → Option Text) (errors : List (Option Text × Text))
    (events : List EventResult) (tasks : List TaskResult) : List LogRow :=
  events.map (eventRow categoryFor errors) ++
    tasks.filterMap (synthesizedRow categoryFor errors events)

/-- `datetime.min` in UTC. -/
def datetimeMin : Int := -62135596800000000

/-- The sort key. -/
def rowKey (row : LogRow) : Bool ×ₗ Int ×ₗ Bool ×ₗ Nat :=
  toLex (row.occurredAt.isNone, toLex (row.occurredAt.getD datetimeMin,
    toLex (row.id.isNone, row.id.getD 0)))

/-- The two filters of a request; an empty text is no filter. -/
structure LogFilter where
  eventType : Option Text
  taskType : Option Text

/-- The row passes both filters. -/
def LogFilter.passes (filter : LogFilter) (row : LogRow) : Bool :=
  (match truthy filter.eventType with
    | none => true
    | some eventType => row.eventType = eventType) &&
  match truthy filter.taskType with
  | none => true
  | some taskType => row.taskType = some taskType

/-- The response. -/
structure LogPage where
  results : List LogRow
  count : Nat
  total : Nat
  pages : Nat
  eventTypes : List Text
  taskTypes : List Text

/-- The filtered log before it is cut. -/
def sortedLog (filter : LogFilter) (rows : List LogRow) : List LogRow :=
  (Paging.sortBy rowKey rows).filter filter.passes

/-- `sorted({...})` of texts. -/
def sortedSet (texts : List Text) : List Text :=
  texts.dedup.insertionSort fun text other => text ≤ other

/-- `list_instance_events_for_designer`, on what the database returned for this request. -/
def listInstanceEventsForDesigner (categoryFor : Text → Option Text)
    (errors : List (Option Text × Text)) (events : List EventResult) (tasks : List TaskResult)
    (filter : LogFilter) (page perPage : Nat) : LogPage :=
  let rows := logRows categoryFor errors events tasks
  let log := sortedLog filter rows
  let results := Paging.slice perPage page log
  { results := results
    count := results.length
    total := log.length
    pages := if log.length = 0 then 0 else (log.length + perPage - 1) / perPage
    eventTypes := sortedSet (rows.map LogRow.eventType)
    taskTypes := sortedSet (rows.filterMap fun row => truthy row.taskType) }

/-- What the database returned for one request. -/
structure Answer (tables : Tables) (tenantId : Text) (processInstanceId : Nat) where
  events : List EventResult
  tasks : List TaskResult
  events_perm : events.Perm (tables.eventStmt tenantId processInstanceId)
  tasks_perm : tasks.Perm (tables.taskStmt tenantId processInstanceId)

section Log

variable {categoryFor : Text → Option Text} {errors : List (Option Text × Text)}
  {tables : Tables} {tenantId : Text} {processInstanceId : Nat}

/-! ## Which rows there are -/

theorem isSeen_perm {events other : List EventResult} (h : events.Perm other)
    (guid synthesizedType : Text) :
    isSeen events guid synthesizedType = isSeen other guid synthesizedType := by
  unfold isSeen
  rw [Bool.eq_iff_iff, List.any_eq_true, List.any_eq_true]
  constructor
  · intro hseen
    obtain ⟨result, hmem, hmatch⟩ := hseen
    exact ⟨result, h.mem_iff.mp hmem, hmatch⟩
  · intro hseen
    obtain ⟨result, hmem, hmatch⟩ := hseen
    exact ⟨result, h.mem_iff.mpr hmem, hmatch⟩

/-- Which rows there are does not depend on the order. -/
theorem logRows_perm {events events' : List EventResult} {tasks tasks' : List TaskResult}
    (hevents : events.Perm events') (htasks : tasks.Perm tasks') :
    (logRows categoryFor errors events tasks).Perm (logRows categoryFor errors events' tasks') := by
  have hsame : synthesizedRow categoryFor errors events =
      synthesizedRow categoryFor errors events' := by
    funext result
    unfold synthesizedRow
    congr 1
    funext synthesizedType
    rw [isSeen_perm hevents]
  unfold logRows
  rw [hsame]
  exact (hevents.map _).append (htasks.filterMap _)

theorem id_eventRow (result : EventResult) :
    (eventRow categoryFor errors result).id = some result.event.id := rfl

/-- A synthesized row names its task and has no id. -/
theorem synthesizedRow_fields {events : List EventResult} {result : TaskResult} {row : LogRow}
    (h : synthesizedRow categoryFor errors events result = some row) :
    row.id = none ∧ row.taskGuid = some result.task.guid := by
  obtain ⟨synthesizedType, -, hrow⟩ := Option.bind_eq_some_iff.mp h
  split at hrow
  · cases hrow
  · rw [← Option.some.inj hrow]
    exact ⟨rfl, rfl⟩

theorem eventStmt_ids (tables : Tables) (tenantId : Text) (processInstanceId : Nat) :
    ((tables.eventStmt tenantId processInstanceId).map fun result => result.event.id).Nodup := by
  unfold Tables.eventStmt
  rw [List.map_map]
  exact List.Nodup.sublist (List.filter_sublist.map EventRecord.id) tables.event_ids

theorem taskStmt_guids (tables : Tables) (tenantId : Text) (processInstanceId : Nat) :
    ((tables.taskStmt tenantId processInstanceId).map fun result => result.task.guid).Nodup := by
  unfold Tables.taskStmt
  rw [List.map_map]
  exact List.Nodup.sublist (List.filter_sublist.map TaskRecord.guid) tables.task_guids

/-- The synthesized rows are of tasks in their order. -/
theorem guids_synthesized {events : List EventResult} (tasks : List TaskResult) :
    ((tasks.filterMap (synthesizedRow categoryFor errors events)).map LogRow.taskGuid).Sublist
      (tasks.map fun result => some result.task.guid) := by
  induction tasks with
  | nil => exact List.Sublist.refl _
  | cons result tasks ih =>
      cases hrow : synthesizedRow categoryFor errors events result with
      | none =>
          rw [List.filterMap_cons_none hrow, List.map_cons]
          exact ih.cons _
      | some row =>
          rw [List.filterMap_cons_some hrow, List.map_cons, List.map_cons,
            (synthesizedRow_fields hrow).2]
          exact ih.cons_cons _

/-- No row is there twice. -/
theorem logRows_nodup {events : List EventResult} {tasks : List TaskResult}
    (hevents : (events.map fun result => result.event.id).Nodup)
    (htasks : (tasks.map fun result => result.task.guid).Nodup) :
    (logRows categoryFor errors events tasks).Nodup := by
  unfold logRows
  rw [List.nodup_append]
  refine ⟨?_, ?_, ?_⟩
  · apply List.Nodup.of_map LogRow.id
    rw [List.map_map]
    have hids : (LogRow.id ∘ eventRow categoryFor errors) =
        some ∘ fun result : EventResult => result.event.id := rfl
    rw [hids, ← List.map_map]
    exact hevents.map (Option.some_injective Nat)
  · apply List.Nodup.of_map LogRow.taskGuid
    have hguids : (tasks.map fun result => some result.task.guid).Nodup := by
      have hcomp := htasks.map (Option.some_injective Text)
      rw [List.map_map] at hcomp
      exact hcomp
    exact hguids.sublist (guids_synthesized tasks)
  · intro row hrow other hother hsame
    obtain ⟨result, -, hresult⟩ := List.mem_map.mp hrow
    obtain ⟨task, -, htask⟩ := List.mem_filterMap.mp hother
    have hid := (synthesizedRow_fields htask).1
    rw [← hsame, ← hresult] at hid
    cases hid

/-! ## The log of one answer -/

/-- The rows in the tables' own order. -/
def tableRows (categoryFor : Text → Option Text) (errors : List (Option Text × Text))
    (tables : Tables) (tenantId : Text) (processInstanceId : Nat) : List LogRow :=
  logRows categoryFor errors (tables.eventStmt tenantId processInstanceId)
    (tables.taskStmt tenantId processInstanceId)

/-- The rows of an answer. -/
def Answer.rows (categoryFor : Text → Option Text) (errors : List (Option Text × Text))
    (answer : Answer tables tenantId processInstanceId) : List LogRow :=
  logRows categoryFor errors answer.events answer.tasks

theorem Answer.rows_perm (answer : Answer tables tenantId processInstanceId) :
    (answer.rows categoryFor errors).Perm
      (tableRows categoryFor errors tables tenantId processInstanceId) :=
  logRows_perm answer.events_perm answer.tasks_perm

theorem tableRows_nodup :
    (tableRows categoryFor errors tables tenantId processInstanceId).Nodup :=
  logRows_nodup (eventStmt_ids tables tenantId processInstanceId)
    (taskStmt_guids tables tenantId processInstanceId)

theorem sortedLog_perm (filter : LogFilter) {rows other : List LogRow} (h : rows.Perm other) :
    (sortedLog filter rows).Perm (other.filter filter.passes) :=
  ((Paging.sortBy_perm rows).trans h).filter _

theorem sorted_sortedLog (filter : LogFilter) (rows : List LogRow) :
    Paging.Sorted rowKey (sortedLog filter rows) :=
  List.Pairwise.sublist List.filter_sublist (Paging.sorted_sortBy rows)

/-- The key of a row says whether it has an id, and which. -/
theorem id_of_rowKey {row other : LogRow} (h : rowKey row = rowKey other) :
    row.id = other.id := by
  unfold rowKey at h
  have hlater := (Prod.mk.inj (toLex.injective h)).2
  have hids := Prod.mk.inj (toLex.injective (Prod.mk.inj (toLex.injective hlater)).2)
  obtain ⟨hnone, hid⟩ := hids
  cases hrow : row.id with
  | none =>
      rw [hrow] at hnone
      cases hother : other.id with
      | none => rfl
      | some i =>
          rw [hother] at hnone
          cases hnone
  | some i =>
      rw [hrow] at hnone hid
      cases hother : other.id with
      | none =>
          rw [hother] at hnone
          cases hnone
      | some j =>
          rw [hother] at hid
          exact congrArg some hid

/-- Two rows of the log that tie are synthesized. -/
theorem tie_synthesized {row other : LogRow}
    (hrow : row ∈ tableRows categoryFor errors tables tenantId processInstanceId)
    (hother : other ∈ tableRows categoryFor errors tables tenantId processInstanceId)
    (hne : row ≠ other) (htie : rowKey row = rowKey other) :
    ∃ task ∈ tables.taskStmt tenantId processInstanceId,
      synthesizedRow categoryFor errors (tables.eventStmt tenantId processInstanceId) task =
        some row := by
  rcases List.mem_append.mp hrow with hevent | htask
  · exfalso
    obtain ⟨result, hresult, hsame⟩ := List.mem_map.mp hevent
    have hid : other.id = some result.event.id := by
      rw [← id_of_rowKey htie, ← hsame]
      rfl
    rcases List.mem_append.mp hother with hevent' | htask'
    · obtain ⟨result', hresult', hsame'⟩ := List.mem_map.mp hevent'
      rw [← hsame', id_eventRow] at hid
      have heq : result' = result :=
        List.inj_on_of_nodup_map (eventStmt_ids tables tenantId processInstanceId) hresult' hresult
          (Option.some.inj hid)
      exact hne (by rw [← hsame, ← hsame', heq])
    · obtain ⟨task, -, htask⟩ := List.mem_filterMap.mp htask'
      rw [(synthesizedRow_fields htask).1] at hid
      cases hid
  · obtain ⟨task, hmem, hsynth⟩ := List.mem_filterMap.mp htask
    exact ⟨task, hmem, hsynth⟩

end Log

section Pages

variable {categoryFor : Text → Option Text} {errors : List (Option Text × Text)}
  {tables : Tables} {tenantId : Text} {processInstanceId : Nat}

/-! ## Another order of the database -/

/-- The order that the tables themselves have. -/
def Answer.stored (tables : Tables) (tenantId : Text) (processInstanceId : Nat) :
    Answer tables tenantId processInstanceId where
  events := tables.eventStmt tenantId processInstanceId
  tasks := tables.taskStmt tenantId processInstanceId
  events_perm := List.Perm.refl _
  tasks_perm := List.Perm.refl _

/-- Exchanging two members of a list without repetitions permutes it. -/
theorem map_swap_perm {α : Type} [DecidableEq α] {list : List α} (hnodup : list.Nodup) {a b : α}
    (ha : a ∈ list) (hb : b ∈ list) : (list.map (Equiv.swap a b)).Perm list := by
  rw [List.perm_ext_iff_of_nodup (hnodup.map (Equiv.swap a b).injective) hnodup]
  intro x
  have hmoves : ∀ y ∈ list, Equiv.swap a b y ∈ list := by
    intro y hy
    rw [Equiv.swap_apply_def]
    split
    · exact hb
    · split
      · exact ha
      · exact hy
  constructor
  · intro hx
    obtain ⟨y, hy, hsame⟩ := List.mem_map.mp hx
    exact hsame ▸ hmoves y hy
  · intro hx
    exact List.mem_map.mpr ⟨Equiv.swap a b x, hmoves x hx, Equiv.swap_apply_self a b x⟩

/-- The answer that exchanges two tasks. -/
def Answer.exchange (a b : TaskResult) (ha : a ∈ tables.taskStmt tenantId processInstanceId)
    (hb : b ∈ tables.taskStmt tenantId processInstanceId) :
    Answer tables tenantId processInstanceId where
  events := tables.eventStmt tenantId processInstanceId
  tasks := (tables.taskStmt tenantId processInstanceId).map (Equiv.swap a b)
  events_perm := List.Perm.refl _
  tasks_perm := map_swap_perm
    (List.Nodup.of_map _ (taskStmt_guids tables tenantId processInstanceId)) ha hb

/-- Tasks with one row are one task. -/
theorem task_of_row {row : LogRow} {events : List EventResult} {task other : TaskResult}
    (htask : task ∈ tables.taskStmt tenantId processInstanceId)
    (hother : other ∈ tables.taskStmt tenantId processInstanceId)
    (hrow : synthesizedRow categoryFor errors events task = some row)
    (hrow' : synthesizedRow categoryFor errors events other = some row) : task = other := by
  apply List.inj_on_of_nodup_map (taskStmt_guids tables tenantId processInstanceId) htask hother
  have hguid := (synthesizedRow_fields hrow).2
  rw [(synthesizedRow_fields hrow').2] at hguid
  exact (Option.some.inj hguid).symm

/-- With two tasks exchanged their rows are exchanged. -/
theorem rows_exchange {a b : LogRow} {task other : TaskResult}
    (htask : task ∈ tables.taskStmt tenantId processInstanceId)
    (hother : other ∈ tables.taskStmt tenantId processInstanceId)
    (ha : synthesizedRow categoryFor errors (tables.eventStmt tenantId processInstanceId) task =
      some a)
    (hb : synthesizedRow categoryFor errors (tables.eventStmt tenantId processInstanceId) other =
      some b) :
    (Answer.exchange task other htask hother).rows categoryFor errors =
      (tableRows categoryFor errors tables tenantId processInstanceId).map (Equiv.swap a b) := by
  unfold Answer.rows Answer.exchange tableRows logRows
  dsimp only
  rw [List.map_append, List.filterMap_map, List.map_filterMap]
  congr 1
  · rw [List.map_map]
    apply List.map_congr_left
    intro result _
    have hid := @id_eventRow categoryFor errors result
    rw [Function.comp_apply, Equiv.swap_apply_of_ne_of_ne]
    · intro hsame
      rw [hsame, (synthesizedRow_fields ha).1] at hid
      cases hid
    · intro hsame
      rw [hsame, (synthesizedRow_fields hb).1] at hid
      cases hid
  · apply List.filterMap_congr
    intro result hresult
    rw [Function.comp_apply]
    by_cases hfirst : result = task
    · rw [hfirst, Equiv.swap_apply_left, ha, hb, Option.map_some, Equiv.swap_apply_left]
    · by_cases hsecond : result = other
      · rw [hsecond, Equiv.swap_apply_right, ha, hb, Option.map_some, Equiv.swap_apply_right]
      · rw [Equiv.swap_apply_of_ne_of_ne hfirst hsecond]
        cases hrow : synthesizedRow categoryFor errors
            (tables.eventStmt tenantId processInstanceId) result with
        | none => rfl
        | some row =>
            have hnea : row ≠ a := fun hsame =>
              hfirst (task_of_row hresult htask hrow (hsame ▸ ha))
            have hneb : row ≠ b := fun hsame =>
              hsecond (task_of_row hresult hother hrow (hsame ▸ hb))
            rw [Option.map_some, Equiv.swap_apply_of_ne_of_ne hnea hneb]

/-- Sorting and filtering keep two rows exchanged that tie and pass the filter. -/
theorem sortedLog_map_swap (filter : LogFilter) (rows : List LogRow) {a b : LogRow}
    (htie : rowKey a = rowKey b) (ha : filter.passes a = true) (hb : filter.passes b = true) :
    sortedLog filter (rows.map (Equiv.swap a b)) = (sortedLog filter rows).map (Equiv.swap a b) := by
  have hkey : ∀ row, rowKey (Equiv.swap a b row) = rowKey row := by
    intro row
    rw [Equiv.swap_apply_def]
    split
    · rename_i hsame
      rw [hsame, htie]
    · split
      · rename_i hsame
        rw [hsame, htie]
      · rfl
  have hpasses : filter.passes ∘ Equiv.swap a b = filter.passes := by
    funext row
    rw [Function.comp_apply, Equiv.swap_apply_def]
    split
    · rename_i hsame
      rw [hsame, ha, hb]
    · split
      · rename_i hsame
        rw [hsame, ha, hb]
      · rfl
  unfold sortedLog Paging.sortBy
  rw [← List.map_insertionSort (fun row other : LogRow => rowKey row ≤ rowKey other),
    List.filter_map, hpasses]
  intro row _ other _
  rw [hkey, hkey]

end Pages

/-! ## The pages -/

/-- The answer to the request for one page, the first being 0. -/
def pageAt (categoryFor : Text → Option Text) (tables : Tables) (tenantId : Text)
    (processInstanceId : Nat) (filter : LogFilter) (perPage : Nat)
    (answers : Nat → Answer tables tenantId processInstanceId) (i : Nat) : LogPage :=
  listInstanceEventsForDesigner categoryFor (tables.instanceErrors tenantId processInstanceId)
    (answers i).events (answers i).tasks filter (i + 1) perPage

/-- The rows that the log is to have: every recorded event, and every finished task without
one, that pass the filter. -/
def expected (categoryFor : Text → Option Text) (tables : Tables) (tenantId : Text)
    (processInstanceId : Nat) (filter : LogFilter) : List LogRow :=
  (tableRows categoryFor (tables.instanceErrors tenantId processInstanceId) tables tenantId
    processInstanceId).filter filter.passes

/-- The pages from the first one on, at least as many as the first one reports, make up the
log: in order, with each row once and no other, and of the length that each of them reports.
This is so in whatever order the database returns its rows for each of them. -/
def Paged (categoryFor : Text → Option Text) (tables : Tables) (tenantId : Text)
    (processInstanceId : Nat) (filter : LogFilter) (perPage : Nat) : Prop :=
  ∀ (answers : Nat → Answer tables tenantId processInstanceId) (count : Nat),
    (pageAt categoryFor tables tenantId processInstanceId filter perPage answers 0).pages ≤ count →
    ∃ log, log = ((List.range count).flatMap fun i =>
        (pageAt categoryFor tables tenantId processInstanceId filter perPage answers i).results) ∧
      Paging.Sorted rowKey log ∧
      log.Perm (expected categoryFor tables tenantId processInstanceId filter) ∧
      ∀ i, (pageAt categoryFor tables tenantId processInstanceId filter perPage answers i).total =
        log.length

section Pages

variable {categoryFor : Text → Option Text} {tables : Tables} {tenantId : Text}
  {processInstanceId : Nat} {filter : LogFilter} {perPage : Nat}
  {answers : Nat → Answer tables tenantId processInstanceId}

/-- The log of one answer. -/
def logAt (categoryFor : Text → Option Text) (filter : LogFilter)
    (answers : Nat → Answer tables tenantId processInstanceId) (i : Nat) : List LogRow :=
  sortedLog filter
    ((answers i).rows categoryFor (tables.instanceErrors tenantId processInstanceId))

theorem logAt_perm (i : Nat) :
    (logAt categoryFor filter answers i).Perm
      (expected categoryFor tables tenantId processInstanceId filter) :=
  sortedLog_perm filter (answers i).rows_perm

theorem results_pageAt (count : Nat) :
    ((List.range count).flatMap fun i =>
        (pageAt categoryFor tables tenantId processInstanceId filter perPage answers i).results) =
      Paging.pages (logAt categoryFor filter answers) perPage count := rfl

theorem total_pageAt (i : Nat) :
    (pageAt categoryFor tables tenantId processInstanceId filter perPage answers i).total =
      (expected categoryFor tables tenantId processInstanceId filter).length :=
  (logAt_perm i).length_eq

/-- As many pages as are reported are enough for all rows. -/
theorem total_le_of_pages {count : Nat} (hper : 0 < perPage)
    (h : (pageAt categoryFor tables tenantId processInstanceId filter perPage answers 0).pages ≤
      count) :
    (expected categoryFor tables tenantId processInstanceId filter).length ≤ count * perPage := by
  have hlength := (@logAt_perm categoryFor tables tenantId processInstanceId filter answers
    0).length_eq
  have hpages : (pageAt categoryFor tables tenantId processInstanceId filter perPage answers 0).pages =
      if (logAt categoryFor filter answers 0).length = 0 then 0
      else ((logAt categoryFor filter answers 0).length + perPage - 1) / perPage := rfl
  rw [hpages, hlength] at h
  split at h
  · omega
  · have hlt := (Nat.div_lt_iff_lt_mul hper).mp (Nat.lt_succ_of_le h)
    rw [Nat.succ_mul] at hlt
    omega

theorem paged_of_not_straddled (hper : 0 < perPage)
    (h : ∀ page, ¬ Paging.Straddled rowKey
      (expected categoryFor tables tenantId processInstanceId filter) (page * perPage)) :
    Paged categoryFor tables tenantId processInstanceId filter perPage := by
  intro answers count hcount
  have hperm := fun i => @logAt_perm categoryFor tables tenantId processInstanceId filter answers i
  have hsorted : ∀ i, Paging.Sorted rowKey (logAt categoryFor filter answers i) :=
    fun i => sorted_sortedLog filter _
  have hall := total_le_of_pages hper hcount
  have hpages := Paging.pages_perm hperm hsorted h count
  have hwhole : (logAt categoryFor filter answers 0).take (count * perPage) =
      logAt categoryFor filter answers 0 :=
    List.take_of_length_le (by rw [(hperm 0).length_eq]; exact hall)
  rw [hwhole] at hpages
  refine ⟨_, rfl, ?_, ?_, ?_⟩
  · rw [results_pageAt]
    have hkeys : ∀ i, (logAt categoryFor filter answers i).map rowKey =
        (logAt categoryFor filter answers 0).map rowKey := fun i =>
      Paging.keys_eq_of_perm ((hperm i).trans (hperm 0).symm) (hsorted i) (hsorted 0)
    have hsame := Paging.keys_pages hkeys perPage count
    rw [← List.map_take, hwhole] at hsame
    unfold Paging.Sorted
    rw [← List.pairwise_map (f := rowKey) (R := fun a b => a ≤ b), hsame, List.pairwise_map]
    exact hsorted 0
  · rw [results_pageAt]
    exact hpages.trans (hperm 0)
  · intro i
    rw [results_pageAt, total_pageAt, (hpages.trans (hperm 0)).length_eq]

/-- Two rows that tie around the end of a page: an order that exchanges them for the next
page shows one of them twice. -/
theorem not_paged_of_straddled (hper : 0 < perPage) {page : Nat}
    (h : Paging.Straddled rowKey
      (expected categoryFor tables tenantId processInstanceId filter) (page * perPage)) :
    ¬ Paged categoryFor tables tenantId processInstanceId filter perPage := by
  have hnodup : (expected categoryFor tables tenantId processInstanceId filter).Nodup :=
    List.Nodup.filter _ tableRows_nodup
  have hpos : 0 < page * perPage := by
    obtain ⟨row, -, hbelow, -⟩ := h
    omega
  have hshort : page * perPage <
      (expected categoryFor tables tenantId processInstanceId filter).length := by
    obtain ⟨row, -, -, hupto⟩ := h
    exact Nat.lt_of_lt_of_le hupto List.countP_le_length
  cases page with
  | zero => omega
  | succ k =>
      have hperm := sortedLog_perm filter
        (List.Perm.refl (tableRows categoryFor (tables.instanceErrors tenantId processInstanceId)
          tables tenantId processInstanceId))
      have hsorted := sorted_sortedLog filter
        (tableRows categoryFor (tables.instanceErrors tenantId processInstanceId) tables tenantId
          processInstanceId)
      generalize hlog : sortedLog filter (tableRows categoryFor
        (tables.instanceErrors tenantId processInstanceId) tables tenantId processInstanceId) = log
        at hperm hsorted
      have hn : (k + 1) * perPage < log.length := by
        rw [hperm.length_eq]
        exact hshort
      have hlast : (k + 1) * perPage - 1 < log.length := by omega
      have htie := (Paging.straddled_iff hperm hsorted hpos hn).mp h
      -- the two rows are different, and both synthesized
      have hne : log[(k + 1) * perPage - 1] ≠ log[(k + 1) * perPage] := by
        intro hsame
        have hindex := (List.Nodup.getElem_inj_iff (hperm.nodup_iff.mpr hnodup)).mp hsame
        omega
      have hmem : ∀ row ∈ log, row ∈ tableRows categoryFor
          (tables.instanceErrors tenantId processInstanceId) tables tenantId processInstanceId ∧
          filter.passes row = true := fun row hrow => List.mem_filter.mp (hperm.mem_iff.mp hrow)
      obtain ⟨hin, hpass⟩ := hmem _ (List.getElem_mem hlast)
      obtain ⟨hin', hpass'⟩ := hmem _ (List.getElem_mem hn)
      obtain ⟨task, htask, hrow⟩ := tie_synthesized hin hin' hne htie
      obtain ⟨other, hother, hrow'⟩ := tie_synthesized hin' hin hne.symm htie.symm
      intro hpaged
      let answers : Nat → Answer tables tenantId processInstanceId := fun i =>
        if i = k + 1 then .exchange task other htask hother
        else .stored tables tenantId processInstanceId
      have hstored : logAt categoryFor filter answers k = log := by
        have hanswer : answers k = .stored tables tenantId processInstanceId :=
          if_neg (by omega)
        unfold logAt
        rw [hanswer]
        exact hlog
      have hexchanged : logAt categoryFor filter answers (k + 1) =
          log.map (Equiv.swap log[(k + 1) * perPage - 1] log[(k + 1) * perPage]) := by
        have hanswer : answers (k + 1) = .exchange task other htask hother := if_pos rfl
        unfold logAt
        rw [hanswer, rows_exchange htask hother hrow hrow',
          sortedLog_map_swap filter _ htie hpass hpass', hlog]
      obtain ⟨shown, hshown, -, hrows, -⟩ := hpaged answers
        ((pageAt categoryFor tables tenantId processInstanceId filter perPage answers 0).pages +
          (k + 2)) (Nat.le_add_right _ _)
      rw [results_pageAt] at hshown
      have htwice : ¬ (Paging.pages (logAt categoryFor filter answers) perPage
          ((pageAt categoryFor tables tenantId processInstanceId filter perPage answers 0).pages +
            (k + 2))).Nodup := by
        apply Paging.not_nodup_of_tie hper (by omega : k + 1 < _)
        · rw [hstored]
          exact List.getElem?_eq_getElem hlast
        · rw [hexchanged, List.getElem?_map, List.getElem?_eq_getElem hn, Option.map_some,
            Equiv.swap_apply_right]
      exact htwice (hshown ▸ hrows.nodup_iff.mpr hnodup)

end Pages

/-- For every instance, filter and page size, the pages make up the log in whatever order
the database returns its rows, exactly when no page ends between two rows with the same key:
synthesized rows of one time. -/
theorem paged_iff (categoryFor : Text → Option Text) (tables : Tables) (tenantId : Text)
    (processInstanceId : Nat) (filter : LogFilter) (perPage : Nat) (hper : 0 < perPage) :
    Paged categoryFor tables tenantId processInstanceId filter perPage ↔
      ∀ page, ¬ Paging.Straddled rowKey
        (expected categoryFor tables tenantId processInstanceId filter) (page * perPage) := by
  constructor
  · intro hpaged page hstraddled
    exact not_paged_of_straddled hper hstraddled hpaged
  · exact paged_of_not_straddled hper

/-- An instance with two script tasks that were finished at the same time. -/
def parallelTables : Tables where
  events := []
  tasks := [
    { guid := "a".toList, m8fTenantId := "t1".toList, processInstanceId := 7
      taskDefinitionId := 1, bpmnProcessId := none, state := "COMPLETED".toList
      lastStateChange := some 5 },
    { guid := "b".toList, m8fTenantId := "t1".toList, processInstanceId := 7
      taskDefinitionId := 1, bpmnProcessId := none, state := "COMPLETED".toList
      lastStateChange := some 5 }]
  taskDefinitions := [
    { id := 1, bpmnName := none, bpmnIdentifier := "Script".toList
      typename := "ScriptTask".toList }]
  processes := []
  processDefinitions := []
  users := []
  errors := []
  event_ids := by decide
  task_guids := by decide

/-- No filter. -/
def noFilter : LogFilter := { eventType := none, taskType := none }

theorem paged_parallel :
    Paged (fun _ => none) parallelTables "t1".toList 7 noFilter 2 ↔
      ∀ page, ¬ Paging.Straddled rowKey
        (expected (fun _ => none) parallelTables "t1".toList 7 noFilter) (page * 2) :=
  paged_iff (fun _ => none) parallelTables "t1".toList 7 noFilter 2 (by decide)

/-- With one row to a page, the two tasks tie around the end of the first page. -/
theorem parallel_not_paged : ¬ Paged (fun _ => none) parallelTables "t1".toList 7 noFilter 1 := by
  apply @not_paged_of_straddled _ _ _ _ _ 1 (by decide) 1
  refine ⟨(expected (fun _ => none) parallelTables "t1".toList 7 noFilter)[0], ?_, ?_, ?_⟩
  · exact List.getElem_mem _
  · decide
  · decide

end M8flow.Workflow.EventLog
