import M8flow.ExternalForm.Guard
import M8flow.Lib.Proc

/-!
# Completing a human task

`workflow.complete` runs core's completion inside the caller's transaction.  It
can commit at two places, and raises after one of them:

- when the automatic step after the task fails, the completed task is committed
  on purpose before the failure is reported;
- on success, creating the links of the next external-form tasks commits.

Core is a package of its own, so its commands are parameters that act on its
tables, and `Core.Laws` states what the host relies on.
-/

namespace M8flow.Workflow

open M8flow.Lib M8flow.ExternalForm

/-! ## Failures -/

/-- The classes of `BpmnCoreError` that the host tells apart. -/
inductive CoreErrorKind where
  | authorization
  | notFound
  | invalidState
  | validation
  | serviceTask
  | other
  deriving Repr, DecidableEq

/-- An exception that reaches host code. -/
inductive Failure where
  | api (e : ApiError)
  | core (kind : CoreErrorKind) (message : String)
  /-- Spiff's `WorkflowTaskException` with a complete task context. -/
  | workflowTask (taskGuid : Option String) (taskName message : String)
  | other (message : String)
  deriving Repr, DecidableEq

/-- `str(exc)`. -/
def Failure.text : Failure → String
  | .api e => e.message
  | .core _ message => message
  | .workflowTask _ _ message => message
  | .other message => message

/-- `map_bpmn_error`. -/
def mapBpmnError (kind : CoreErrorKind) (message : String) : ApiError :=
  match kind with
  | .authorization => .of "permission_denied" message 403
  | .notFound => .of "not_found" message 404
  | .invalidState => .of "invalid_state" message 409
  | .validation => .of "validation_error" message 400
  | .serviceTask => .of "service_task_error" message 500
  | .other => .of "bpmn_core_error" message 500

/-! ## The session -/

/-- A row of the host's process-instance error table. -/
structure InstanceError where
  m8fTenantId : String
  processInstanceId : Nat
  taskGuid : Option String
  message : String

/-- Core's tables and the host tables that completion writes. -/
structure Db (κ : Type) where
  core : κ
  rows : List Request
  errors : List InstanceError

/-- A database session: what is committed, what its transaction shows, the one
request object whose changes are not flushed yet, and the request's completion
flag on `g`. -/
structure Session (κ : Type) where
  committed : Db κ
  working : Db κ
  dirty : Option Request
  completionFlag : Bool

/-- The places that commit. -/
inductive CommitPoint where
  | expire
  | cancel
  | failure
  | alreadyDone
  | stepFailure
  | emission (taskId : Nat)
  | final
  deriving Repr, DecidableEq

/-- What the outside decides: the clock, fresh reference ids, how secrets are
redacted, how a form value is written as text, and which commits fail. -/
structure Env where
  now : Int
  ttl : Int
  newReferenceId : Nat → String
  redactBounded : String → String
  stringify : Json → Text
  commitFails : CommitPoint → Option String

/-- Core's tables and commands. -/
structure Core (κ : Type) where
  workItems : κ → List WorkItem
  readyTasks : κ → String → Nat → List WorkItem
  suspended : κ → Nat → Bool
  userIds : κ → List Nat
  taskData : κ → String → String → FormData
  hasCompletedEvent : κ → String → Nat → String → Bool
  /-- Whether a command flushes the session it runs in. -/
  flushes : Bool
  claimTask : κ → String → Nat → Nat → Except Failure Unit × κ
  completeTask : κ → String → Nat → Nat → Option (List (Text × Text)) →
    Except Failure Nat × κ
  recordEvent : κ → String → Nat → String → String → Nat → Except Failure Unit × κ
  errorInstance : κ → String → Nat → Nat → Except Failure Unit × κ

variable {κ : Type}

/-- The work item is marked completed. -/
def Core.Done (core : Core κ) (tables : κ) (workItemId : Nat) : Prop :=
  ∃ item, Table.lookup WorkItem.id (core.workItems tables) workItemId = some item ∧
    item.completed = true

/-- What the host relies on: a completion that returns has completed its work
item, and recording events or an instance's error reopens none. -/
structure Core.Laws (core : Core κ) : Prop where
  completes : ∀ tables tables' tenantId workItemId userId payload instanceId,
    core.completeTask tables tenantId workItemId userId payload = (.ok instanceId, tables') →
      core.Done tables' workItemId
  recordEvent_keeps : ∀ tables tenantId instanceId eventType guid userId workItemId,
    core.Done tables workItemId →
      core.Done (core.recordEvent tables tenantId instanceId eventType guid userId).2 workItemId
  errorInstance_keeps : ∀ tables tenantId instanceId userId workItemId,
    core.Done tables workItemId →
      core.Done (core.errorInstance tables tenantId instanceId userId).2 workItemId

/-- A session at the start of a request. -/
def Session.start (db : Db κ) : Session κ :=
  { committed := db, working := db, dirty := none, completionFlag := false }

/-- Send the changed request object to the database. -/
def Session.flush (s : Session κ) : Session κ :=
  match s.dirty with
  | none => s
  | some row =>
      { s with
        working := { s.working with
          rows := Table.updateAt Request.id row.id row.over s.working.rows }
        dirty := none }

/-- `session.commit()`. -/
def Session.commit (s : Session κ) : Session κ :=
  { s.flush with committed := s.flush.working }

/-- `session.rollback()`. -/
def Session.rollback (s : Session κ) : Session κ :=
  { s with working := s.committed, dirty := none }

/-- A procedure over a session. -/
abbrev Tx (κ α : Type) := Proc (Session κ) Failure α

/-- A commit, which the database may refuse. -/
def commitAt (env : Env) (point : CommitPoint) : Tx κ Unit :=
  match env.commitFails point with
  | none => Proc.modify Session.commit
  | some message => Proc.raise (.other message)

/-- The session in which a core command runs. -/
def Core.enter (core : Core κ) (s : Session κ) : Session κ :=
  if core.flushes then s.flush else s

/-- Run a core command in the session's transaction. -/
def runCore {α : Type} (core : Core κ) (command : κ → Except Failure α × κ) : Tx κ α :=
  fun s =>
    let s := core.enter s
    ((command s.working.core).1,
      { s with working := { s.working with core := (command s.working.core).2 } })

/-- `session.get(WorkItemModel, id)`. -/
def Core.workItem (core : Core κ) (tables : κ) (workItemId : Nat) : Option WorkItem :=
  Table.lookup WorkItem.id (core.workItems tables) workItemId

/-! ## Guards and payload -/

/-- `_reject_task_write_if_instance_suspended`. -/
def rejectTaskWriteIfInstanceSuspended (core : Core κ) (tenantId : String)
    (workItemId : Nat) (action : String) : Tx κ Unit := do
  let s ← Proc.read
  match core.workItem s.working.core workItemId with
  | none => pure ()
  | some task =>
      if task.m8fTenantId = tenantId ∧ core.suspended s.working.core task.processInstanceId then
        Proc.raise (.core .invalidState
          ("Cannot " ++ action ++ " a task on a suspended process instance"))
      else pure ()

/-- `_user_task_form_variable`. -/
def userTaskFormVariable (task : WorkItem) : Option Text := do
  let properties ← task.jsonMetadata.get? "task_definition_properties".toList
  let value ← properties.get? "variable".toList
  let text ← value.asText
  if text.strip = [] then none else some text.strip

/-- `{**base, **update}` for dictionaries. -/
def mergeFields (base update : FormData) : FormData :=
  (base.map fun entry => (entry.1, (Json.field update entry.1).getD entry.2)) ++
    update.filter fun entry => (Json.field base entry.1).isNone

/-- `_nest_payload_under_task_variable`. -/
def nestPayloadUnderTaskVariable (core : Core κ) (tables : κ) (tenantId : String)
    (workItemId : Nat) (payload : FormData) : FormData :=
  match core.workItem tables workItemId with
  | none => payload
  | some task =>
      if task.m8fTenantId ≠ tenantId then payload
      else
        match userTaskFormVariable task with
        | none => payload
        | some variableName =>
            let nested := payload.filter fun entry => entry.1 ≠ "outcome".toList
            let base :=
              match Json.field (core.taskData tables tenantId task.taskGuid) variableName with
              | some (.obj fields) => fields
              | _ => []
            let outcome := payload.filter fun entry => entry.1 = "outcome".toList
            mergeFields [(variableName, .obj (mergeFields base nested))] outcome

/-- The payload that `complete` hands to core: engine keys dropped, nested under
the task's variable, each value written as text. -/
def corePayload (env : Env) (core : Core κ) (tables : κ) (tenantId : String)
    (workItemId : Nat) (payload : FormData) : List (Text × Text) :=
  let kept := payload.filter fun entry => entry.1 ≠ "data_objects".toList
  (nestPayloadUnderTaskVariable core tables tenantId workItemId kept).map fun entry =>
    (entry.1, env.stringify entry.2)

/-! ## Failures of the step after the task -/

/-- `_task_completion_is_established`: the transaction contains the completed
task.  It flushes first. -/
def taskCompletionIsEstablished (core : Core κ) (workItem : Option WorkItem)
    (tenantId : String) (processInstanceId : Option Nat) : Tx κ Bool :=
  match workItem with
  | none => pure false
  | some item =>
      if item.m8fTenantId ≠ tenantId ∨ processInstanceId ≠ some item.processInstanceId then
        pure false
      else do
        Proc.modify Session.flush
        let s ← Proc.read
        match core.workItem s.working.core item.id with
        | none => pure false
        | some stored =>
            pure (stored.m8fTenantId = tenantId ∧
              stored.processInstanceId = item.processInstanceId ∧ stored.completed)

/-- `_record_task_completed_event_if_missing`. -/
def recordTaskCompletedEventIfMissing (core : Core κ) (tenantId : String)
    (processInstanceId : Nat) (taskGuid : String) (userId : Nat) : Tx κ Unit := do
  let s ← Proc.read
  if core.hasCompletedEvent s.working.core tenantId processInstanceId taskGuid then pure ()
  else
    runCore core fun tables =>
      core.recordEvent tables tenantId processInstanceId "task_completed" taskGuid userId

/-- The first `n` characters of a message. -/
def clip (n : Nat) (message : String) : String := String.ofList (message.toList.take n)

/-- `_ERROR_MESSAGE_MAX_LENGTH`. -/
def errorMessageMaxLength : Nat := 4000

/-- `_automatic_step_failure_api_error`. -/
def automaticStepFailureApiError (env : Env) (processInstanceId : Option Nat)
    (failureDetail : String) : ApiError :=
  let detail := env.redactBounded failureDetail
  let message := "The task was submitted, but the next automatic step failed: " ++ detail ++
    match processInstanceId with
    | some id => " Process instance " ++ toString id ++ " is now in Error."
    | none => ""
  { errorCode := "automatic_step_failed"
    message := clip errorMessageMaxLength message
    statusCode := 500
    taskSubmitted := some true
    automaticStepErrorMessage := some (clip errorMessageMaxLength detail)
    processInstanceId := processInstanceId }

/-- `_record_process_instance_error`. -/
def recordProcessInstanceError (tenantId : String) (processInstanceId : Nat)
    (taskGuid : Option String) (message : String) : Tx κ Unit :=
  let error : InstanceError :=
    { m8fTenantId := tenantId
      processInstanceId := processInstanceId
      taskGuid := taskGuid
      message := clip errorMessageMaxLength message }
  Proc.modify fun s =>
    { s with working := { s.working with errors := s.working.errors ++ [error] } }

/-- The completed event of a work item, which has a task guid unless it is blank. -/
def recordCompletedOf (core : Core κ) (tenantId : String) (item : WorkItem)
    (userId : Nat) : Tx κ Unit :=
  if item.taskGuid = "" then pure ()
  else recordTaskCompletedEventIfMissing core tenantId item.processInstanceId item.taskGuid userId

/-- The failed event of the step after the task, when Spiff names its task. -/
def recordFailedStep (core : Core κ) (tenantId : String) (processInstanceId : Nat)
    (taskGuid : Option String) (userId : Nat) : Tx κ Unit :=
  match taskGuid with
  | none => pure ()
  | some guid =>
      runCore core fun tables =>
        core.recordEvent tables tenantId processInstanceId "task_failed" guid userId

/-- A failed service task: keep the completed task, then report the failure. -/
def keepCompletionOfServiceTask (env : Env) (core : Core κ) (tenantId : String)
    (userId : Nat) (item : WorkItem) (message : String) : Tx κ Nat := do
  recordCompletedOf core tenantId item userId
  commitAt env .stepFailure
  Proc.raise (.api (automaticStepFailureApiError env (some item.processInstanceId) message))

/-- A failed script task: also move the instance to its error state. -/
def keepCompletionOfScriptTask (env : Env) (core : Core κ) (tenantId : String)
    (userId : Nat) (item : WorkItem) (taskGuid : Option String) (detail : String) :
    Tx κ Nat := do
  recordCompletedOf core tenantId item userId
  runCore core fun tables =>
    core.errorInstance tables tenantId item.processInstanceId userId
  recordFailedStep core tenantId item.processInstanceId taskGuid userId
  recordProcessInstanceError tenantId item.processInstanceId taskGuid detail
  commitAt env .stepFailure
  Proc.raise (.api (automaticStepFailureApiError env (some item.processInstanceId) detail))

/-- Run `keep` when the transaction contains the completed task, else raise. -/
def whenEstablished (core : Core κ) (workItem : Option WorkItem) (tenantId : String)
    (processInstanceId : Option Nat) (failure : Failure) (keep : WorkItem → Tx κ Nat) :
    Tx κ Nat := do
  let established ← taskCompletionIsEstablished core workItem tenantId processInstanceId
  match workItem with
  | none => Proc.raise failure
  | some item => if established then keep item else Proc.raise failure

/-- The `except` clauses of `complete`. -/
def completeHandler (env : Env) (core : Core κ) (tenantId : String) (userId : Nat)
    (workItem : Option WorkItem) (processInstanceId : Option Nat) (failure : Failure) :
    Tx κ Nat :=
  match failure with
  | .core .serviceTask message =>
      whenEstablished core workItem tenantId processInstanceId failure fun item =>
        keepCompletionOfServiceTask env core tenantId userId item message
  | .core kind message => Proc.raise (.api (mapBpmnError kind message))
  | .workflowTask taskGuid taskName message =>
      whenEstablished core workItem tenantId processInstanceId failure fun item =>
        keepCompletionOfScriptTask env core tenantId userId item taskGuid
          (env.redactBounded (taskName ++ ": " ++ message))
  | failure => Proc.raise failure

/-! ## Links of the next tasks -/

/-- `_recipients_for_task`: the potential owners that have an email. -/
def recipientsForTask (task : WorkItem) : List (Nat × Text) :=
  task.potentialOwners.filterMap fun owner =>
    let email := (owner.email.getD []).strip
    if email = [] then none else some (owner.id, email)

/-- The next free id of a table. -/
def nextId (rows : List Request) : Nat := (rows.map Request.id).foldr max 0 + 1

/-- The rows of the recipients that hold no open link of the task yet. -/
def newRows (env : Env) (tenantId : String) (task : WorkItem) (url : Text) (now : Int)
    (existing : List Nat) : Nat → List (Nat × Text) → List Request
  | _, [] => []
  | id, (userId, email) :: recipients =>
      if userId ∈ existing then newRows env tenantId task url now existing id recipients
      else
        { id := id
          m8fTenantId := tenantId
          referenceId := env.newReferenceId id
          processInstanceId := task.processInstanceId
          taskGuid := task.taskGuid
          recipientUserId := userId
          email := String.ofList email
          externalFormUrl := String.ofList url
          status := .pending
          formSubmissionData := none
          expiresAtInSeconds := some (now + env.ttl)
          attempts := 0
          notifiedAtInSeconds := none
          lastError := none } :: newRows env tenantId task url now existing (id + 1) recipients

/-- `create_requests_for_task`.  A refused commit rolls the transaction back. -/
def createRequestsForTask (env : Env) (tenantId : String) (task : WorkItem) (url : Text)
    (recipients : List (Nat × Text)) : Tx κ Unit := do
  let s ← Proc.read
  let existing := (s.working.rows.filter fun row =>
    row.processInstanceId = task.processInstanceId ∧ row.taskGuid = task.taskGuid ∧
      row.isOpen).map Request.recipientUserId
  let created := newRows env tenantId task url env.now existing (nextId s.working.rows) recipients
  Proc.modify fun s =>
    { s.flush with working := { s.flush.working with rows := s.flush.working.rows ++ created } }
  Proc.tryExcept (commitAt env (.emission task.id)) fun failure => do
    Proc.modify Session.rollback
    Proc.raise (.api (.of "database_error"
      ("Error saving external form requests: " ++ failure.text) 500))

/-- `emit_requests_for_ready_tasks`: the links of every ready external-form task.
Publishing the event changes no table. -/
def emitRequestsForReadyTasks (env : Env) (tenantId : String) : List WorkItem → Tx κ Unit
  | [] => pure ()
  | task :: tasks =>
      match externalFormUrlForTask task with
      | .error message => Proc.raise (.other message)
      | .ok none => emitRequestsForReadyTasks env tenantId tasks
      | .ok (some url) =>
          if recipientsForTask task = [] then emitRequestsForReadyTasks env tenantId tasks
          else do
            createRequestsForTask env tenantId task url (recipientsForTask task)
            emitRequestsForReadyTasks env tenantId tasks

/-- `_emit_external_form_requests`: best effort, every exception is swallowed. -/
def emitExternalFormRequests (env : Env) (core : Core κ) (tenantId : String)
    (processInstanceId : Nat) : Tx κ Unit := do
  let s ← Proc.read
  Proc.tryExcept
    (emitRequestsForReadyTasks env tenantId
      (core.readyTasks s.working.core tenantId processInstanceId))
    fun _ => pure ()

/-! ## Claim and complete -/

/-- The in-app guard, on the session's view of the rows. -/
def rejectInAppCompletion (env : Env) (core : Core κ) (tenantId : String)
    (workItemId : Nat) : Tx κ Unit := do
  let s ← Proc.read
  Proc.ofExcept Failure.api
    (rejectInAppCompletionOfExternalFormTask s.completionFlag (core.workItems s.working.core)
      s.working.rows tenantId workItemId env.now)

/-- `workflow.claim`. -/
def claim (core : Core κ) (tenantId : String) (workItemId userId : Nat) : Tx κ Unit :=
  Proc.tryExcept
    (do
      rejectTaskWriteIfInstanceSuspended core tenantId workItemId "claim"
      runCore core fun tables => core.claimTask tables tenantId workItemId userId)
    fun failure =>
      match failure with
      | .core kind message => Proc.raise (.api (mapBpmnError kind message))
      | failure => Proc.raise failure

/-- The instance of the work item, when the item is of the caller's tenant. -/
def instanceOf (tenantId : String) (workItem : Option WorkItem) : Option Nat :=
  match workItem with
  | none => none
  | some item => if item.m8fTenantId = tenantId then some item.processInstanceId else none

/-- `workflow.complete`. -/
def complete (env : Env) (core : Core κ) (tenantId : String) (workItemId userId : Nat)
    (taskPayload : Option FormData) : Tx κ Nat := do
  let s ← Proc.read
  let workItem := core.workItem s.working.core workItemId
  let payload := taskPayload.map
    (corePayload env core s.working.core tenantId workItemId)
  let instanceId ← Proc.tryExcept
    (do
      rejectTaskWriteIfInstanceSuspended core tenantId workItemId "complete"
      rejectInAppCompletion env core tenantId workItemId
      runCore core fun tables => core.completeTask tables tenantId workItemId userId payload)
    (completeHandler env core tenantId userId workItem (instanceOf tenantId workItem))
  emitExternalFormRequests env core tenantId instanceId
  pure instanceId

/-- `human_task.submit_external_form`, as the link calls it. -/
def submitExternalForm (env : Env) (core : Core κ) (tenantId : String)
    (workItemId userId : Nat) (taskPayload : Option FormData) : Tx κ Nat := do
  claim core tenantId workItemId userId
  complete env core tenantId workItemId userId taskPayload

/-! ## Sessions -/

@[simp] theorem flush_committed (s : Session κ) : s.flush.committed = s.committed := by
  unfold Session.flush
  split <;> rfl

@[simp] theorem flush_working_core (s : Session κ) : s.flush.working.core = s.working.core := by
  unfold Session.flush
  split <;> rfl

@[simp] theorem flush_dirty (s : Session κ) : s.flush.dirty = none := by
  unfold Session.flush
  split
  · assumption
  · rfl

/-- Nothing is left to flush after a flush. -/
theorem flush_of_clean {s : Session κ} (h : s.dirty = none) : s.flush = s := by
  unfold Session.flush
  rw [h]

@[simp] theorem flush_flush (s : Session κ) : s.flush.flush = s.flush :=
  flush_of_clean (flush_dirty s)

theorem enter_committed (core : Core κ) (s : Session κ) :
    (core.enter s).committed = s.committed := by
  unfold Core.enter
  split
  · exact flush_committed s
  · rfl

theorem enter_working_core (core : Core κ) (s : Session κ) :
    (core.enter s).working.core = s.working.core := by
  unfold Core.enter
  split
  · exact flush_working_core s
  · rfl

theorem enter_flush (core : Core κ) (s : Session κ) : (core.enter s).flush = s.flush := by
  unfold Core.enter
  split
  · exact flush_flush s
  · rfl

/-- Changing core's tables and flushing commute on the request rows. -/
theorem flush_rows_of_core (s : Session κ) (tables : κ) :
    ({ s with working := { s.working with core := tables } } : Session κ).flush.working.rows =
      s.flush.working.rows := by
  unfold Session.flush
  cases s.dirty <;> rfl

/-- A core command leaves the committed tables and the request rows alone and
changes core's tables. -/
theorem runCore_run {α : Type} (core : Core κ) (command : κ → Except Failure α × κ)
    (s : Session κ) :
    ∃ s', runCore core command s = ((command s.working.core).1, s') ∧
      s'.committed = s.committed ∧ s'.flush.working.rows = s.flush.working.rows ∧
      s'.working.core = (command s.working.core).2 := by
  have hcore := enter_working_core core s
  refine ⟨{ core.enter s with
    working := { (core.enter s).working with core := (command s.working.core).2 } }, ?_, ?_, ?_, ?_⟩
  · unfold runCore
    show ((command (core.enter s).working.core).1, _) = _
    rw [hcore]
  · exact enter_committed core s
  · rw [flush_rows_of_core, enter_flush]
  · rfl

end M8flow.Workflow
