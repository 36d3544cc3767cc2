import M8flow.Workflow.Complete

/-!
# Submitting a form through its link

`ExternalFormService.submit` marks the row, completes the human task in the same
transaction, and commits both together.  Every exception of the completion is
answered by a rollback and a note on the row.  This module models `submit` in one
session and proves what a submission leaves in the committed tables, whether it
returns or raises.
-/

namespace M8flow.ExternalForm

open M8flow.Lib M8flow.Workflow

variable {κ : Type}

/-- What `submit` answers. -/
structure SubmitResponse where
  referenceId : String
  status : Status
  processInstanceId : Nat
  deriving Repr, DecidableEq

/-- `_find_request_or_raise`. -/
def findRequestOrRaise (referenceId : String) : Tx κ Request := do
  let s ← Proc.read
  match s.working.rows.find? fun row => row.referenceId = referenceId with
  | some row => pure row
  | none =>
      Proc.raise (.api (.of "invalid_reference_id"
        "No external form request was found for this link." 404))

/-- Change the request object; the change waits for a flush.  An earlier change
of the object goes to the transaction first, where the later one overwrites it. -/
def setRow (row : Request) : Tx κ Unit :=
  Proc.modify fun s => { s.flush with dirty := some row }

/-- Change the request object and commit at once, when there is a change. -/
def saveRow (env : Env) (point : CommitPoint) (old row : Request) : Tx κ Request :=
  if row.status = old.status then pure old
  else do
    setRow row
    commitAt env point
    pure row

/-- The checks at the head of `submit`; expiry commits before it refuses. -/
def admitLink (env : Env) (row : Request) : Tx κ Request := do
  Proc.ofExcept Failure.api (raiseForUnusableStatus row)
  let row ← saveRow env .expire row (expireIfNeeded env.now row)
  if row.status = .expired then do
    Proc.ofExcept Failure.api (raiseForUnusableStatus row)
    pure row
  else pure row

/-- `human_task_for`. -/
def humanTaskFor (core : Core κ) (tables : κ) (row : Request) : Option WorkItem :=
  (core.workItems tables).find? fun item =>
    item.processInstanceId = row.processInstanceId ∧ item.taskGuid = row.taskGuid

/-- Refuse a link whose task closed without it; the row is retired first. -/
def admitOpenTask (env : Env) (workItem : Option WorkItem) (row : Request) :
    Tx κ Request := do
  let row ← saveRow env .cancel row (cancelIfTaskClosed workItem row)
  if row.status = .cancelled then do
    Proc.ofExcept Failure.api (raiseForUnusableStatus row)
    pure row
  else pure row

/-- The request object as it stands: its own changes over the stored row, which
is loaded again after a rollback. -/
def currentRow (row : Request) : Tx κ Request := do
  let s ← Proc.read
  pure ((Table.lookup Request.id s.flush.working.rows row.id).getD row)

/-- Roll back, and change the row that is then loaded again. -/
def remarkRow (row : Request) (change : Request → Request) : Tx κ Unit := do
  Proc.modify Session.rollback
  let row ← currentRow row
  setRow (change row)

/-- `_record_failure`; a refused commit is logged and rolled back. -/
def recordFailure (env : Env) (row : Request) (reason : String) : Tx κ Unit := do
  remarkRow row (failedRow reason.toList)
  Proc.tryExcept (commitAt env .failure) fun _ => Proc.modify Session.rollback

/-- The refusal of a form whose task another route completed. -/
def taskAlreadyCompleted : ApiError :=
  .of "already_submitted" "This task has already been completed." 409

/-- The `except` clauses around the completion. -/
def submitHandler (env : Env) (row : Request) (form : FormData) (failure : Failure) :
    Tx κ Unit :=
  match failure with
  | .api e =>
      if e.errorCode = "invalid_state" then do
        remarkRow row (completedRow form)
        commitAt env .alreadyDone
        Proc.raise (.api taskAlreadyCompleted)
      else do
        recordFailure env row (e.errorCode ++ ": " ++ e.message)
        Proc.raise failure
  | failure => do
      recordFailure env row failure.text
      Proc.raise (.api (.of "workflow_resume_failed"
        ("The form was received but the workflow could not be resumed: " ++ failure.text) 500))

/-- The completion that `submit` runs for the recipient. -/
def resumeTask (env : Env) (core : Core κ) (row : Request) (workItem : Option WorkItem)
    (form : FormData) : Tx κ Unit :=
  match workItem with
  | none => Proc.raise (.api (.of "not_found" "Work item not found for this form" 404))
  | some item => do
      let _ ← submitExternalForm env core row.m8fTenantId item.id row.recipientUserId (some form)
      pure ()

/-- `_supersede_siblings`, on what the session's transaction shows. -/
def supersedeSiblings (row : Request) : Tx κ Unit :=
  Proc.modify fun s =>
    { s.flush with working := { s.flush.working with
        rows := Table.updateWhere row.isOpenSibling supersededRow s.flush.working.rows } }

/-- The last steps of `submit`: complete the row, retire the siblings, commit. -/
def finishSubmission (env : Env) (row : Request) : Tx κ SubmitResponse := do
  let row ← currentRow row
  setRow { row with status := .completed }
  supersedeSiblings row
  commitAt env .final
  pure { referenceId := row.referenceId, status := .completed,
         processInstanceId := row.processInstanceId }

/-- `ExternalFormService.submit`. -/
def submit (env : Env) (core : Core κ) (referenceId : String) (form : FormData) :
    Tx κ SubmitResponse := do
  let row ← findRequestOrRaise referenceId
  let row ← admitLink env row
  let s ← Proc.read
  let workItem := humanTaskFor core s.working.core row
  let row ← admitOpenTask env workItem row
  setRow (submittedRow form row)
  if row.recipientUserId ∉ core.userIds s.working.core then do
    recordFailure env row "Recipient user no longer exists."
    Proc.raise (.api (.of "recipient_not_found"
      "The recipient for this link could not be resolved." 410))
  else do
    Proc.modify fun s => { s with completionFlag := true }
    Proc.tryExcept (resumeTask env core row workItem form) (submitHandler env row form)
    finishSubmission env row

end M8flow.ExternalForm
