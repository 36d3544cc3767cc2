import M8flow.Errors
import M8flow.Lib.Json
import M8flow.Lib.Table

/-!
# External-form requests

One row tracks one emailed link: the request that a recipient completes a human
task through its secure link.  This module holds the row, the status sets of
`models/external_form_request.py`, and the row-level rules of
`ExternalFormService` that every entry point shares:

- `expireIfNeeded`, the lazy expiry of an open link;
- `cancelIfTaskClosed`, the retirement of a link whose task closed without it;
- `raiseForUnusableStatus`, the refusal of a link by its status;
- `checkLink`, the three checks in the order `submit` makes them.
-/

namespace M8flow.ExternalForm

open M8flow.Lib

/-- `ExternalFormRequestStatus`. -/
inductive Status where
  | pending
  | sending
  | notified
  | submitted
  | completed
  | failed
  | expired
  | superseded
  | smtpUnconfigured
  | cancelled
  deriving Repr, DecidableEq

/-- The stored text of a status. -/
def Status.value : Status → String
  | .pending => "pending"
  | .sending => "sending"
  | .notified => "notified"
  | .submitted => "submitted"
  | .completed => "completed"
  | .failed => "failed"
  | .expired => "expired"
  | .superseded => "superseded"
  | .smtpUnconfigured => "smtp_unconfigured"
  | .cancelled => "cancelled"

/-- `ACTIONABLE_STATUSES`: the secure link may still be used. -/
def actionableStatuses : List Status := [.pending, .sending, .notified, .failed]

/-- `OPEN_STATUSES`: the request is still the live one of its recipient. -/
def openStatuses : List Status := actionableStatuses ++ [.smtpUnconfigured]

/-- The submitted form, a JSON object. -/
abbrev FormData := List (Text × Json)

/-- A row of `m8flow_external_form_requests`. -/
structure Request where
  id : Nat
  m8fTenantId : String
  referenceId : String
  processInstanceId : Nat
  taskGuid : String
  recipientUserId : Nat
  email : String
  externalFormUrl : String
  status : Status
  formSubmissionData : Option FormData
  expiresAtInSeconds : Option Int
  attempts : Nat
  notifiedAtInSeconds : Option Int
  lastError : Option Text
  deriving Repr

/-- `LAST_ERROR_MAX_LENGTH`. -/
def lastErrorMaxLength : Nat := 500

/-- `truncate_last_error`: fit a failure reason into the column. -/
def truncateLastError (message : Text) : Option Text :=
  let text := message.strip
  if text = [] then none else some (text.take lastErrorMaxLength)

/-- `last_error` of a link retired because its task closed without it. -/
def taskClosedReason : Text := "The task this link was issued for is no longer open.".toList

/-! ## Work items -/

/-- A potential owner of a task. -/
structure Owner where
  id : Nat
  username : String
  email : Option Text

/-- The part of core's `WorkItemModel` that the host reads.  Reading the task
definition's properties goes through lazy relations and can raise. -/
structure WorkItem where
  id : Nat
  m8fTenantId : String
  processInstanceId : Nat
  taskGuid : String
  completed : Bool
  propertiesJson : Except String Json
  jsonMetadata : Json
  potentialOwners : List Owner

/-- `external_form_url_for_task`: the modeler-set `externalFormUrl`, if any. -/
def externalFormUrlForTask (item : WorkItem) : Except String (Option Text) := do
  let properties ← item.propertiesJson
  let url := do
    let extensions ← properties.get? "extensions".toList
    let properties ← extensions.get? "properties".toList
    let value ← properties.get? "externalFormUrl".toList
    let text ← value.asText
    if text.strip = [] then none else some text.strip
  return url

/-! ## Rules of one row -/

/-- `is_actionable`. -/
def Request.isActionable (row : Request) : Bool := row.status ∈ actionableStatuses

/-- The row is in one of `OPEN_STATUSES`. -/
def Request.isOpen (row : Request) : Bool := row.status ∈ openStatuses

/-- `_expire_if_needed`: an open row past its expiry becomes `expired`. -/
def expireIfNeeded (now : Int) (row : Request) : Request :=
  match row.expiresAtInSeconds with
  | some expiry => if row.isOpen ∧ expiry < now then { row with status := .expired } else row
  | none => row

/-- The row as `cancel_if_task_closed` rewrites it. -/
def retire (row : Request) : Request :=
  { row with status := .cancelled, lastError := some taskClosedReason }

/-- `cancel_if_task_closed`: retire an open row whose task core has closed. -/
def cancelIfTaskClosed (workItem : Option WorkItem) (row : Request) : Request :=
  match workItem with
  | some item => if row.isOpen ∧ item.completed then retire row else row
  | none => row

/-- `_raise_for_unusable_status`. -/
def raiseForUnusableStatus (row : Request) : Except ApiError Unit :=
  match row.status with
  | .submitted | .completed =>
      .error (.of "already_submitted" "This form has already been submitted." 409)
  | .superseded =>
      .error (.of "reference_superseded"
        "This task was already completed through another recipient's link." 410)
  | .expired => .error (.of "reference_expired" "This link has expired." 410)
  | .cancelled =>
      .error (.of "reference_cancelled"
        "This form is no longer needed: the workflow task it belonged to was closed." 410)
  | .smtpUnconfigured => .error (.of "reference_not_active" "This link is not active." 409)
  | .pending | .sending | .notified | .failed => .ok ()

/-- The status and expiry checks at the head of `submit`: the row as they leave
it, and the refusal if there is one. -/
def checkLink (now : Int) (row : Request) : Request × Except ApiError Unit :=
  match raiseForUnusableStatus row with
  | .error e => (row, .error e)
  | .ok () =>
      let row := expireIfNeeded now row
      if row.status = .expired then (row, raiseForUnusableStatus row) else (row, .ok ())

/-- The unusable statuses are the ones that are not actionable. -/
theorem raiseForUnusableStatus_eq_ok_iff (row : Request) :
    raiseForUnusableStatus row = .ok () ↔ row.isActionable := by
  unfold raiseForUnusableStatus Request.isActionable actionableStatuses
  cases row.status <;> simp

/-- An actionable row is open. -/
theorem isOpen_of_isActionable {row : Request} (h : row.isActionable) : row.isOpen := by
  unfold Request.isActionable at h
  unfold Request.isOpen openStatuses
  simp only [decide_eq_true_eq] at h ⊢
  exact List.mem_append_left _ h

/-- A row that passes the checks of `submit` passes them unchanged. -/
theorem checkLink_eq_ok {now : Int} {row : Request} (h : (checkLink now row).2 = .ok ()) :
    row.isActionable ∧ (checkLink now row).1 = row := by
  unfold checkLink at h ⊢
  cases hraise : raiseForUnusableStatus row with
  | error e => simp [hraise] at h
  | ok u =>
      refine ⟨(raiseForUnusableStatus_eq_ok_iff row).mp hraise, ?_⟩
      simp only [hraise] at h ⊢
      unfold expireIfNeeded at h ⊢
      split at h
      · split at h
        · simp [raiseForUnusableStatus] at h
        · rename_i hnot
          rw [if_neg hnot]
          split <;> rfl
      · split <;> rfl

theorem cancelIfTaskClosed_id (workItem : Option WorkItem) (row : Request) :
    (cancelIfTaskClosed workItem row).id = row.id := by
  unfold cancelIfTaskClosed
  cases workItem with
  | none => rfl
  | some item =>
      simp only
      split <;> rfl

theorem expireIfNeeded_id (now : Int) (row : Request) :
    (expireIfNeeded now row).id = row.id := by
  unfold expireIfNeeded
  split
  · split <;> rfl
  · rfl

theorem checkLink_id (now : Int) (row : Request) : (checkLink now row).1.id = row.id := by
  unfold checkLink
  split
  · rfl
  · simp only
    split <;> exact expireIfNeeded_id now row

/-- Writing the object `row` by primary key: every column but the key. -/
def Request.over (row old : Request) : Request := { row with id := old.id }

@[simp] theorem over_id (row old : Request) : (row.over old).id = old.id := rfl

theorem over_eq {row old : Request} (h : row.id = old.id) : row.over old = row := by
  unfold Request.over
  rw [← h]

/-! ## Reissue -/

/-- `SEND_LEASE_SECONDS`. -/
def sendLeaseSeconds : Int := 120

/-- `_NOT_REISSUABLE`: why the link of a row can no longer be re-issued. -/
def notReissuable : Status → Option String
  | .submitted | .completed => some "The recipient already submitted this form."
  | .superseded => some "Another recipient already completed this task."
  | .cancelled => some
      "Its task is no longer open: the process instance was terminated or the task was closed."
  | _ => none

/-- The reason `reissue` refuses a row, if there is one. -/
def reissueRefusal (now : Int) (row : Request) : Option String :=
  match notReissuable row.status with
  | some reason => some reason
  | none =>
      if row.status = .sending ∧ row.notifiedAtInSeconds.getD 0 ≥ now - sendLeaseSeconds then
        some "An email for this request is being sent right now. Try again in a few minutes."
      else none

/-- `reissue` on the row it has locked: the row as it is committed, and the
refusal if there is one. -/
def reissueRow (now ttl : Int) (referenceId : String) (workItem : Option WorkItem)
    (row : Request) : Request × Except ApiError Unit :=
  let row := cancelIfTaskClosed workItem row
  match reissueRefusal now row with
  | some reason =>
      (row, .error (.of "external_form_request_not_resendable"
        ("A notification in status '" ++ row.status.value ++ "' cannot be resent. " ++ reason) 409))
  | none =>
      ({ row with
          referenceId := referenceId
          status := .pending
          expiresAtInSeconds := some (now + ttl)
          notifiedAtInSeconds := none
          attempts := 0
          lastError := none }, .ok ())

theorem reissueRow_id (now ttl : Int) (referenceId : String) (workItem : Option WorkItem)
    (row : Request) : (reissueRow now ttl referenceId workItem row).1.id = row.id := by
  unfold reissueRow
  simp only
  split <;> exact cancelIfTaskClosed_id workItem row

/-! ## Delivery

The guarded updates of `ExternalFormNotificationService`: each is the `WHERE`
condition and the `SET` list of one statement. -/

/-- `CLAIMABLE_STATUSES`. -/
def claimableStatuses : List Status := [.pending, .failed]

/-- `_claimable`: the row is owed an email. -/
def claimable (now : Int) (row : Request) : Bool :=
  match row.notifiedAtInSeconds with
  | none => row.status ∈ claimableStatuses
  | some notifiedAt => row.status = .sending ∧ notifiedAt < now - sendLeaseSeconds

/-- The row `claim` takes for sending. -/
def claimRow (now ttl : Int) (row : Request) : Request :=
  { row with
    status := .sending
    notifiedAtInSeconds := some now
    expiresAtInSeconds := some (now + ttl)
    attempts := row.attempts + 1
    lastError := none }

/-- The row `mark_sent` records. -/
def markSentRow (row : Request) : Request := { row with status := .notified }

/-- The row `release_failed` reverts. -/
def releaseFailedRow (reason : Text) (row : Request) : Request :=
  { row with
    status := .failed
    notifiedAtInSeconds := none
    lastError := truncateLastError reason }

/-- The row `mark_smtp_unconfigured` parks. -/
def parkRow (reason : Text) (row : Request) : Request :=
  { row with
    status := .smtpUnconfigured
    notifiedAtInSeconds := none
    lastError := truncateLastError reason }

/-- The row `revive_smtp_unconfigured` returns to the queue. -/
def reviveRow (row : Request) : Request :=
  { row with
    status := .pending
    notifiedAtInSeconds := none
    attempts := 0
    lastError := none }

/-! ## Submission -/

/-- The row `submit` marks while it completes the task. -/
def submittedRow (form : FormData) (row : Request) : Request :=
  { row with status := .submitted, formSubmissionData := some form }

theorem submittedRow_id (form : FormData) (row : Request) :
    (submittedRow form row).id = row.id := rfl

/-- The row `submit` leaves once the task is complete. -/
def completedRow (form : FormData) (row : Request) : Request :=
  { row with status := .completed, formSubmissionData := some form }

/-- A sibling row that `_supersede_siblings` retires. -/
def supersededRow (row : Request) : Request := { row with status := .superseded }

theorem supersededRow_id (row : Request) : (supersededRow row).id = row.id := rfl

/-- The row `_record_failure` marks. -/
def failedRow (reason : Text) (row : Request) : Request :=
  { row with
    status := .failed
    attempts := row.attempts + 1
    lastError := truncateLastError reason }

/-- `other` is an open request of the same task as `row`, and not `row` itself. -/
def Request.isOpenSibling (row other : Request) : Bool :=
  other.processInstanceId = row.processInstanceId ∧ other.taskGuid = row.taskGuid ∧
    other.id ≠ row.id ∧ other.isOpen

/-! ## A task and its links

The concrete data that witnesses and counterexamples run on. -/

/-- An open task of tenant `t1` whose definition carries an `externalFormUrl`. -/
def reviewTask : WorkItem where
  id := 1
  m8fTenantId := "t1"
  processInstanceId := 7
  taskGuid := "review"
  completed := false
  propertiesJson := .ok (.obj [("extensions".toList, .obj [("properties".toList,
    .obj [("externalFormUrl".toList, .str "https://forms.test/f".toList)])])])
  jsonMetadata := .null
  potentialOwners := []

/-- A link of `reviewTask`. -/
def reviewLink (id : Nat) (status : Status) (expiresAtInSeconds : Option Int) : Request where
  id := id
  m8fTenantId := "t1"
  referenceId := "ref-" ++ toString id
  processInstanceId := 7
  taskGuid := "review"
  recipientUserId := 10 + id
  email := "recipient@t1.test"
  externalFormUrl := "https://forms.test/f"
  status := status
  formSubmissionData := none
  expiresAtInSeconds := expiresAtInSeconds
  attempts := 0
  notifiedAtInSeconds := none
  lastError := none

end M8flow.ExternalForm
