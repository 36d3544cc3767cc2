import M8flow.ExternalForm.Submit
import M8flow.Lib.Run
import M8flow.Nats.Audit

/-!
# Deleting an instance

`delete_instance` of `workflow/__init__.py`.  Core's own rows go with the instance through
the relationships of its model; host rows carry the bare id, and each host table that has
it must be named.

- `HostDb` has every host table that stores an instance id, `step` the requests that write
  them.
- `deleteInstance` is the function and `deleteProcessInstance` its request.
- `clean_iff` says when a delete leaves nothing of the instance and everything of the
  others, and `deleted_iff` says so after every run.
-/

namespace M8flow.Workflow.Deletion

open M8flow.Lib M8flow.ExternalForm

variable {κ ρ : Type}

/-! ## Tables -/

/-- `TaskDraftDataModel`. -/
structure TaskDraftData where
  id : Nat
  processInstanceId : Nat
  taskGuid : String
  savedFormData : Option String
  m8fTenantId : String

/-- `TaskInstructionsForEndUserModel`. -/
structure TaskInstructionsForEndUser where
  id : Nat
  processInstanceId : Nat
  instruction : String
  m8fTenantId : String

/-- `ProcessInstanceFileDataModel`. -/
structure ProcessInstanceFileData where
  id : Nat
  processInstanceId : Nat
  mimetype : Option String
  filename : Option String
  contents : Option String
  m8fTenantId : String

/-- Core's tables and the host tables that store the id of an instance. -/
structure HostDb (κ : Type) extends Db κ where
  drafts : List TaskDraftData
  instructions : List TaskInstructionsForEndUser
  fileData : List ProcessInstanceFileData
  audits : List Nats.Audit.Row

/-- A host model that stores the id of an instance. -/
class InstanceRow (α : Type) where
  refersTo : String → Nat → α → Bool

instance draftRow : InstanceRow TaskDraftData where
  refersTo tenantId i row := row.processInstanceId = i ∧ row.m8fTenantId = tenantId

instance instructionsRow : InstanceRow TaskInstructionsForEndUser where
  refersTo tenantId i row := row.processInstanceId = i ∧ row.m8fTenantId = tenantId

instance fileDataRow : InstanceRow ProcessInstanceFileData where
  refersTo tenantId i row := row.processInstanceId = i ∧ row.m8fTenantId = tenantId

instance requestRow : InstanceRow Request where
  refersTo tenantId i row := row.processInstanceId = i ∧ row.m8fTenantId = tenantId

instance errorRow : InstanceRow InstanceError where
  refersTo tenantId i row := row.processInstanceId = i ∧ row.m8fTenantId = tenantId

instance auditRow : InstanceRow Nats.Audit.Row where
  refersTo tenantId i row :=
    row.processInstanceId = some (i : Int) ∧ row.key.tenantId = some tenantId.toList

/-- No row of a table is of the instance. -/
def Free {α : Type} [InstanceRow α] (tenantId : String) (i : Nat) (rows : List α) : Prop :=
  ∀ row ∈ rows, InstanceRow.refersTo tenantId i row = false

/-- The rows of a table that are of other instances. -/
def others {α : Type} [InstanceRow α] (tenantId : String) (i : Nat) (rows : List α) : List α :=
  rows.filter fun row => !InstanceRow.refersTo tenantId i row

/-- `DELETE .. WHERE process_instance_id = .. AND m8f_tenant_id = ..`. -/
def sqlDelete {α : Type} [InstanceRow α] (tenantId : String) (i : Nat) (rows : List α) : List α :=
  rows.filter fun row => !InstanceRow.refersTo tenantId i row

section Tables

variable {α : Type} [InstanceRow α] {tenantId : String} {i : Nat}

theorem free_sqlDelete (rows : List α) : Free tenantId i (sqlDelete tenantId i rows) := by
  intro row hrow
  have hkept := (List.mem_filter.mp hrow).2
  simpa using hkept

theorem others_sqlDelete (rows : List α) :
    others tenantId i (sqlDelete tenantId i rows) = others tenantId i rows := by
  simp [others, sqlDelete, List.filter_filter]

end Tables

/-! ## Core -/

/-- An instance as `session.get` finds it. -/
structure CoreInstance where
  m8fTenantId : String
  status : String

/-- Core with its instances: what a start makes, and what `session.delete` takes away. -/
structure InstanceCore (κ ρ : Type) extends Core κ where
  findInstance : κ → Nat → Option CoreInstance
  /-- Core's rows of one instance: tasks, human tasks, events, metadata, jobs. -/
  rowsOf : κ → Nat → List ρ
  initProcessInstance : κ → String → Nat → String → Except Failure Nat × κ
  deleteInstance : κ → Nat → κ

/-- The relationships cascade, and touch no other instance. -/
structure InstanceCore.Cascades (core : InstanceCore κ ρ) : Prop where
  deleted : ∀ tables i, core.findInstance (core.deleteInstance tables i) i = none
  rows_deleted : ∀ tables i, core.rowsOf (core.deleteInstance tables i) i = []
  other : ∀ tables i j, j ≠ i →
    core.findInstance (core.deleteInstance tables i) j = core.findInstance tables j ∧
      core.rowsOf (core.deleteInstance tables i) j = core.rowsOf tables j

/-! ## The delete -/

/-- `_TERMINAL_INSTANCE_STATUSES`. -/
def terminalInstanceStatuses : List String := ["complete", "error", "terminated"]

/-- The statements of the loop over the host models. -/
def HostDb.deleteHostRows (tenantId : String) (processInstanceId : Nat) (db : HostDb κ) :
    HostDb κ :=
  { db with
    drafts := sqlDelete tenantId processInstanceId db.drafts
    instructions := sqlDelete tenantId processInstanceId db.instructions
    fileData := sqlDelete tenantId processInstanceId db.fileData
    rows := sqlDelete tenantId processInstanceId db.rows }

/-- `session.delete(instance)`. -/
def HostDb.deleteCoreRows (core : InstanceCore κ ρ) (processInstanceId : Nat) (db : HostDb κ) :
    HostDb κ :=
  { db with core := core.deleteInstance db.core processInstanceId }

/-- The checks at the head of `delete_instance`. -/
def admitDelete (core : InstanceCore κ ρ) (tables : κ) (tenantId : String)
    (processInstanceId : Nat) : Except ApiError Unit :=
  match core.findInstance tables processInstanceId with
  | none => .error (.of "not_found" "Process instance not found" 404)
  | some found =>
      if found.m8fTenantId ≠ tenantId then
        .error (.of "not_found" "Process instance not found" 404)
      else if found.status ∉ terminalInstanceStatuses then
        .error (.of "process_instance_not_finished"
          ("Process instance is " ++ found.status ++ "; " ++
            "only complete, terminated or error instances can be deleted. Terminate it first.")
          409)
      else .ok ()

/-- `delete_instance`; the flush may fail. -/
def deleteInstance (core : InstanceCore κ ρ) (flushFails : Option String) (tenantId : String)
    (processInstanceId : Nat) : Proc (HostDb κ) Failure Nat := do
  let db ← Proc.read
  Proc.ofExcept Failure.api (admitDelete core db.core tenantId processInstanceId)
  Proc.modify (HostDb.deleteHostRows tenantId processInstanceId)
  Proc.modify (HostDb.deleteCoreRows core processInstanceId)
  match flushFails with
  | some message => Proc.raise (.other message)
  | none => pure processInstanceId

/-- What the database refuses during a delete. -/
structure Faults where
  flush : Option String
  commit : Option String

/-- The request: its teardown commits, or rolls back what raised. -/
def deleteProcessInstance (core : InstanceCore κ ρ) (faults : Faults) (tenantId : String)
    (processInstanceId : Nat) (db : HostDb κ) : Except Failure Nat × HostDb κ :=
  match deleteInstance core faults.flush tenantId processInstanceId db with
  | (.ok id, db') =>
      match faults.commit with
      | none => (.ok id, db')
      | some message => (.error (.other message), db)
  | (.error failure, _) => (.error failure, db)

/-- The instance is one of the tenant's, and finished. -/
def Finished (core : InstanceCore κ ρ) (tables : κ) (tenantId : String)
    (processInstanceId : Nat) : Prop :=
  ∃ found, core.findInstance tables processInstanceId = some found ∧
    found.m8fTenantId = tenantId ∧ found.status ∈ terminalInstanceStatuses

theorem admitDelete_ok_iff (core : InstanceCore κ ρ) (tables : κ) (tenantId : String) (i : Nat) :
    admitDelete core tables tenantId i = .ok () ↔ Finished core tables tenantId i := by
  unfold admitDelete Finished
  cases core.findInstance tables i with
  | none => simp
  | some found =>
      by_cases htenant : found.m8fTenantId = tenantId
      · by_cases hstatus : found.status ∈ terminalInstanceStatuses
        · simp [htenant, hstatus]
        · simp [htenant, hstatus]
      · simp [htenant]

/-- The delete goes through. -/
def Deletable (core : InstanceCore κ ρ) (faults : Faults) (tenantId : String)
    (processInstanceId : Nat) (db : HostDb κ) : Prop :=
  Finished core db.core tenantId processInstanceId ∧ faults.flush = none ∧ faults.commit = none

/-- The tables after a delete that goes through. -/
def HostDb.withoutInstance (core : InstanceCore κ ρ) (tenantId : String) (processInstanceId : Nat)
    (db : HostDb κ) : HostDb κ :=
  (db.deleteHostRows tenantId processInstanceId).deleteCoreRows core processInstanceId

/-- A request that goes through deletes the rows of the four tables and core's. -/
theorem delete_of_deletable {core : InstanceCore κ ρ} {faults : Faults} {tenantId : String}
    {i : Nat} {db : HostDb κ} (h : Deletable core faults tenantId i db) :
    deleteProcessInstance core faults tenantId i db =
      (.ok i, db.withoutInstance core tenantId i) := by
  obtain ⟨hfinished, hflush, hcommit⟩ := h
  have hadmit := (admitDelete_ok_iff core db.core tenantId i).mpr hfinished
  have hrun : deleteInstance core faults.flush tenantId i db =
      (.ok i, db.withoutInstance core tenantId i) := by
    unfold deleteInstance
    rw [Proc.read_bind_run, hadmit, Proc.ofExcept_ok_bind_run, hflush]
    rfl
  unfold deleteProcessInstance
  rw [hrun, hcommit]

/-- A refused request changes nothing. -/
theorem delete_of_not_deletable {core : InstanceCore κ ρ} {faults : Faults} {tenantId : String}
    {i : Nat} {db : HostDb κ} (h : ¬ Deletable core faults tenantId i db) :
    ∃ failure, deleteProcessInstance core faults tenantId i db = (.error failure, db) := by
  unfold deleteProcessInstance
  cases hadmit : admitDelete core db.core tenantId i with
  | error e =>
      have hrun : deleteInstance core faults.flush tenantId i db = (.error (.api e), db) := by
        unfold deleteInstance
        rw [Proc.read_bind_run, hadmit, Proc.ofExcept_error_bind_run]
      exact ⟨.api e, by rw [hrun]⟩
  | ok u =>
      have hfinished := (admitDelete_ok_iff core db.core tenantId i).mp hadmit
      cases hflush : faults.flush with
      | some message =>
          have hrun : deleteInstance core (some message) tenantId i db =
              (.error (.other message), db.withoutInstance core tenantId i) := by
            unfold deleteInstance
            rw [Proc.read_bind_run, hadmit, Proc.ofExcept_ok_bind_run]
            rfl
          exact ⟨.other message, by rw [hrun]⟩
      | none =>
          have hrun : deleteInstance core none tenantId i db =
              (.ok i, db.withoutInstance core tenantId i) := by
            unfold deleteInstance
            rw [Proc.read_bind_run, hadmit, Proc.ofExcept_ok_bind_run]
            rfl
          cases hcommit : faults.commit with
          | none => exact absurd ⟨hfinished, hflush, hcommit⟩ h
          | some message => exact ⟨.other message, by rw [hrun]⟩

/-! ## What a delete leaves -/

/-- No host row of any table is of the instance. -/
structure NothingLeft (tenantId : String) (i : Nat) (db : HostDb κ) : Prop where
  drafts : Free tenantId i db.drafts
  instructions : Free tenantId i db.instructions
  fileData : Free tenantId i db.fileData
  requests : Free tenantId i db.rows
  errors : Free tenantId i db.errors
  audits : Free tenantId i db.audits

/-- Every row of another instance is as it was, in the host's tables and in core's. -/
structure OthersKept (core : InstanceCore κ ρ) (tenantId : String) (i : Nat)
    (db db' : HostDb κ) : Prop where
  drafts : others tenantId i db'.drafts = others tenantId i db.drafts
  instructions : others tenantId i db'.instructions = others tenantId i db.instructions
  fileData : others tenantId i db'.fileData = others tenantId i db.fileData
  requests : others tenantId i db'.rows = others tenantId i db.rows
  errors : others tenantId i db'.errors = others tenantId i db.errors
  audits : others tenantId i db'.audits = others tenantId i db.audits
  core : ∀ j, j ≠ i → core.findInstance db'.core j = core.findInstance db.core j ∧
    core.rowsOf db'.core j = core.rowsOf db.core j

/-- A delete is clean: it leaves nothing of the instance, also in core, and all of the
others; or it is refused and changes nothing. -/
def Clean (core : InstanceCore κ ρ) (tenantId : String) (i : Nat) (db : HostDb κ) :
    Except Failure Nat × HostDb κ → Prop
  | (.ok _, db') => NothingLeft tenantId i db' ∧ OthersKept core tenantId i db db' ∧
      core.findInstance db'.core i = none ∧ core.rowsOf db'.core i = []
  | (.error _, db') => db' = db

/-- The other instances are kept whatever the tables hold. -/
theorem othersKept_withoutInstance {core : InstanceCore κ ρ} (hcascades : core.Cascades)
    (tenantId : String) (i : Nat) (db : HostDb κ) :
    OthersKept core tenantId i db (db.withoutInstance core tenantId i) where
  drafts := others_sqlDelete db.drafts
  instructions := others_sqlDelete db.instructions
  fileData := others_sqlDelete db.fileData
  requests := others_sqlDelete db.rows
  errors := rfl
  audits := rfl
  core := fun j hj => hcascades.other db.core i j hj

/-- The tables that the loop does not name decide whether anything is left. -/
theorem nothingLeft_withoutInstance_iff (core : InstanceCore κ ρ) (tenantId : String) (i : Nat)
    (db : HostDb κ) :
    NothingLeft tenantId i (db.withoutInstance core tenantId i) ↔
      Free tenantId i db.errors ∧ Free tenantId i db.audits := by
  constructor
  · intro h
    exact ⟨h.errors, h.audits⟩
  · intro h
    exact ⟨free_sqlDelete db.drafts, free_sqlDelete db.instructions, free_sqlDelete db.fileData,
      free_sqlDelete db.rows, h.1, h.2⟩

/-- A delete that goes through is clean exactly when neither table holds a row of the
instance. -/
theorem clean_iff {core : InstanceCore κ ρ} (hcascades : core.Cascades) (faults : Faults)
    (tenantId : String) (i : Nat) (db : HostDb κ) :
    Clean core tenantId i db (deleteProcessInstance core faults tenantId i db) ↔
      (Deletable core faults tenantId i db →
        Free tenantId i db.errors ∧ Free tenantId i db.audits) := by
  by_cases h : Deletable core faults tenantId i db
  · rw [delete_of_deletable h]
    constructor
    · intro hclean _
      exact (nothingLeft_withoutInstance_iff core tenantId i db).mp hclean.1
    · intro hfree
      exact ⟨(nothingLeft_withoutInstance_iff core tenantId i db).mpr (hfree h),
        othersKept_withoutInstance hcascades tenantId i db, hcascades.deleted db.core i,
        hcascades.rows_deleted db.core i⟩
  · obtain ⟨failure, hrun⟩ := delete_of_not_deletable h
    rw [hrun]
    exact ⟨fun _ hdeletable => absurd hdeletable h, fun _ => rfl⟩

/-! ## Requests -/

/-- A request over a session: what it left open is committed when it returns. -/
def HostDb.request {α : Type} (env : Env) (x : Tx κ α) (db : HostDb κ) : HostDb κ :=
  let run : Tx κ Unit := do
    let _ ← x
    commitAt env .final
  { db with toDb := (run (Session.start db.toDb)).2.committed }

/-- `start`: core commits the instance in a session of its own, then the links of its first
external-form tasks are made. -/
def start (env : Env) (core : InstanceCore κ ρ) (tenantId : String) (userId : Nat)
    (processModelIdentifier : String) (db : HostDb κ) : HostDb κ :=
  match core.initProcessInstance db.core tenantId userId processModelIdentifier with
  | (.error _, _) => db
  | (.ok i, tables) =>
      HostDb.request env (emitExternalFormRequests env core.toCore tenantId i)
        { db with core := tables }

/-- The context of a service task. -/
structure TaskContext where
  tenantId : String
  processInstanceId : Option Nat
  taskGuid : Option String

/-- An exception of a service task: whether it is a `ServiceTaskExecutionError`, the name
of its type, and its text. -/
structure TaskException where
  isServiceTaskExecutionError : Bool
  typeName : String
  text : String

/-- The message that `record_service_task_error` keeps. -/
def TaskException.message (exc : TaskException) : String :=
  clip errorMessageMaxLength
    (if exc.isServiceTaskExecutionError then
      if Text.strip exc.text.toList = [] then exc.typeName
      else String.ofList (Text.strip exc.text.toList)
    else "Service task failed (" ++ exc.typeName ++ ")")

/-- `record_service_task_error`, on a session of its own whose commit may fail. -/
def recordServiceTaskError (context : Option TaskContext) (exc : TaskException) (saved : Bool)
    (db : HostDb κ) : HostDb κ :=
  match context with
  | none => db
  | some context =>
      match context.processInstanceId with
      | none => db
      | some i =>
          if saved then
            { db with errors := db.errors ++ [⟨context.tenantId, i, context.taskGuid, exc.message⟩] }
          else db

/-- The next free id of a table with these ids. -/
def nextRowId (ids : List Nat) : Nat := ids.foldr max 0 + 1

/-- `save_draft`; a draft of the same task in another tenant stands in the way of the
unique constraint, and the commit fails. -/
def saveDraft (tenantId : String) (processInstanceId : Nat) (taskGuid payload : String)
    (db : HostDb κ) : HostDb κ :=
  let sameTask := fun row : TaskDraftData =>
    row.processInstanceId = processInstanceId ∧ row.taskGuid = taskGuid
  match db.drafts.find? fun row => sameTask row ∧ row.m8fTenantId = tenantId with
  | some found =>
      let saved := fun row : TaskDraftData => { row with savedFormData := some payload }
      { db with drafts := Table.updateAt TaskDraftData.id found.id saved db.drafts }
  | none =>
      if db.drafts.any fun row => sameTask row then db
      else
        let created : TaskDraftData :=
          ⟨nextRowId (db.drafts.map TaskDraftData.id), processInstanceId, taskGuid, some payload, tenantId⟩
        { db with drafts := db.drafts ++ [created] }

/-- `store_end_user_instructions`. -/
def storeEndUserInstructions (tenantId : String) (processInstanceId : Nat) (instruction : String)
    (db : HostDb κ) : HostDb κ :=
  let created : TaskInstructionsForEndUser :=
    ⟨nextRowId (db.instructions.map TaskInstructionsForEndUser.id), processInstanceId,
      instruction, tenantId⟩
  { db with instructions := db.instructions ++ [created] }

/-- The requests that write rows of an instance. -/
inductive Event where
  | start (env : Env) (tenantId : String) (userId : Nat) (processModelIdentifier : String)
  | complete (env : Env) (tenantId : String) (workItemId userId : Nat)
      (taskPayload : Option FormData)
  | submit (env : Env) (referenceId : String) (form : FormData)
  | recordServiceTaskError (context : Option TaskContext) (exc : TaskException) (saved : Bool)
  | saveDraft (tenantId : String) (processInstanceId : Nat) (taskGuid payload : String)
  | storeEndUserInstructions (tenantId : String) (processInstanceId : Nat) (instruction : String)
  | delete (faults : Faults) (tenantId : String) (processInstanceId : Nat)

/-- One request. -/
def step (core : InstanceCore κ ρ) (db : HostDb κ) : Event → Option (HostDb κ)
  | .start env tenantId userId processModelIdentifier =>
      some (start env core tenantId userId processModelIdentifier db)
  | .complete env tenantId workItemId userId taskPayload =>
      some (db.request env (complete env core.toCore tenantId workItemId userId taskPayload))
  | .submit env referenceId form =>
      some (db.request env (submit env core.toCore referenceId form))
  | .recordServiceTaskError context exc saved => some (recordServiceTaskError context exc saved db)
  | .saveDraft tenantId processInstanceId taskGuid payload =>
      some (saveDraft tenantId processInstanceId taskGuid payload db)
  | .storeEndUserInstructions tenantId processInstanceId instruction =>
      some (storeEndUserInstructions tenantId processInstanceId instruction db)
  | .delete faults tenantId processInstanceId =>
      some (deleteProcessInstance core faults tenantId processInstanceId db).2

/-- Empty host tables over core's. -/
def HostDb.empty (tables : κ) : HostDb κ where
  core := tables
  rows := []
  errors := []
  drafts := []
  instructions := []
  fileData := []
  audits := []

section Runs

variable {core : InstanceCore κ ρ}

/-- No request writes the audit trail, which belongs to the NATS worker. -/
theorem audits_step {db db' : HostDb κ} {e : Event} (hstep : step core db e = some db') :
    db'.audits = db.audits := by
  cases e with
  | start env tenantId userId model =>
      cases hstep
      unfold start
      rcases core.initProcessInstance db.core tenantId userId model with ⟨result, tables⟩
      cases result with
      | error failure => rfl
      | ok i => rfl
  | complete env tenantId workItemId userId payload =>
      cases hstep
      rfl
  | submit env referenceId form =>
      cases hstep
      rfl
  | recordServiceTaskError context exc saved =>
      cases hstep
      unfold recordServiceTaskError
      cases context with
      | none => rfl
      | some context =>
          obtain ⟨tenantId, instanceId, guid⟩ := context
          cases instanceId with
          | none => rfl
          | some i => cases saved <;> rfl
  | saveDraft tenantId i guid payload =>
      cases hstep
      unfold saveDraft
      dsimp only
      split
      · rfl
      · split
        · rfl
        · rfl
  | storeEndUserInstructions tenantId i instruction =>
      cases hstep
      rfl
  | delete faults tenantId i =>
      cases hstep
      by_cases h : Deletable core faults tenantId i db
      · rw [delete_of_deletable h]
        rfl
      · obtain ⟨failure, hrun⟩ := delete_of_not_deletable h
        rw [hrun]

/-- After every run of requests a delete is clean exactly when it is refused or no error of
the instance was recorded.  A start by the NATS worker, with its row of the audit trail, is no
event of these runs: the trail is empty in them, and `clean_iff` says what its rows come to. -/
theorem deleted_iff (hcascades : core.Cascades) {tables : κ} {events : List Event}
    {db : HostDb κ} (hrun : Run (step core) (fun _ _ => True) (HostDb.empty tables) events db)
    (faults : Faults) (tenantId : String) (i : Nat) :
    Clean core tenantId i db (deleteProcessInstance core faults tenantId i db) ↔
      (Deletable core faults tenantId i db → Free tenantId i db.errors) := by
  have haudits : db.audits = [] := by
    have hkept : db.audits = (HostDb.empty tables).audits :=
      hrun.invariant (P := fun s => s.audits = (HostDb.empty tables).audits) rfl
        fun s e s' hs _ hstep => (audits_step hstep).trans hs
    exact hkept
  rw [clean_iff hcascades]
  constructor
  · intro h hdeletable
    exact (h hdeletable).1
  · intro h hdeletable
    refine ⟨h hdeletable, ?_⟩
    rw [haudits]
    intro row hrow
    cases hrow

end Runs

/-! ## A failed service task -/

/-- A core whose tables are its instances, each of which fails at its start. -/
def failingCore : InstanceCore (List (Nat × CoreInstance)) CoreInstance where
  workItems := fun _ => []
  readyTasks := fun _ _ _ => []
  suspended := fun _ _ => false
  userIds := fun _ => []
  taskData := fun _ _ _ => []
  hasCompletedEvent := fun _ _ _ _ => false
  flushes := true
  claimTask := fun tables _ _ _ => (.error (.core .notFound "no such work item"), tables)
  completeTask := fun tables _ _ _ _ => (.error (.core .notFound "no such work item"), tables)
  recordEvent := fun tables _ _ _ _ _ => (.ok (), tables)
  errorInstance := fun tables _ _ _ => (.ok (), tables)
  findInstance := fun tables i => (tables.find? fun entry => entry.1 = i).map Prod.snd
  rowsOf := fun tables i => (tables.filter fun entry => entry.1 = i).map Prod.snd
  initProcessInstance := fun tables tenantId _ _ =>
    (.ok (nextRowId (tables.map Prod.fst)),
      tables ++ [(nextRowId (tables.map Prod.fst), ⟨tenantId, "error"⟩)])
  deleteInstance := fun tables i => tables.filter fun entry => entry.1 ≠ i

theorem failingCore_cascades : failingCore.Cascades where
  deleted := by
    intro tables i
    have hnone :
        (tables.filter fun entry => entry.1 ≠ i).find? (fun entry => entry.1 = i) = none := by
      rw [List.find?_eq_none]
      intro entry hentry
      simpa using (List.mem_filter.mp hentry).2
    simp only [failingCore, hnone, Option.map_none]
  rows_deleted := by
    intro tables i
    have hnil :
        (tables.filter fun entry => entry.1 ≠ i).filter (fun entry => entry.1 = i) = [] := by
      rw [List.filter_eq_nil_iff]
      intro entry hentry
      simpa using (List.mem_filter.mp hentry).2
    simp only [failingCore, hnil, List.map_nil]
  other := by
    intro tables i j hj
    have hsame : ∀ entry : Nat × CoreInstance,
        (decide (entry.1 = j) && decide (entry.1 ≠ i)) = decide (entry.1 = j) := by
      intro entry
      by_cases hentry : entry.1 = j
      · simp [hentry, hj]
      · simp [hentry]
    constructor
    · simp only [failingCore, List.find?_filter]
      congr 2
      funext entry
      by_cases hentry : entry.1 = j
      · simp [hentry, hj]
      · simp [hentry]
    · simp only [failingCore, List.filter_filter, hsame]

/-- A quiet outside world. -/
def quietEnv : Env where
  now := 50
  ttl := 3600
  newReferenceId := fun id => "new-" ++ toString id
  redactBounded := id
  stringify := fun _ => []
  commitFails := fun _ => none

/-- An instance is started; its first service task fails, and the failure is recorded. -/
def failedStart (context : Option TaskContext) : List Event :=
  [.start quietEnv "t" 1 "orders",
    .recordServiceTaskError context ⟨true, "ServiceTaskExecutionError", "no answer"⟩ true]

/-- The tables after `failedStart`. -/
def failedTables (errors : List InstanceError) : HostDb (List (Nat × CoreInstance)) :=
  { HostDb.empty [(1, ⟨"t", "error"⟩)] with errors := errors }

/-- Nothing goes wrong during the delete. -/
def noFaults : Faults := ⟨none, none⟩

theorem deletable_failed (errors : List InstanceError) :
    Deletable failingCore noFaults "t" 1 (failedTables errors) :=
  ⟨⟨⟨"t", "error"⟩, rfl, rfl, by decide⟩, rfl, rfl⟩

/-- Without a context no error is recorded, and the delete is clean. -/
theorem deleted_without_errors :
    Run (step failingCore) (fun _ _ => True) (HostDb.empty []) (failedStart none)
      (failedTables []) ∧
    Clean failingCore "t" 1 (failedTables [])
      (deleteProcessInstance failingCore noFaults "t" 1 (failedTables [])) := by
  have hrun : Run (step failingCore) (fun _ _ => True) (HostDb.empty []) (failedStart none)
      (failedTables []) :=
    Run.cons trivial rfl (Run.cons trivial rfl (Run.nil _))
  refine ⟨hrun, (deleted_iff failingCore_cascades hrun noFaults "t" 1).mpr ?_⟩
  intro _ row hrow
  cases hrow

/-- The recorded error of a service task stays when its instance is deleted. -/
theorem service_task_error_stays :
    Run (step failingCore) (fun _ _ => True) (HostDb.empty [])
      (failedStart (some ⟨"t", some 1, some "g"⟩))
      (failedTables [⟨"t", 1, some "g", "no answer"⟩]) ∧
    ¬ Clean failingCore "t" 1 (failedTables [⟨"t", 1, some "g", "no answer"⟩])
      (deleteProcessInstance failingCore noFaults "t" 1
        (failedTables [⟨"t", 1, some "g", "no answer"⟩])) := by
  refine ⟨Run.cons trivial rfl (Run.cons trivial rfl (Run.nil _)), ?_⟩
  rw [delete_of_deletable (deletable_failed _)]
  intro hclean
  have hfree := hclean.1.errors ⟨"t", 1, some "g", "no answer"⟩ (List.mem_singleton.mpr rfl)
  exact absurd hfree (by decide)

end M8flow.Workflow.Deletion
