import M8flow.ExternalForm.Request
import M8flow.Lib.Run

/-!
# Concurrent sessions over the request rows

Every caller of the external-form services works in a database session of its
own, and what the sessions share is the committed table.  This module models the
table, the row locks and what each session still has to write, and the events
that sessions take in any order:

- `submit` as the steps between its commits and its rollbacks, since the row
  lock is gone after each of them;
- the guarded updates of the notification service, one atomic statement each;
- `reissue`, which holds the row lock from its read to its commit;
- `cancel_open_requests`, which locks its rows until the caller commits;
- the public link lookup and `notify`, which read a row without a lock and then
  expire or retire it by primary key.

An event is not enabled while another session holds the lock of a row that it
has to lock or write.  `expire_on_commit` and `autoflush` are off in the host, so
an object keeps what its session read until a rollback expires it.
-/

namespace M8flow.ExternalForm

open M8flow.Lib

/-- What a session has read or decided and not yet written. -/
inductive Phase where
  | idle
  /-- `submit` holds the row lock and runs the completion. -/
  | submitting (id : Nat) (form : FormData)
  /-- The completion committed on the way, `submitted` with it; the lock is gone. -/
  | submitCommitted (id : Nat) (form : FormData)
  /-- The open siblings are read and are still to be written. -/
  | superseding (id : Nat) (form : FormData) (siblings : List Nat) (locked : Bool)
  /-- `_record_failure` rolled back and has the row still to write. -/
  | failing (id : Nat) (reason : Text)
  /-- The `invalid_state` branch rolled back and has the row still to write. -/
  | alreadyDone (id : Nat) (form : FormData)
  /-- `cancel_open_requests` updated its rows and the caller has not committed. -/
  | cancelling (ids : List Nat)
  /-- A row read without a lock. -/
  | reading (row : Request)
  deriving Repr

/-- The rows whose lock a phase holds. -/
def Phase.holds : Phase → List Nat
  | .submitting id _ => [id]
  | .superseding id _ _ locked => if locked then [id] else []
  | .cancelling ids => ids
  | _ => []

/-- The committed rows, the row locks, and the phase of each session. -/
structure State where
  rows : List Request
  lockedBy : Nat → Option Nat
  phase : Nat → Phase

/-- The committed row of an id. -/
def State.row (s : State) (id : Nat) : Option Request := Table.lookup Request.id s.rows id

/-- The committed status of a row. -/
def State.statusOf (s : State) (id : Nat) : Option Status := (s.row id).map Request.status

/-- No session has started. -/
def State.start (rows : List Request) : State where
  rows := rows
  lockedBy := fun _ => none
  phase := fun _ => .idle

/-- No other session holds the lock of the row. -/
def State.free (s : State) (sid id : Nat) : Bool :=
  s.lockedBy id = none ∨ s.lockedBy id = some sid

/-- Session `sid` drops its locks and enters `phase`, which takes its own. -/
def State.enter (s : State) (sid : Nat) (phase : Phase) : State where
  rows := s.rows
  lockedBy := fun id =>
    if id ∈ phase.holds then some sid
    else if s.lockedBy id = some sid then none
    else s.lockedBy id
  phase := fun other => if other = sid then phase else s.phase other

/-- Session `sid` commits a rewrite of the rows that meet `cond` and enters
`phase`; the statement waits while another session holds one of those rows. -/
def State.commit (s : State) (sid : Nat) (cond : Request → Bool)
    (f : Request → Request) (phase : Phase) : Option State :=
  if s.rows.all (fun row => !cond row || s.free sid row.id) then
    some { s.enter sid phase with rows := Table.updateWhere cond f s.rows }
  else none

/-- `commit` of one row by primary key. -/
def State.commitRow (s : State) (sid id : Nat) (f : Request → Request)
    (phase : Phase) : Option State :=
  s.commit sid (fun row => row.id = id) f phase

/-- The ids that `_supersede_siblings` reads for a row: open, of the same task. -/
def State.siblingIds (s : State) (id : Nat) : List Nat :=
  match s.row id with
  | none => []
  | some row => (s.rows.filter row.isOpenSibling).map Request.id

/-! ## Events -/

/-- One committed transaction, or one step of `submit` between its commits. -/
inductive Event where
  | create (row : Request)
  | submit (sid : Nat) (referenceId : String) (form : FormData) (now : Int)
      (workItem : Option WorkItem) (recipientFound : Bool)
  | completeCommits (sid : Nat)
  | completeFails (sid : Nat) (reason : Text)
  | completeInvalidState (sid : Nat)
  | readSiblings (sid : Nat)
  | finish (sid : Nat)
  | recordFailure (sid : Nat)
  | recordAlreadyDone (sid : Nat)
  | reissue (sid id : Nat) (tenantId referenceId : String) (now ttl : Int)
      (workItem : Option WorkItem)
  | claim (sid id : Nat) (now ttl : Int)
  | markSent (sid id : Nat)
  | releaseFailed (sid id : Nat) (reason : Text)
  | markSmtpUnconfigured (sid : Nat) (ids : List Nat) (now : Int) (reason : Text)
  | reviveSmtpUnconfigured (sid : Nat) (tenantId : String)
  | cancelOpenRequests (sid : Nat) (tenantId : String) (processInstanceId : Nat)
  | commitCancel (sid : Nat)
  | read (sid id : Nat)
  | expireRead (sid : Nat) (now : Int)
  | retireRead (sid : Nat) (workItem : Option WorkItem)
  /-- The session rolls back: a refusal, a failed commit, a crash. -/
  | abort (sid : Nat)

/-- `submit` up to the start of the completion. -/
def stepSubmit (s : State) (sid : Nat) (referenceId : String) (form : FormData) (now : Int)
    (workItem : Option WorkItem) (recipientFound : Bool) : Option State :=
  match s.rows.find? fun row => row.referenceId = referenceId with
  | none => some s
  | some row =>
      if s.free sid row.id then
        match (checkLink now row).2 with
        | .error _ => s.commitRow sid row.id (fun row => (checkLink now row).1) .idle
        | .ok () =>
            if (cancelIfTaskClosed workItem row).status = .cancelled then
              s.commitRow sid row.id (cancelIfTaskClosed workItem) .idle
            else if recipientFound then some (s.enter sid (.submitting row.id form))
            else some (s.enter sid (.failing row.id "Recipient user no longer exists.".toList))
      else none

/-- One event. -/
def step (s : State) : Event → Option State
  | .create row =>
      if s.row row.id = none ∧ row.status = .pending then
        some { s with rows := s.rows ++ [row] }
      else none
  | .submit sid referenceId form now workItem recipientFound =>
      match s.phase sid with
      | .idle => stepSubmit s sid referenceId form now workItem recipientFound
      | _ => none
  | .completeCommits sid =>
      match s.phase sid with
      | .submitting id form =>
          s.commitRow sid id (submittedRow form) (.submitCommitted id form)
      | _ => none
  | .completeFails sid reason =>
      match s.phase sid with
      | .submitting id _ => some (s.enter sid (.failing id reason))
      | .submitCommitted id _ => some (s.enter sid (.failing id reason))
      | _ => none
  | .completeInvalidState sid =>
      match s.phase sid with
      | .submitting id form => some (s.enter sid (.alreadyDone id form))
      | _ => none
  | .readSiblings sid =>
      match s.phase sid with
      | .submitting id form =>
          some (s.enter sid (.superseding id form (s.siblingIds id) true))
      | .submitCommitted id form =>
          some (s.enter sid (.superseding id form (s.siblingIds id) false))
      | _ => none
  | .finish sid =>
      match s.phase sid with
      | .superseding id form siblings locked =>
          s.commit sid (fun row => row.id = id ∨ row.id ∈ siblings)
            (fun row =>
              if row.id ≠ id then supersededRow row
              else if locked then completedRow form row
              else { row with status := .completed }) .idle
      | _ => none
  | .recordFailure sid =>
      match s.phase sid with
      | .failing id reason => s.commitRow sid id (failedRow reason) .idle
      | _ => none
  | .recordAlreadyDone sid =>
      match s.phase sid with
      | .alreadyDone id form => s.commitRow sid id (completedRow form) .idle
      | _ => none
  | .reissue sid id tenantId referenceId now ttl workItem =>
      match s.phase sid with
      | .idle =>
          s.commit sid (fun row => row.id = id ∧ row.m8fTenantId = tenantId)
            (fun row => (reissueRow now ttl referenceId workItem row).1) .idle
      | _ => none
  | .claim sid id now ttl =>
      match s.phase sid with
      | .idle =>
          s.commit sid (fun row => row.id = id ∧ claimable now row) (claimRow now ttl) .idle
      | _ => none
  | .markSent sid id =>
      match s.phase sid with
      | .idle =>
          s.commit sid (fun row => row.id = id ∧ row.status = .sending) markSentRow .idle
      | _ => none
  | .releaseFailed sid id reason =>
      match s.phase sid with
      | .idle =>
          s.commit sid (fun row => row.id = id ∧ row.status = .sending)
            (releaseFailedRow reason) .idle
      | _ => none
  | .markSmtpUnconfigured sid ids now reason =>
      match s.phase sid with
      | .idle =>
          s.commit sid (fun row => row.id ∈ ids ∧ claimable now row) (parkRow reason) .idle
      | _ => none
  | .reviveSmtpUnconfigured sid tenantId =>
      match s.phase sid with
      | .idle =>
          s.commit sid (fun row => row.status = .smtpUnconfigured ∧ row.m8fTenantId = tenantId)
            reviveRow .idle
      | _ => none
  | .cancelOpenRequests sid tenantId processInstanceId =>
      match s.phase sid with
      | .idle =>
          let ids := (s.rows.filter fun row => row.m8fTenantId = tenantId ∧
            row.processInstanceId = processInstanceId ∧ row.isOpen).map Request.id
          if ids.all (s.free sid) then some (s.enter sid (.cancelling ids)) else none
      | _ => none
  | .commitCancel sid =>
      match s.phase sid with
      | .cancelling ids => s.commit sid (fun row => row.id ∈ ids) retire .idle
      | _ => none
  | .read sid id =>
      match s.phase sid, s.row id with
      | .idle, some row => some (s.enter sid (.reading row))
      | _, _ => none
  | .expireRead sid now =>
      match s.phase sid with
      | .reading row =>
          if (expireIfNeeded now row).status = row.status then some s
          else s.commitRow sid row.id (fun row => { row with status := .expired }) .idle
      | _ => none
  | .retireRead sid workItem =>
      match s.phase sid with
      | .reading row =>
          if (cancelIfTaskClosed workItem row).status = row.status then some s
          else s.commitRow sid row.id retire .idle
      | _ => none
  | .abort sid => some (s.enter sid .idle)

end M8flow.ExternalForm
