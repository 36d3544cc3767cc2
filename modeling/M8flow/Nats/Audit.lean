import M8flow.Lib.Run
import M8flow.Lib.Table
import M8flow.Lib.Text

/-!
# The NATS event audit trail

`services/nats_event_audit_service.py` over the table of
`models/nats_event_audit.py`.  Each call is a transaction: it looks a row up, the
session flushes the columns it changed, and the transaction commits or fails.
Any number of writers interleave these three steps.

The database isolates at READ COMMITTED: a lookup sees what is committed, an
`UPDATE` waits for a row that another transaction has updated and then applies to
its newest version, and an `INSERT` waits for one of the same unique key.
`commit=False` changes only who commits, and when.
-/

namespace M8flow.Nats.Audit

open M8flow.Lib

/-- `NatsEventWorker`. -/
inductive Worker where
  | consumer
  | notificationWorker
  | manual
  deriving Repr, DecidableEq

/-- `NatsEventOutcome`. -/
inductive Outcome where
  | queued
  | instantiated
  | duplicate
  | invalidPayload
  | rejectedAuth
  | rejectedStale
  | rejectedScope
  | tenantMismatch
  | userNotFound
  | modelNotFound
  | transientError
  deriving Repr, DecidableEq

/-- `UNATTRIBUTED_TENANT_ID`. -/
def unattributedTenantId : Text := "__unattributed__".toList

/-- The columns of the unique constraint. -/
structure Key where
  tenantId : Option Text
  eventId : Option Text
  worker : Worker
  deriving Repr, DecidableEq

/-- The constraint applies to the key: a `NULL` compares as distinct. -/
def Key.constrained (key : Key) : Bool := key.tenantId.isSome && key.eventId.isSome

/-- `NatsEventAuditModel`. -/
structure Row where
  id : Nat
  key : Key
  streamSeq : Option Nat
  processIdentifier : Option Text
  username : Option Text
  outcome : Outcome
  duplicateCount : Nat
  errorMessage : Option Text
  processInstanceId : Option Int
  completedAt : Option Int
  deriving Repr, DecidableEq

/-- A row with the defaults of its columns.  Its id is given at the commit. -/
def Row.blank (key : Key) (outcome : Outcome) : Row where
  id := 0
  key := key
  streamSeq := none
  processIdentifier := none
  username := none
  outcome := outcome
  duplicateCount := 0
  errorMessage := none
  processInstanceId := none
  completedAt := none

/-! ## The calls -/

/-- `MAX_ERROR_MESSAGE_LENGTH`. -/
def maxErrorMessageLength : Nat := 2000

/-- `_truncate`. -/
def truncate (message : Option Text) : Option Text :=
  message.map fun text =>
    if text.length ≤ maxErrorMessageLength then text
    else text.take (maxErrorMessageLength - 3) ++ "...".toList

/-- `_may_overwrite`. -/
def mayOverwrite (current incoming : Outcome) : Bool :=
  if current = incoming then true
  else if current = .instantiated then false
  else incoming ≠ .queued

/-- What every call says about its message. -/
structure Message where
  tenantId : Option Text
  eventId : Option Text
  worker : Worker
  processIdentifier : Option Text
  username : Option Text
  deriving Repr, DecidableEq

/-- The key a message is stored under: `tenant_id or UNATTRIBUTED_TENANT_ID`. -/
def Message.key (m : Message) : Key where
  tenantId := some ((truthy m.tenantId).getD unattributedTenantId)
  eventId := m.eventId
  worker := m.worker

/-- The further arguments of `record_outcome`; `now` is the clock. -/
structure OutcomeArgs where
  outcome : Outcome
  errorMessage : Option Text
  processInstanceId : Option Int
  streamSeq : Option Nat
  completedAt : Option Int
  insertOnly : Bool
  now : Int
  deriving Repr, DecidableEq

/-- The calls of the service. -/
inductive Call where
  | recordQueued (m : Message)
  | recordOutcome (m : Message) (args : OutcomeArgs)
  | recordDuplicate (m : Message) (streamSeq : Option Nat) (now : Int)
  deriving Repr, DecidableEq

/-- The message of a call. -/
def Call.message : Call → Message
  | .recordQueued m | .recordOutcome m _ | .recordDuplicate m _ _ => m

/-- `_find`.  A key that the constraint applies to has one row at most, so the order by id
decides nothing. -/
def find (rows : List Row) (key : Key) : Option Row :=
  match truthy key.eventId with
  | none => none
  | some _ => rows.find? fun row => row.key = key

/-- The row that a call works on. -/
def Call.lookup (rows : List Row) : Call → Option Row
  | .recordOutcome m args => if args.insertOnly then none else find rows m.key
  | .recordQueued m => find rows m.key
  | .recordDuplicate m _ _ => find rows m.key

/-- The assignments of `_apply_outcome`. -/
def OutcomeArgs.assign (args : OutcomeArgs) (m : Message) (row : Row) : Row :=
  { row with
    outcome := args.outcome
    errorMessage := truncate args.errorMessage
    processInstanceId := args.processInstanceId.or row.processInstanceId
    streamSeq := args.streamSeq.or row.streamSeq
    processIdentifier := m.processIdentifier.or row.processIdentifier
    username := m.username.or row.username
    completedAt := some ((args.completedAt.filter fun t => t ≠ 0).getD args.now) }

/-- What a session has to write. -/
inductive Write where
  | nothing
  | insert (row : Row)
  /-- The row as it was loaded, and as it was assigned. -/
  | update (loaded new : Row)
  deriving Repr, DecidableEq

/-- What a call leaves in its session, given the row it found. -/
def Call.write : Call → Option Row → Write
  | .recordQueued _, some _ => .nothing
  | .recordQueued m, none =>
      .insert { Row.blank m.key .queued with
        processIdentifier := m.processIdentifier
        username := m.username }
  | .recordOutcome m args, none => .insert (args.assign m (Row.blank m.key args.outcome))
  | .recordOutcome m args, some row =>
      if mayOverwrite row.outcome args.outcome then .update row (args.assign m row) else .nothing
  | .recordDuplicate m streamSeq now, none =>
      .insert { Row.blank m.key .duplicate with
        duplicateCount := 1
        streamSeq := streamSeq
        processIdentifier := m.processIdentifier
        username := m.username
        completedAt := some now }
  | .recordDuplicate _ _ _, some row =>
      .update row { row with duplicateCount := row.duplicateCount + 1 }

/-! ## Transactions -/

/-- An `UPDATE` sets a column that was assigned another value than it was loaded with. -/
def setColumn {α : Type*} [DecidableEq α] (loaded new current : α) : α :=
  if new = loaded then current else new

/-- The `UPDATE` that a flush issues, applied to the newest version of the row. -/
def Row.set (loaded new current : Row) : Row where
  id := current.id
  key := setColumn loaded.key new.key current.key
  streamSeq := setColumn loaded.streamSeq new.streamSeq current.streamSeq
  processIdentifier :=
    setColumn loaded.processIdentifier new.processIdentifier current.processIdentifier
  username := setColumn loaded.username new.username current.username
  outcome := setColumn loaded.outcome new.outcome current.outcome
  duplicateCount := setColumn loaded.duplicateCount new.duplicateCount current.duplicateCount
  errorMessage := setColumn loaded.errorMessage new.errorMessage current.errorMessage
  processInstanceId :=
    setColumn loaded.processInstanceId new.processInstanceId current.processInstanceId
  completedAt := setColumn loaded.completedAt new.completedAt current.completedAt

/-- Where one writer stands. -/
inductive Phase where
  | idle
  | looked (call : Call) (found : Option Row)
  /-- The statements are issued, and their locks are held. -/
  | written (call : Call) (write : Write)
  deriving Repr, DecidableEq

/-- The id of the row that a transaction holds the lock of. -/
def Phase.lockedId : Phase → Option Nat
  | .written _ (.update loaded _) => some loaded.id
  | _ => none

/-- The unique key that a transaction has inserted. -/
def Phase.insertedKey : Phase → Option Key
  | .written _ (.insert row) => if row.key.constrained then some row.key else none
  | _ => none

/-- The committed rows, the keys of the duplicates that were recorded so far, and the
phases of `n` writers. -/
structure State (n : Nat) where
  rows : List Row
  nextId : Nat
  recorded : List Key
  phase : Fin n → Phase

variable {n : Nat}

/-- An empty table, every writer idle. -/
def State.start (n : Nat) : State n where
  rows := []
  nextId := 0
  recorded := []
  phase := fun _ => .idle

/-- Writer `c` moves to `phase`. -/
def State.set (s : State n) (c : Fin n) (phase : Phase) : State n :=
  { s with phase := fun other => if other = c then phase else s.phase other }

/-- The committed row with an id. -/
def State.row (s : State n) (id : Nat) : Option Row := Table.lookup Row.id s.rows id

/-- The call has returned without an error: a duplicate counts as recorded. -/
def State.done (s : State n) (c : Fin n) (call : Call) : State n :=
  { s.set c .idle with
    recorded :=
      match call with
      | .recordDuplicate m _ _ => m.key :: s.recorded
      | _ => s.recorded }

/-- The committed table after a write. -/
def State.apply (s : State n) : Write → State n
  | .nothing => s
  | .insert row => { s with rows := { row with id := s.nextId } :: s.rows, nextId := s.nextId + 1 }
  | .update loaded new =>
      { s with rows := Table.updateAt Row.id loaded.id (Row.set loaded new) s.rows }

/-- The steps of a writer. -/
inductive Event (n : Nat) where
  | look (c : Fin n) (call : Call)
  | flush (c : Fin n)
  | commit (c : Fin n)
  /-- A database error, or a rollback by the transaction that was joined. -/
  | fail (c : Fin n)
  deriving Repr, DecidableEq

/-- One step of one writer. -/
def step (s : State n) : Event n → Option (State n)
  | .look c call =>
      match s.phase c with
      | .idle => some (s.set c (.looked call (call.lookup s.rows)))
      | _ => none
  | .flush c =>
      match s.phase c with
      | .looked call found =>
          match call.write found with
          | .nothing => some (s.set c (.written call .nothing))
          | .insert row =>
              if ∃ other, (s.phase other).insertedKey = some row.key then none
              else if ∃ old ∈ s.rows, row.key.constrained ∧ old.key = row.key then
                -- the `IntegrityError` of the insert is swallowed
                some (s.done c call)
              else some (s.set c (.written call (.insert row)))
          | .update loaded new =>
              if new = loaded then some (s.set c (.written call .nothing))
              else if ∃ other, (s.phase other).lockedId = some loaded.id then none
              else some (s.set c (.written call (.update loaded new)))
      | _ => none
  | .commit c =>
      match s.phase c with
      | .written call write => some ((s.apply write).done c call)
      | _ => none
  | .fail c =>
      match s.phase c with
      | .idle => none
      | _ => some (s.set c .idle)

/-! ## What a step leaves alone -/

@[simp] theorem set_rows (s : State n) (c : Fin n) (phase : Phase) :
    (s.set c phase).rows = s.rows := rfl

@[simp] theorem set_recorded (s : State n) (c : Fin n) (phase : Phase) :
    (s.set c phase).recorded = s.recorded := rfl

@[simp] theorem set_nextId (s : State n) (c : Fin n) (phase : Phase) :
    (s.set c phase).nextId = s.nextId := rfl

@[simp] theorem set_self (s : State n) (c : Fin n) (phase : Phase) :
    (s.set c phase).phase c = phase := by
  simp [State.set]

theorem set_ne (s : State n) {c other : Fin n} (phase : Phase) (h : other ≠ c) :
    (s.set c phase).phase other = s.phase other := by
  simp [State.set, h]

@[simp] theorem done_rows (s : State n) (c : Fin n) (call : Call) :
    (s.done c call).rows = s.rows := rfl

@[simp] theorem done_nextId (s : State n) (c : Fin n) (call : Call) :
    (s.done c call).nextId = s.nextId := rfl

@[simp] theorem done_phase (s : State n) (c : Fin n) (call : Call) :
    (s.done c call).phase = (s.set c .idle).phase := rfl

@[simp] theorem apply_phase (s : State n) (write : Write) : (s.apply write).phase = s.phase := by
  cases write <;> rfl

@[simp] theorem apply_recorded (s : State n) (write : Write) :
    (s.apply write).recorded = s.recorded := by
  cases write <;> rfl

@[simp] theorem setColumn_self {α : Type*} [DecidableEq α] (loaded current : α) :
    setColumn loaded loaded current = current :=
  if_pos rfl

/-! ## What a call writes -/

/-- A call updates only the row it found, and keeps its id and its key. -/
theorem write_update {call : Call} {found : Option Row} {loaded new : Row}
    (h : call.write found = .update loaded new) :
    found = some loaded ∧ new.id = loaded.id ∧ new.key = loaded.key := by
  cases call with
  | recordQueued m => cases found <;> cases h
  | recordOutcome m args =>
      cases found with
      | none => cases h
      | some row =>
          simp only [Call.write] at h
          split at h
          · cases h
            exact ⟨rfl, rfl, rfl⟩
          · cases h
  | recordDuplicate m streamSeq now =>
      cases found with
      | none => cases h
      | some row =>
          cases h
          exact ⟨rfl, rfl, rfl⟩

/-- A call inserts a row under the key of its message. -/
theorem write_insert {call : Call} {found : Option Row} {row : Row}
    (h : call.write found = .insert row) : found = none ∧ row.key = call.message.key := by
  cases call with
  | recordQueued m =>
      cases found with
      | none =>
          cases h
          exact ⟨rfl, rfl⟩
      | some found => cases h
  | recordOutcome m args =>
      cases found with
      | none =>
          cases h
          exact ⟨rfl, rfl⟩
      | some found =>
          simp only [Call.write] at h
          split at h <;> cases h
  | recordDuplicate m streamSeq now =>
      cases found with
      | none =>
          cases h
          exact ⟨rfl, rfl⟩
      | some found => cases h

/-- A lookup finds a row of the table under the key of the message, which the constraint
applies to. -/
theorem lookup_eq_some {rows : List Row} {call : Call} {row : Row}
    (h : call.lookup rows = some row) :
    row ∈ rows ∧ row.key = call.message.key ∧ row.key.constrained := by
  have hfind : find rows call.message.key = some row := by
    cases call with
    | recordQueued m => exact h
    | recordOutcome m args =>
        simp only [Call.lookup] at h
        split at h
        · cases h
        · exact h
    | recordDuplicate m streamSeq now => exact h
  unfold find at hfind
  split at hfind
  · cases hfind
  · rename_i eventId hevent
    have hkey : row.key = call.message.key := by simpa using List.find?_some hfind
    refine ⟨List.mem_of_find?_eq_some hfind, hkey, ?_⟩
    rw [hkey, Key.constrained, (truthy_eq_some.mp hevent).1]
    rfl

end M8flow.Nats.Audit
