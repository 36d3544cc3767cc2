import M8flow.Lib.Json
import M8flow.Lib.Table

/-!
# The recorder of Celery task history

`services/celery_task_history_service.py`: the worker's task signals each upsert
one row of `m8flow_celery_task`.  A row has its state and its retry count, which
are never null, and the other columns.  A value that is `None` is left out of an
upsert, so the values of an upsert are optional throughout.

`redactBounded` is `redact_bounded` of the NATS monitoring service and `now` is
the clock of the process; what they return is not looked at here.
-/

namespace M8flow.Celery

open M8flow.Lib M8flow.Lib.Table

/-- `CeleryTaskState`. -/
inductive CeleryTaskState where
  | received | started | success | failure | retry | revoked
  deriving DecidableEq, Repr

/-- What the `state` column holds: one of the states, or another name that Celery
passes to the postrun signal (`IGNORED`, `REJECTED`). -/
inductive State where
  | known (state : CeleryTaskState)
  | other (name : String)
  deriving DecidableEq, Repr

/-- `FINISHED_STATES`. -/
def finishedStates : List State := [.known .success, .known .failure, .known .revoked]

/-- `_KEEP_EXISTING`: the states that are not overwritten by this one. -/
def keepExisting : State → Option (List State)
  | .known .received => some (.known .started :: finishedStates)
  | .known .started => some finishedStates
  | .known .retry => some finishedStates
  | _ => none

/-- The columns that can be null, and `updated_at`. -/
inductive Column where
  | name | worker | queue | tenantId | args | kwargs | result | exception | traceback
  | eta | expires | parentId | rootId | receivedAt | startedAt | finishedAt
  | runtimeSeconds | updatedAt
  deriving DecidableEq, Repr

/-- The content of such a column. -/
inductive Cell where
  | text (value : Text)
  | time (value : Nat)
  | seconds (value : Nat)
  deriving DecidableEq, Repr

/-- A row of `m8flow_celery_task`. -/
structure TaskRow where
  taskId : Text
  state : State
  retries : Int
  cells : Column → Option Cell

/-- The values of one upsert, without those that are `None`. -/
structure Values where
  state : Option State := none
  retries : Option Int := none
  cells : Column → Option Cell := fun _ => none

/-- The named cells of an upsert. -/
def cellsOf (entries : List (Column × Option Cell)) (column : Column) : Option Cell :=
  (entries.find? fun entry => entry.1 = column).bind Prod.snd

/-! ## The upsert -/

/-- `values["updated_at"] = _now()`. -/
def Values.stamped (now : Nat) (values : Values) : Values :=
  { values with
    cells := fun column => if column = .updatedAt then some (.time now) else values.cells column }

/-- `_KEEP_EXISTING.get(values.get("state", ""))`. -/
def Values.keep (values : Values) : Option (List State) := values.state.bind keepExisting

/-- The row that the values insert: a first write that is not "received" still needs a
state. -/
def inserted (taskId : Text) (values : Values) : TaskRow :=
  { taskId
    state := values.state.getD (.known .started)
    retries := values.retries.getD 0
    cells := values.cells }

/-- The state is one that the write keeps. -/
def keeps (keep : Option (List State)) (state : State) : Bool :=
  match keep with
  | none => false
  | some states => states.contains state

/-- `ON CONFLICT DO UPDATE SET`, for every column among the values. -/
def onConflict (keep : Option (List State)) (values : Values) (excluded row : TaskRow) :
    TaskRow :=
  { row with
    state :=
      if values.state.isSome then
        if keeps keep row.state then row.state else excluded.state
      else row.state
    retries := if values.retries.isSome then excluded.retries else row.retries
    cells := fun column =>
      if (values.cells column).isSome then excluded.cells column else row.cells column }

/-- `setattr` of every value on the row, in `_upsert_portable`. -/
def assign (values : Values) (row : TaskRow) : TaskRow :=
  { row with
    state := values.state.getD row.state
    retries := values.retries.getD row.retries
    cells := fun column => (values.cells column).or (row.cells column) }

/-- `_upsert` on a database with `INSERT ... ON CONFLICT DO UPDATE`. -/
def upsertNative (taskId : Text) (values : Values) (rows : List TaskRow) : List TaskRow :=
  let excluded := inserted taskId values
  match lookup TaskRow.taskId rows taskId with
  | none => rows ++ [excluded]
  | some _ =>
      updateAt TaskRow.taskId taskId (onConflict values.keep values excluded) rows

/-- `_upsert_portable`. -/
def upsertPortable (taskId : Text) (values : Values) (keep : Option (List State))
    (rows : List TaskRow) : List TaskRow :=
  match lookup TaskRow.taskId rows taskId with
  | none => rows ++ [inserted taskId values]
  | some row =>
      let values := if keeps keep row.state then { values with state := none } else values
      updateAt TaskRow.taskId taskId (assign values) rows

/-- `_upsert`, where `native` says whether `_native_insert` finds an insert for the
dialect. -/
def upsert (native : Bool) (now : Nat) (taskId : Text) (values : Values)
    (rows : List TaskRow) : List TaskRow :=
  let values := values.stamped now
  if native then upsertNative taskId values rows
  else upsertPortable taskId values values.keep rows

/-! ## What an upsert does to one row -/

/-- The row of a task after an upsert of its values. -/
def written (taskId : Text) (values : Values) : Option TaskRow → TaskRow
  | none => inserted taskId values
  | some row =>
      assign (if keeps values.keep row.state then { values with state := none } else values) row

/-- The two paths write the same row. -/
theorem onConflict_eq (taskId : Text) (values : Values) (row : TaskRow) :
    onConflict values.keep values (inserted taskId values) row =
      written taskId values (some row) := by
  have hcells : (fun column =>
      if (values.cells column).isSome then values.cells column else row.cells column) =
      fun column => (values.cells column).or (row.cells column) := by
    funext column
    cases values.cells column <;> rfl
  cases hstate : values.state with
  | none =>
      have hkeep : values.keep = none := by simp [Values.keep, hstate]
      cases hretries : values.retries <;>
        simp [onConflict, written, assign, inserted, hkeep, keeps, hstate, hretries, hcells]
  | some state =>
      cases hretries : values.retries <;> by_cases hkeep : keeps values.keep row.state = true <;>
        simp [onConflict, written, assign, inserted, hkeep, hstate, hretries, hcells]

/-- An upsert adds the row of a task that has none. -/
theorem upsert_new (native : Bool) (now : Nat) {taskId : Text} (values : Values)
    {rows : List TaskRow} (h : lookup TaskRow.taskId rows taskId = none) :
    upsert native now taskId values rows =
      rows ++ [written taskId (values.stamped now) none] := by
  unfold upsert
  cases native with
  | false => simp [upsertPortable, h, written]
  | true => simp [upsertNative, h, written]

/-- On both paths an upsert rewrites the row that the task has. -/
theorem upsert_existing (native : Bool) (now : Nat) {taskId : Text} (values : Values)
    {rows : List TaskRow} {row : TaskRow} (h : lookup TaskRow.taskId rows taskId = some row) :
    ∃ f : TaskRow → TaskRow, (∀ r, (f r).taskId = r.taskId) ∧
      upsert native now taskId values rows = updateAt TaskRow.taskId taskId f rows ∧
      f row = written taskId (values.stamped now) (some row) := by
  unfold upsert
  cases native with
  | true =>
      refine ⟨onConflict (values.stamped now).keep (values.stamped now)
        (inserted taskId (values.stamped now)), fun _ => rfl, ?_, onConflict_eq _ _ _⟩
      simp [upsertNative, h]
  | false =>
      refine ⟨assign (if keeps (values.stamped now).keep row.state
        then { values.stamped now with state := none } else values.stamped now),
        fun _ => rfl, ?_, rfl⟩
      simp [upsertPortable, h]

/-- The row of the task after an upsert. -/
theorem lookup_upsert_self (native : Bool) (now : Nat) (taskId : Text) (values : Values)
    (rows : List TaskRow) :
    lookup TaskRow.taskId (upsert native now taskId values rows) taskId =
      some (written taskId (values.stamped now) (lookup TaskRow.taskId rows taskId)) := by
  cases hrow : lookup TaskRow.taskId rows taskId with
  | none =>
      rw [upsert_new native now values hrow, lookup_append, hrow, Option.none_or, lookup_cons]
      exact if_pos rfl
  | some row =>
      obtain ⟨f, hkey, hupsert, hwritten⟩ := upsert_existing native now values hrow
      rw [hupsert, lookup_updateAt_self hkey, hrow, Option.map_some, hwritten]

/-- An upsert leaves the rows of the other tasks alone. -/
theorem lookup_upsert_ne (native : Bool) (now : Nat) {taskId other : Text} (values : Values)
    (hne : taskId ≠ other) (rows : List TaskRow) :
    lookup TaskRow.taskId (upsert native now taskId values rows) other =
      lookup TaskRow.taskId rows other := by
  cases hrow : lookup TaskRow.taskId rows taskId with
  | none =>
      have hnew : lookup TaskRow.taskId [written taskId (values.stamped now) none] other = none := by
        rw [lookup_cons, if_neg, lookup_nil]
        exact hne
      rw [upsert_new native now values hrow, lookup_append, hnew, Option.or_none]
  | some row =>
      obtain ⟨f, hkey, hupsert, _⟩ := upsert_existing native now values hrow
      rw [hupsert, lookup_updateAt_ne hkey hne]

/-! ## The signals -/

/-- What the handlers read of a worker's request or of a task. -/
structure Request where
  name : Option Text
  hostname : Option Text
  routingKey : Option Text
  /-- `tenant_id_from_celery_headers` of the places where the header can be. -/
  tenantHeaders : List (Option Text)
  args : Option Json
  kwargs : Option Json
  /-- `retries` of the message, which counts the attempts before this one. -/
  retries : Option Int
  eta : Option Text
  expires : Option Text
  parentId : Option Text
  rootId : Option Text

/-- A task signal of the worker, with what its handler reads. -/
inductive Signal where
  | received (request : Request)
  | prerun (task : Request)
  | postrun (retval : Option Json) (state : Option State) (runtime : Option Nat)
  | failure (exception : Option Text) (traceback : Option Json)
  | retry (retries : Option Int) (reason : Option Text) (traceback : Option Json)
  | revoked (name hostname : Option Text) (terminated expired : Bool)

def argsMaxChars : Nat := 2000
def resultMaxChars : Nat := 2000
def exceptionMaxChars : Nat := 2000
def tracebackMaxChars : Nat := 10000

section Handlers

variable (redactBounded : Json → Nat → Text) (now : Nat)

/-- `_store`: redacted and capped. -/
def store (value : Option Json) (cap : Nat) : Option Cell :=
  value.map fun value => .text (redactBounded value cap)

/-- `_iso` of a text: an empty one counts as none. -/
def iso (value : Option Text) : Option Cell := (truthy value).map .text

/-- `_tenant`: the first header that names a tenant. -/
def tenant (request : Request) : Option Text :=
  request.tenantHeaders.findSome? truthy

def text (value : Option Text) : Option Cell := value.map .text

/-- `on_task_received`, in the worker's main process. -/
def onTaskReceived (request : Request) : Values where
  state := some (.known .received)
  retries := some (request.retries.getD 0)
  cells := cellsOf
    [(.name, text request.name),
     (.worker, text request.hostname),
     (.queue, text request.routingKey),
     (.tenantId, text (tenant request)),
     (.args, store redactBounded request.args argsMaxChars),
     (.kwargs, store redactBounded request.kwargs argsMaxChars),
     (.eta, iso request.eta),
     (.expires, iso request.expires),
     (.parentId, text request.parentId),
     (.rootId, text request.rootId),
     (.receivedAt, some (.time now))]

/-- `on_task_prerun`, in a pool process. -/
def onTaskPrerun (task : Request) : Values where
  state := some (.known .started)
  cells := cellsOf
    [(.name, text task.name),
     (.worker, text task.hostname),
     (.queue, text task.routingKey),
     (.tenantId, text (tenant task)),
     (.args, store redactBounded task.args argsMaxChars),
     (.kwargs, store redactBounded task.kwargs argsMaxChars),
     (.startedAt, some (.time now))]

/-- `on_task_postrun`; `runtime` is the time since the prerun of the same process, if it
timed one. -/
def onTaskPostrun (retval : Option Json) (state : Option State) (runtime : Option Nat) :
    Values where
  state := state.filter fun name => name ≠ .other ""
  cells := cellsOf
    [(.result,
      if state = some (.known .success) then store redactBounded retval resultMaxChars else none),
     (.finishedAt, if state.any finishedStates.contains then some (.time now) else none),
     (.runtimeSeconds, runtime.map .seconds)]

/-- `on_task_failure`, with `repr(exception)`. -/
def onTaskFailure (exception : Option Text) (traceback : Option Json) : Values where
  state := some (.known .failure)
  cells := cellsOf
    [(.exception, store redactBounded (exception.map .str) exceptionMaxChars),
     (.traceback, store redactBounded traceback tracebackMaxChars)]

/-- `on_task_retry`, with `str(reason)`. -/
def onTaskRetry (retries : Option Int) (reason : Option Text) (traceback : Option Json) :
    Values where
  state := some (.known .retry)
  retries := some (retries.getD 0 + 1)
  cells := cellsOf
    [(.exception, store redactBounded (reason.map .str) exceptionMaxChars),
     (.traceback, store redactBounded traceback tracebackMaxChars)]

/-- `on_task_revoked`. -/
def onTaskRevoked (name hostname : Option Text) (terminated expired : Bool) : Values where
  state := some (.known .revoked)
  cells := cellsOf
    [(.name, text name),
     (.worker, text hostname),
     (.exception, some (.text (if expired then "expired".toList
        else if terminated then "terminated".toList else "revoked".toList))),
     (.finishedAt, some (.time now))]

/-- The values that the handler of a signal records. -/
def handle : Signal → Values
  | .received request => onTaskReceived redactBounded now request
  | .prerun task => onTaskPrerun redactBounded now task
  | .postrun retval state runtime => onTaskPostrun redactBounded now retval state runtime
  | .failure exception traceback => onTaskFailure redactBounded exception traceback
  | .retry retries reason traceback => onTaskRetry redactBounded retries reason traceback
  | .revoked name hostname terminated expired =>
      onTaskRevoked now name hostname terminated expired

end Handlers

/-- `record`, where no upsert fails: nothing without a task id or with the history turned
off. -/
def record (enabled native : Bool) (now : Nat) (taskId : Text) (values : Values)
    (rows : List TaskRow) : List TaskRow :=
  if taskId = [] ∨ ¬ enabled then rows else upsert native now taskId values rows

end M8flow.Celery
