import M8flow.Lib.Run
import M8flow.Workflow.EventLog
import Mathlib.Data.List.Dedup
import Mathlib.Logic.Function.Basic

/-!
# One completion event per task

`_record_task_completed_event_if_missing`, called in transactions that run beside each
other.  A call looks for the event, inserts it under a savepoint, and looks again when the
insert breaks a constraint.

- `indexKey` is the partial unique index of the migration and `upgrade` the check that
  runs before the index is made.
- `step` is one statement of one transaction, at a database that keeps the index.  A
  `SELECT` may read an older snapshot; the index always sees every row.
- `Honest` says what a transaction's answers have to do with the rows, and `Sound` is the
  invariant of every run.
- `completion_event_once` reads the invariant at the end.
-/

namespace M8flow.Workflow.CompletionEvents

open M8flow.Lib M8flow.Workflow.EventLog

/-! ## The index -/

/-- The columns of `uq_process_instance_event_task_completed_once`. -/
structure TaskKey where
  m8fTenantId : Text
  processInstanceId : Nat
  taskGuid : Text
  deriving DecidableEq

/-- The entry of a row in the index, when the row meets the index's predicate. -/
def indexKey (r : EventRecord) : Option TaskKey :=
  match r.taskGuid with
  | some guid =>
      if r.eventType = "task_completed".toList then
        some ⟨r.m8fTenantId, r.processInstanceId, guid⟩
      else none
  | none => none

/-- `duplicate_query`: the keys that several rows share, with how many do. -/
def duplicateQuery (rows : List EventRecord) : List (TaskKey × Nat) :=
  let keys := rows.filterMap indexKey
  (keys.dedup.map fun k => (k, keys.count k)).filter fun group => 1 < group.2

/-- `upgrade`, up to the creation of the index. -/
def upgrade (rows : List EventRecord) : Except String Unit :=
  let duplicates := duplicateQuery rows
  if duplicates = [] then .ok ()
  else
    .error ("Cannot enforce unique task completion events because existing duplicates " ++
      "were found (duplicate_groups=" ++ toString duplicates.length ++ ", affected_rows=" ++
      toString (duplicates.map Prod.snd).sum ++ "). " ++
      "No rows were changed. To locate them, query process_instance_event for " ++
      "event_type='task_completed' and non-null task_guid, grouped by " ++
      "m8f_tenant_id, process_instance_id, and task_guid. Reconcile these audit " ++
      "rows without deleting history, then rerun the migration.")

/-- The migration goes through exactly when no two rows have the same entry. -/
theorem upgrade_ok_iff {rows : List EventRecord} :
    upgrade rows = .ok () ↔ (rows.filterMap indexKey).Nodup := by
  have hnone : duplicateQuery rows = [] ↔ (rows.filterMap indexKey).Nodup := by
    simp only [duplicateQuery, List.filter_eq_nil_iff, List.mem_map, List.mem_dedup,
      List.nodup_iff_count_le_one]
    constructor
    · intro h k
      by_cases hk : k ∈ rows.filterMap indexKey
      · have hgroup := h _ ⟨k, hk, rfl⟩
        simpa using hgroup
      · rw [List.count_eq_zero_of_not_mem hk]
        omega
    · intro h group hgroup
      obtain ⟨k, -, rfl⟩ := hgroup
      simpa using h k
  unfold upgrade
  by_cases hempty : duplicateQuery rows = []
  · simp only [if_pos hempty, true_iff]
    exact hnone.mp hempty
  · simp only [if_neg hempty, reduceCtorEq, false_iff]
    exact fun hnodup => hempty (hnone.mpr hnodup)

/-! ## Transactions -/

/-- The arguments of `_record_task_completed_event_if_missing`. -/
structure Call where
  tenantId : Text
  processInstanceId : Nat
  taskGuid : Text
  userId : Nat

/-- The task that a call is about. -/
def Call.key (call : Call) : TaskKey :=
  ⟨call.tenantId, call.processInstanceId, call.taskGuid⟩

/-- The row of `RecordProcessInstanceEventCommand`; core chooses the category, and the
database the id and the time. -/
def Call.record (call : Call) (id : Nat) (category : Option Text) (occurredAt : Option Int) :
    EventRecord where
  id := id
  m8fTenantId := call.tenantId
  processInstanceId := call.processInstanceId
  taskGuid := some call.taskGuid
  eventType := "task_completed".toList
  category := category
  userId := some call.userId
  occurredAt := occurredAt

@[simp] theorem indexKey_record (call : Call) (id : Nat) (category : Option Text)
    (occurredAt : Option Int) :
    indexKey (call.record id category occurredAt) = some call.key := by
  simp [indexKey, Call.record, Call.key]

/-- How far a transaction is. -/
inductive Phase where
  /-- Between two calls. -/
  | idle
  /-- The first look found no event. -/
  | looked (call : Call)
  /-- Inside `begin_nested`. -/
  | nested (call : Call)
  /-- The row is in the table and the savepoint is not released. -/
  | inserted (call : Call)
  /-- The insert broke a constraint. -/
  | violated (call : Call)
  /-- The savepoint is rolled back after an `IntegrityError`. -/
  | restored (call : Call)
  /-- An exception left the call. -/
  | raised
  | committed
  | rolledBack

/-- A transaction: whether the database still takes its statements, and what its calls
have returned. -/
structure Txn where
  phase : Phase
  usable : Bool
  returned : List (TaskKey × Bool)

/-- A row and the transaction that wrote it; `none` is a row from before. -/
structure Stored where
  owner : Option Nat
  record : EventRecord

structure Db where
  rows : List Stored
  txn : Nat → Txn

/-- The table at the end of the migration. -/
def start (rows : List EventRecord) : Db where
  rows := rows.map (Stored.mk none)
  txn := fun _ => ⟨.idle, true, []⟩

def Db.phase (db : Db) (t : Nat) : Phase := (db.txn t).phase

def Db.returned (db : Db) (t : Nat) : List (TaskKey × Bool) := (db.txn t).returned

/-- A row that every transaction may see. -/
def Db.Settled (db : Db) : Option Nat → Prop
  | none => True
  | some t => db.phase t = .committed

instance Phase.decidableCommitted (p : Phase) : Decidable (p = .committed) :=
  match p with
  | .committed => isTrue rfl
  | .idle | .looked _ | .nested _ | .inserted _ | .violated _ | .restored _ | .raised
  | .rolledBack => isFalse (by intro h; cases h)

instance Db.decidableSettled (db : Db) (owner : Option Nat) : Decidable (db.Settled owner) :=
  match owner with
  | none => isTrue trivial
  | some t => inferInstanceAs (Decidable (db.phase t = .committed))

/-- A row that transaction `t` may see. -/
def Db.Visible (db : Db) (t : Nat) (row : Stored) : Prop :=
  row.owner = some t ∨ db.Settled row.owner

instance Db.decidableVisible (db : Db) (t : Nat) (row : Stored) :
    Decidable (db.Visible t row) :=
  inferInstanceAs (Decidable (_ ∨ _))

/-- The entry of a stored row. -/
def Stored.key (row : Stored) : Option TaskKey := indexKey row.record

/-- What a `SELECT` on `k` may answer: an event that it finds is visible, and it never
misses one of its own. -/
def Db.MayAnswer (db : Db) (t : Nat) (k : TaskKey) (found : Bool) : Prop :=
  if found then ∃ row ∈ db.rows, row.key = some k ∧ db.Visible t row
  else ∀ row ∈ db.rows, row.key = some k → row.owner ≠ some t

instance Db.decidableMayAnswer (db : Db) (t : Nat) (k : TaskKey) (found : Bool) :
    Decidable (db.MayAnswer t k found) :=
  inferInstanceAs (Decidable (ite _ _ _))

def Db.set (db : Db) (t : Nat) (x : Txn) : Db :=
  { db with txn := Function.update db.txn t x }

/-- The transaction goes on to another point of the same call. -/
def Db.goto (db : Db) (t : Nat) (p : Phase) (usable : Bool) : Db :=
  db.set t ⟨p, usable, db.returned t⟩

/-- The call returns. -/
def Db.answer (db : Db) (t : Nat) (k : TaskKey) (result : Bool) : Db :=
  db.set t ⟨.idle, true, db.returned t ++ [(k, result)]⟩

/-! ## Steps -/

/-- One statement of transaction `t`. -/
inductive Event where
  /-- `exists().where(..)` before the insert. -/
  | look (t : Nat) (call : Call) (found : Bool)
  /-- `session.begin_nested()`. -/
  | beginNested (t : Nat)
  /-- The flush of the new row. -/
  | insert (t : Nat) (id : Nat) (category : Option Text) (occurredAt : Option Int)
  /-- The flush breaks another constraint of the table. -/
  | integrityError (t : Nat)
  /-- Any other exception inside the `with`, whose exit rolls the savepoint back. -/
  | fail (t : Nat)
  /-- The exit of the `with` after an `IntegrityError`. -/
  | rollbackToSavepoint (t : Nat)
  /-- `exists().where(..)` in the handler. -/
  | lookAgain (t : Nat) (found : Bool)
  /-- The exit of the `with` without an exception. -/
  | release (t : Nat)
  /-- The caller records an event of another kind. -/
  | record (t : Nat) (r : EventRecord)
  | commit (t : Nat)
  | rollback (t : Nat)

/-- What the index does with a new row for `k`. -/
inductive Verdict where
  | free
  | taken
  /-- A transaction that has not ended holds the entry, and the insert waits for it. -/
  | waits

/-- The index's verdict on an insert of `t`. -/
def Db.verdict (db : Db) (t : Nat) (k : TaskKey) : Verdict :=
  match db.rows.find? fun row => row.key = some k with
  | none => .free
  | some row => if db.Visible t row then .taken else .waits

/-- The rows without what `t` wrote for `k`. -/
def Db.undo (db : Db) (t : Nat) (k : TaskKey) : Db :=
  { db with rows := db.rows.filter fun row => ¬ (row.owner = some t ∧ row.key = some k) }

/-- One statement.  A transaction whose insert failed takes no statement before its
savepoint is rolled back. -/
def step (db : Db) : Event → Option Db
  | .look t call found =>
      match db.phase t with
      | .idle =>
          if (db.txn t).usable ∧ db.MayAnswer t call.key found then
            if found then some (db.answer t call.key false)
            else some (db.goto t (.looked call) true)
          else none
      | _ => none
  | .beginNested t =>
      match db.phase t with
      | .looked call => if (db.txn t).usable then some (db.goto t (.nested call) true) else none
      | _ => none
  | .insert t id category occurredAt =>
      match db.phase t with
      | .nested call =>
          match db.verdict t call.key with
          | .free =>
              some { db.goto t (.inserted call) true with
                rows := db.rows ++ [⟨some t, call.record id category occurredAt⟩] }
          | .taken => some (db.goto t (.violated call) false)
          | .waits => none
      | _ => none
  | .integrityError t =>
      match db.phase t with
      | .nested call => some (db.goto t (.violated call) false)
      | _ => none
  | .fail t =>
      match db.phase t with
      | .nested _ => some (db.goto t .raised true)
      | .inserted call => some ((db.undo t call.key).goto t .raised true)
      | _ => none
  | .rollbackToSavepoint t =>
      match db.phase t with
      | .violated call => some (db.goto t (.restored call) true)
      | _ => none
  | .lookAgain t found =>
      match db.phase t with
      | .restored call =>
          if (db.txn t).usable ∧ db.MayAnswer t call.key found then
            if found then some (db.answer t call.key false)
            else some (db.goto t .raised true)
          else none
      | _ => none
  | .release t =>
      match db.phase t with
      | .inserted call => some (db.answer t call.key true)
      | _ => none
  | .record t r =>
      match db.phase t with
      | .idle =>
          if (db.txn t).usable ∧ indexKey r = none then
            some { db with rows := db.rows ++ [⟨some t, r⟩] }
          else none
      | _ => none
  | .commit t =>
      match db.phase t with
      | .idle => if (db.txn t).usable then some (db.goto t .committed true) else none
      | _ => none
  | .rollback t =>
      match db.phase t with
      | .committed | .rolledBack => none
      | _ =>
          some { db.goto t .rolledBack true with
            rows := db.rows.filter fun row => row.owner ≠ some t }

/-! ## What the rows say about the answers -/

/-- The keys of the table are distinct: the index. -/
def Indexed (rows : List Stored) : Prop := (rows.filterMap Stored.key).Nodup

/-- A row of `t` for `k`. -/
def Db.Holds (db : Db) (t : Nat) (k : TaskKey) : Prop :=
  ∃ row ∈ db.rows, row.owner = some t ∧ row.key = some k

/-- What transaction `t` has returned, against the rows. -/
structure Honest (db : Db) (t : Nat) : Prop where
  /-- It holds a row exactly for what it answered `True`, and for an insert under way. -/
  holds : ∀ k, db.Holds t k ↔ db.phase t ≠ .rolledBack ∧
    ((k, true) ∈ db.returned t ∨ ∃ call, db.phase t = .inserted call ∧ call.key = k)
  /-- What it answered `False` is there. -/
  seen : ∀ k, (k, false) ∈ db.returned t → db.phase t ≠ .rolledBack →
    ∃ row ∈ db.rows, row.key = some k ∧ db.Visible t row
  fresh : ∀ call, db.phase t = .inserted call → ∀ b, (call.key, b) ∉ db.returned t
  once : ∀ k, (db.returned t).count (k, true) ≤ 1
  usable : (db.txn t).usable = false → ∃ call, db.phase t = .violated call

/-- The invariant of a run that began at `rows`. -/
structure Sound (rows : List EventRecord) (db : Db) : Prop where
  indexed : Indexed db.rows
  earlier : ∀ r ∈ rows, ⟨none, r⟩ ∈ db.rows
  unowned : ∀ row ∈ db.rows, row.owner = none → row.record ∈ rows
  honest : ∀ t, Honest db t

section Rows

/-- Under the index, two rows for one key are the same row. -/
theorem Indexed.eq_of_key {rows : List Stored} (h : Indexed rows) {k : TaskKey}
    {row row' : Stored} (hrow : row ∈ rows) (hrow' : row' ∈ rows) (hkey : row.key = some k)
    (hkey' : row'.key = some k) : row = row' := by
  induction rows with
  | nil => exact absurd hrow List.not_mem_nil
  | cons first rest ih =>
      have hnew : ∀ other ∈ rest, first.key = some k → other.key = some k → False := by
        intro other hother hfirst hkey
        rw [Indexed, List.filterMap_cons_some hfirst, List.nodup_cons] at h
        exact h.1 (List.mem_filterMap.mpr ⟨other, hother, hkey⟩)
      have hrest : Indexed rest := by
        refine List.Nodup.sublist ?_ h
        exact (List.sublist_cons_self first rest).filterMap _
      rcases List.mem_cons.mp hrow with hfirst | hlater
      · rcases List.mem_cons.mp hrow' with hfirst' | hlater'
        · rw [hfirst, hfirst']
        · rw [hfirst] at hkey
          exact (hnew row' hlater' hkey hkey').elim
      · rcases List.mem_cons.mp hrow' with hfirst' | hlater'
        · rw [hfirst'] at hkey'
          exact (hnew row hlater hkey' hkey).elim
        · exact ih hrest hlater hlater'

/-- Fewer rows keep the index. -/
theorem Indexed.filter {rows : List Stored} (h : Indexed rows) (p : Stored → Bool) :
    Indexed (rows.filter p) :=
  List.Nodup.sublist (List.filter_sublist.filterMap _) h

/-- The index allows a row whose entry is not there yet. -/
theorem Indexed.append {rows : List Stored} (h : Indexed rows) {new : Stored}
    (hnew : ∀ k, new.key = some k → ∀ row ∈ rows, row.key ≠ some k) :
    Indexed (rows ++ [new]) := by
  rw [Indexed, List.filterMap_append, List.nodup_append]
  refine ⟨h, ?_, ?_⟩
  · cases hkey : new.key with
    | none => simp [hkey]
    | some k => simp [hkey]
  · intro k hk k' hk' heq
    obtain ⟨row, hrow, hkey⟩ := List.mem_filterMap.mp hk
    obtain ⟨only, honly, hkey'⟩ := List.mem_filterMap.mp hk'
    rw [List.mem_singleton] at honly
    subst honly
    subst heq
    exact hnew k hkey' row hrow hkey

end Rows

/-! ## One step -/

section Steps

variable {db db' : Db} {t : Nat}

@[simp] theorem phase_set_self (db : Db) (t : Nat) (x : Txn) : (db.set t x).phase t = x.phase := by
  simp [Db.phase, Db.set]

@[simp] theorem returned_set_self (db : Db) (t : Nat) (x : Txn) :
    (db.set t x).returned t = x.returned := by
  simp [Db.returned, Db.set]

/-- A transaction that has ended takes no more statements. -/
def Phase.Ended : Phase → Prop
  | .committed | .rolledBack => True
  | _ => False

/-- What a statement of `t` does not touch. -/
structure Only (t : Nat) (db db' : Db) : Prop where
  active : ¬ (db.phase t).Ended
  txn : ∀ u, u ≠ t → db'.txn u = db.txn u
  rows : ∀ row, row.owner ≠ some t → (row ∈ db'.rows ↔ row ∈ db.rows)

/-- A statement of `t` takes nothing that is settled back. -/
theorem Only.settled (h : Only t db db') {owner : Option Nat} (hsettled : db.Settled owner) :
    db'.Settled owner := by
  cases owner with
  | none => trivial
  | some u =>
      have hcommitted : db.phase u = .committed := hsettled
      have hother : u ≠ t := by
        intro hu
        subst hu
        exact h.active (by rw [hcommitted]; trivial)
      change (db'.txn u).phase = .committed
      rw [h.txn u hother]
      exact hcommitted

/-- The others are as honest after a statement of `t` as before it. -/
theorem Only.honest (h : Only t db db') {u : Nat} (hu : u ≠ t) (hhonest : Honest db u) :
    Honest db' u := by
  have hphase : db'.phase u = db.phase u := by unfold Db.phase; rw [h.txn u hu]
  have hreturned : db'.returned u = db.returned u := by unfold Db.returned; rw [h.txn u hu]
  have hown : ∀ row : Stored, row.owner = some u → (row ∈ db'.rows ↔ row ∈ db.rows) := by
    intro row howner
    exact h.rows row (by rw [howner]; simpa using hu)
  constructor
  · intro k
    rw [hphase, hreturned, ← hhonest.holds k]
    constructor
    · intro hholds
      obtain ⟨row, hrow, howner, hkey⟩ := hholds
      exact ⟨row, (hown row howner).mp hrow, howner, hkey⟩
    · intro hholds
      obtain ⟨row, hrow, howner, hkey⟩ := hholds
      exact ⟨row, (hown row howner).mpr hrow, howner, hkey⟩
  · intro k hk hnot
    rw [hreturned] at hk
    rw [hphase] at hnot
    obtain ⟨row, hrow, hkey, hvisible⟩ := hhonest.seen k hk hnot
    cases hvisible with
    | inl howner => exact ⟨row, (hown row howner).mpr hrow, hkey, Or.inl howner⟩
    | inr hsettled =>
        have hother : row.owner ≠ some t := by
          intro howner
          rw [howner] at hsettled
          have hcommitted : db.phase t = .committed := hsettled
          exact h.active (by rw [hcommitted]; trivial)
        exact ⟨row, (h.rows row hother).mpr hrow, hkey, Or.inr (h.settled hsettled)⟩
  · intro call hinserted
    rw [hphase] at hinserted
    rw [hreturned]
    exact hhonest.fresh call hinserted
  · rw [hreturned]
    exact hhonest.once
  · rw [h.txn u hu, hphase]
    exact hhonest.usable

/-- It is enough to look at the index and at the transaction that acts. -/
theorem Sound.step_of_only {rows : List EventRecord} (h : Sound rows db) (honly : Only t db db')
    (hindexed : Indexed db'.rows) (hactor : Honest db' t) : Sound rows db' := by
  constructor
  · exact hindexed
  · intro r hr
    exact (honly.rows ⟨none, r⟩ (by simp)).mpr (h.earlier r hr)
  · intro row hrow howner
    exact h.unowned row ((honly.rows row (by rw [howner]; simp)).mp hrow) howner
  · intro u
    by_cases hu : u = t
    · rw [hu]
      exact hactor
    · exact honly.honest hu (h.honest u)

/-- A change of `t`'s own state alone. -/
theorem only_set (hactive : ¬ (db.phase t).Ended) (x : Txn) : Only t db (db.set t x) := by
  constructor
  · exact hactive
  · intro u hu
    simp [Db.set, Function.update_of_ne hu]
  · intro row _
    rfl

/-- A visible row stays visible to an active transaction that goes on. -/
theorem visible_set (hactive : ¬ (db.phase t).Ended) (x : Txn) {row : Stored}
    (h : db.Visible t row) : (db.set t x).Visible t row := by
  cases h with
  | inl howner => exact Or.inl howner
  | inr hsettled => exact Or.inr ((only_set hactive x).settled hsettled)

/-- The transaction goes on inside a call, without a row of the call's. -/
theorem honest_goto (h : Honest db t) (hactive : ¬ (db.phase t).Ended)
    (hbefore : ∀ call, db.phase t ≠ .inserted call) {p : Phase} {usable : Bool}
    (hafter : ∀ call, p ≠ .inserted call) (hend : p ≠ .rolledBack)
    (husable : usable = false → ∃ call, p = .violated call) :
    Honest (db.goto t p usable) t := by
  have hnot : db.phase t ≠ .rolledBack := by
    intro hp
    exact hactive (by rw [hp]; trivial)
  constructor
  · intro k
    have hrow := h.holds k
    simp only [Db.goto, phase_set_self, returned_set_self]
    constructor
    · intro hholds
      obtain ⟨-, hreason⟩ := hrow.mp hholds
      rcases hreason with hreturned | ⟨call, hinserted, -⟩
      · exact ⟨hend, Or.inl hreturned⟩
      · exact absurd hinserted (hbefore call)
    · rintro ⟨-, hreturned | ⟨call, hinserted, -⟩⟩
      · exact hrow.mpr ⟨hnot, Or.inl hreturned⟩
      · exact absurd hinserted (hafter call)
  · intro k hk _
    simp only [Db.goto, returned_set_self] at hk
    obtain ⟨row, hmem, hkey, hvisible⟩ := h.seen k hk hnot
    exact ⟨row, hmem, hkey, visible_set hactive _ hvisible⟩
  · intro call hinserted
    simp only [Db.goto, phase_set_self] at hinserted
    exact absurd hinserted (hafter call)
  · simp only [Db.goto, returned_set_self]
    exact h.once
  · intro hfalse
    simp only [Db.goto, Db.set, Function.update_self] at hfalse
    simp only [Db.goto, phase_set_self]
    exact husable hfalse

/-- The call finds the event and returns `False`. -/
theorem honest_answer_false (h : Honest db t) (hactive : ¬ (db.phase t).Ended)
    (hbefore : ∀ call, db.phase t ≠ .inserted call) {k : TaskKey}
    (hfound : db.MayAnswer t k true) : Honest (db.answer t k false) t := by
  have hnot : db.phase t ≠ .rolledBack := by
    intro hp
    exact hactive (by rw [hp]; trivial)
  constructor
  · intro k'
    have hrow := h.holds k'
    simp only [Db.answer, phase_set_self, returned_set_self, List.mem_append,
      List.mem_singleton, Prod.mk.injEq, Bool.true_eq_false, and_false, or_false]
    constructor
    · intro hholds
      obtain ⟨-, hreason⟩ := hrow.mp hholds
      rcases hreason with hreturned | ⟨call, hinserted, -⟩
      · exact ⟨by simp, Or.inl hreturned⟩
      · exact absurd hinserted (hbefore call)
    · rintro ⟨-, hreturned | ⟨call, hinserted, -⟩⟩
      · exact hrow.mpr ⟨hnot, Or.inl hreturned⟩
      · exact absurd hinserted (by simp)
  · intro k' hk' _
    simp only [Db.answer, returned_set_self, List.mem_append, List.mem_singleton] at hk'
    cases hk' with
    | inl hold =>
        obtain ⟨row, hmem, hkey, hvisible⟩ := h.seen k' hold hnot
        exact ⟨row, hmem, hkey, visible_set hactive _ hvisible⟩
    | inr hnew =>
        cases hnew
        obtain ⟨row, hmem, hkey, hvisible⟩ := hfound
        exact ⟨row, hmem, hkey, visible_set hactive _ hvisible⟩
  · intro call hinserted
    simp [Db.answer] at hinserted
  · intro k'
    simp only [Db.answer, returned_set_self, List.count_append]
    have hother : List.count (k', true) [(k, false)] = 0 := by simp
    rw [hother]
    exact h.once k'
  · intro hfalse
    simp [Db.answer, Db.set] at hfalse

/-- The savepoint is released and the call returns `True`. -/
theorem honest_answer_true (h : Honest db t) {call : Call}
    (hinserted : db.phase t = .inserted call) : Honest (db.answer t call.key true) t := by
  have hactive : ¬ (db.phase t).Ended := by rw [hinserted]; exact id
  constructor
  · intro k
    have hrow := h.holds k
    rw [hinserted] at hrow
    simp only [Db.answer, phase_set_self, returned_set_self, List.mem_append, List.mem_singleton,
      Prod.mk.injEq, and_true]
    constructor
    · intro hholds
      obtain ⟨-, hreason⟩ := hrow.mp hholds
      rcases hreason with hreturned | ⟨call', heq, hkey⟩
      · exact ⟨by simp, Or.inl (Or.inl hreturned)⟩
      · cases heq
        exact ⟨by simp, Or.inl (Or.inr hkey.symm)⟩
    · rintro ⟨-, (hreturned | hkey) | ⟨call', heq, -⟩⟩
      · exact hrow.mpr ⟨by simp, Or.inl hreturned⟩
      · exact hrow.mpr ⟨by simp, Or.inr ⟨call, rfl, hkey.symm⟩⟩
      · cases heq
  · intro k hk _
    simp only [Db.answer, returned_set_self, List.mem_append, List.mem_singleton, Prod.mk.injEq,
      Bool.false_eq_true, and_false, or_false] at hk
    obtain ⟨row, hmem, hkey, hvisible⟩ := h.seen k hk (by rw [hinserted]; simp)
    exact ⟨row, hmem, hkey, visible_set hactive _ hvisible⟩
  · intro call' hother
    simp [Db.answer] at hother
  · intro k
    simp only [Db.answer, returned_set_self, List.count_append]
    by_cases hk : k = call.key
    · -- nothing was returned for the task before the insert
      have hzero : (db.returned t).count (k, true) = 0 := by
        rw [hk]
        exact List.count_eq_zero_of_not_mem (h.fresh call hinserted true)
      rw [hzero, hk]
      simp
    · have hzero : List.count (k, true) [(call.key, true)] = 0 := by
        rw [List.count_eq_zero]
        simpa using hk
      rw [hzero]
      exact h.once k
  · intro hfalse
    simp [Db.answer, Db.set] at hfalse

end Steps

/-! ## Steps that change rows -/

section Writes

variable {db : Db} {t : Nat}

/-- The index takes a row: nobody has one for the key. -/
theorem free_iff {k : TaskKey} (hverdict : db.verdict t k = .free) :
    ∀ row ∈ db.rows, row.key ≠ some k := by
  intro row hrow hkey
  unfold Db.verdict at hverdict
  cases hfind : db.rows.find? (fun row => row.key = some k) with
  | none =>
      have hnone := List.find?_eq_none.mp hfind row hrow
      exact hnone (by simpa using hkey)
  | some found =>
      rw [hfind] at hverdict
      by_cases hvisible : db.Visible t found
      · simp [if_pos hvisible] at hverdict
      · simp [if_neg hvisible] at hverdict

/-- The row goes into the table. -/
theorem honest_insert (h : Honest db t) {call : Call} (hnested : db.phase t = .nested call)
    (hfree : ∀ row ∈ db.rows, row.key ≠ some call.key) {r : EventRecord}
    (hkey : indexKey r = some call.key) :
    Honest { db.goto t (.inserted call) true with rows := db.rows ++ [⟨some t, r⟩] } t := by
  have hactive : ¬ (db.phase t).Ended := by rw [hnested]; exact id
  have hnew : ∀ b, (call.key, b) ∉ db.returned t := by
    intro b hb
    cases b with
    | true =>
        obtain ⟨row, hrow, -, hrowKey⟩ :=
          (h.holds call.key).mpr ⟨by rw [hnested]; simp, Or.inl hb⟩
        exact hfree row hrow hrowKey
    | false =>
        obtain ⟨row, hrow, hrowKey, -⟩ := h.seen call.key hb (by rw [hnested]; simp)
        exact hfree row hrow hrowKey
  have hphase : Db.phase { db.goto t (.inserted call) true with
      rows := db.rows ++ [⟨some t, r⟩] } t = .inserted call := by
    simp [Db.phase, Db.goto, Db.set]
  have hreturned : Db.returned { db.goto t (.inserted call) true with
      rows := db.rows ++ [⟨some t, r⟩] } t = db.returned t := by
    simp [Db.returned, Db.goto, Db.set]
  constructor
  · intro k
    have hrow := h.holds k
    rw [hnested] at hrow
    rw [hphase, hreturned]
    constructor
    · rintro ⟨row, hmem, howner, hrowKey⟩
      refine ⟨by simp, ?_⟩
      rcases List.mem_append.mp hmem with hold | hrowNew
      · obtain ⟨-, hreason⟩ := hrow.mp ⟨row, hold, howner, hrowKey⟩
        rcases hreason with hanswer | ⟨call', heq, -⟩
        · exact Or.inl hanswer
        · cases heq
      · rw [List.mem_singleton.mp hrowNew] at hrowKey
        exact Or.inr ⟨call, rfl, Option.some.inj (hkey.symm.trans hrowKey)⟩
    · rintro ⟨-, hanswer | ⟨call', heq, hcall⟩⟩
      · obtain ⟨row, hmem, howner, hrowKey⟩ := hrow.mpr ⟨by simp, Or.inl hanswer⟩
        exact ⟨row, List.mem_append_left _ hmem, howner, hrowKey⟩
      · cases heq
        refine ⟨⟨some t, r⟩, List.mem_append_right _ (by simp), rfl, ?_⟩
        rw [← hcall]
        exact hkey
  · intro k hk _
    rw [hreturned] at hk
    obtain ⟨row, hmem, hrowKey, hvisible⟩ := h.seen k hk (by rw [hnested]; simp)
    exact ⟨row, List.mem_append_left _ hmem, hrowKey,
      visible_set hactive ⟨.inserted call, true, db.returned t⟩ hvisible⟩
  · intro call' hinserted b
    rw [hphase] at hinserted
    rw [hreturned]
    cases hinserted
    exact hnew b
  · rw [hreturned]
    exact h.once
  · intro hfalse
    simp [Db.goto, Db.set] at hfalse

/-- The savepoint takes the row back, and the exception leaves the call. -/
theorem honest_undo (h : Honest db t) {call : Call} (hinserted : db.phase t = .inserted call) :
    Honest ((db.undo t call.key).goto t .raised true) t := by
  have hactive : ¬ (db.phase t).Ended := by rw [hinserted]; exact id
  have hkept : ∀ row, row ∈ (db.undo t call.key).rows ↔
      row ∈ db.rows ∧ ¬ (row.owner = some t ∧ row.key = some call.key) := by
    intro row
    simp only [Db.undo, List.mem_filter, decide_eq_true_eq]
  have hreturned : ((db.undo t call.key).goto t .raised true).returned t = db.returned t := by
    simp [Db.returned, Db.goto, Db.set, Db.undo]
  constructor
  · intro k
    have hrow := h.holds k
    rw [hinserted] at hrow
    rw [hreturned]
    simp only [Db.goto, phase_set_self]
    constructor
    · rintro ⟨row, hmem, howner, hrowKey⟩
      obtain ⟨hold, hnot⟩ := (hkept row).mp hmem
      refine ⟨by simp, ?_⟩
      obtain ⟨-, hreason⟩ := hrow.mp ⟨row, hold, howner, hrowKey⟩
      rcases hreason with hanswer | ⟨call', heq, hcall⟩
      · exact Or.inl hanswer
      · cases heq
        rw [← hcall] at hrowKey
        exact absurd ⟨howner, hrowKey⟩ hnot
    · rintro ⟨-, hanswer | ⟨call', heq, -⟩⟩
      · obtain ⟨row, hmem, howner, hrowKey⟩ := hrow.mpr ⟨by simp, Or.inl hanswer⟩
        refine ⟨row, (hkept row).mpr ⟨hmem, ?_⟩, howner, hrowKey⟩
        rintro ⟨-, hsame⟩
        rw [hrowKey] at hsame
        rw [Option.some.inj hsame] at hanswer
        exact h.fresh call hinserted true hanswer
      · cases heq
  · intro k hk _
    rw [hreturned] at hk
    obtain ⟨row, hmem, hrowKey, hvisible⟩ := h.seen k hk (by rw [hinserted]; simp)
    refine ⟨row, (hkept row).mpr ⟨hmem, ?_⟩, hrowKey, ?_⟩
    · rintro ⟨-, hsame⟩
      rw [hrowKey] at hsame
      rw [Option.some.inj hsame] at hk
      exact h.fresh call hinserted false hk
    · exact visible_set hactive ⟨.raised, true, db.returned t⟩ hvisible
  · intro call' hother
    simp [Db.goto] at hother
  · rw [hreturned]
    exact h.once
  · intro hfalse
    simp [Db.goto, Db.set] at hfalse

/-- A row outside the index changes nothing that the answers are about. -/
theorem honest_record (h : Honest db t) {r : EventRecord} (hkey : indexKey r = none) :
    Honest { db with rows := db.rows ++ [⟨some t, r⟩] } t := by
  constructor
  · intro k
    refine Iff.trans ?_ (h.holds k)
    constructor
    · rintro ⟨row, hmem, howner, hrowKey⟩
      rcases List.mem_append.mp hmem with hold | hrowNew
      · exact ⟨row, hold, howner, hrowKey⟩
      · rw [List.mem_singleton.mp hrowNew] at hrowKey
        exact absurd (hkey.symm.trans hrowKey) (by simp)
    · rintro ⟨row, hmem, howner, hrowKey⟩
      exact ⟨row, List.mem_append_left _ hmem, howner, hrowKey⟩
  · intro k hk hnot
    obtain ⟨row, hmem, hrowKey, hvisible⟩ := h.seen k hk hnot
    exact ⟨row, List.mem_append_left _ hmem, hrowKey, hvisible⟩
  · exact h.fresh
  · exact h.once
  · exact h.usable

/-- A transaction that is rolled back holds no row. -/
theorem honest_rollback (h : Honest db t) :
    Honest { db.goto t .rolledBack true with
      rows := db.rows.filter fun row => row.owner ≠ some t } t := by
  have hphase : Db.phase { db.goto t .rolledBack true with
      rows := db.rows.filter fun row => row.owner ≠ some t } t = .rolledBack := by
    simp [Db.phase, Db.goto, Db.set]
  constructor
  · intro k
    rw [hphase]
    constructor
    · rintro ⟨row, hmem, howner, -⟩
      rw [List.mem_filter] at hmem
      exact absurd howner (by simpa using hmem.2)
    · rintro ⟨hnot, -⟩
      exact absurd rfl hnot
  · intro k _ hnot
    exact absurd hphase hnot
  · intro call hinserted
    rw [hphase] at hinserted
    cases hinserted
  · have hreturned : Db.returned { db.goto t .rolledBack true with
        rows := db.rows.filter fun row => row.owner ≠ some t } t = db.returned t := by
      simp [Db.returned, Db.goto, Db.set]
    rw [hreturned]
    exact h.once
  · intro hfalse
    simp [Db.goto, Db.set] at hfalse

end Writes

/-! ## Every run -/

section Runs

variable {rows : List EventRecord} {db db' : Db}

/-- Rows that `t` adds or takes away are its own. -/
theorem only_rows {t : Nat} (hactive : ¬ (db.phase t).Ended) (x : Txn) {rows' : List Stored}
    (hrows : ∀ row, row.owner ≠ some t → (row ∈ rows' ↔ row ∈ db.rows)) :
    Only t db { db.set t x with rows := rows' } :=
  ⟨hactive, (only_set hactive x).txn, hrows⟩

/-- A new row of `t` is no row of another. -/
theorem mem_append_own {t : Nat} {old : List Stored} {r : EventRecord} (row : Stored)
    (hother : row.owner ≠ some t) : row ∈ old ++ [⟨some t, r⟩] ↔ row ∈ old := by
  rw [List.mem_append, List.mem_singleton]
  constructor
  · rintro (hold | heq)
    · exact hold
    · rw [heq] at hother
      exact absurd rfl hother
  · exact Or.inl

/-- The step of a call that stays between its statements. -/
theorem sound_goto {t : Nat} (h : Sound rows db) (hactive : ¬ (db.phase t).Ended)
    (hbefore : ∀ call, db.phase t ≠ .inserted call) {p : Phase} {usable : Bool}
    (hafter : ∀ call, p ≠ .inserted call) (hend : p ≠ .rolledBack)
    (husable : usable = false → ∃ call, p = .violated call) :
    Sound rows (db.goto t p usable) :=
  h.step_of_only (only_set hactive _) h.indexed
    (honest_goto (h.honest t) hactive hbefore hafter hend husable)

/-- One statement of one transaction keeps the invariant. -/
theorem sound_step (h : Sound rows db) {e : Event} (hstep : step db e = some db') :
    Sound rows db' := by
  cases e with
  | look t call found =>
      simp only [step] at hstep
      split at hstep
      · rename_i hp
        have hactive : ¬ (db.phase t).Ended := by rw [hp]; exact id
        split_ifs at hstep with hok hfound
        · cases hstep
          rw [hfound] at hok
          exact h.step_of_only (only_set hactive _) h.indexed
            (honest_answer_false (h.honest t) hactive (by rw [hp]; simp) hok.2)
        · cases hstep
          exact sound_goto h hactive (by rw [hp]; simp) (by simp) (by simp) (by simp)
      · cases hstep
  | beginNested t =>
      simp only [step] at hstep
      split at hstep
      · rename_i call hp
        have hactive : ¬ (db.phase t).Ended := by rw [hp]; exact id
        split_ifs at hstep
        cases hstep
        exact sound_goto h hactive (by rw [hp]; simp) (by simp) (by simp) (by simp)
      · cases hstep
  | insert t rowId category occurredAt =>
      simp only [step] at hstep
      split at hstep
      · rename_i call hp
        have hactive : ¬ (db.phase t).Ended := by rw [hp]; exact id
        split at hstep
        · rename_i hverdict
          cases hstep
          have hfree := free_iff hverdict
          have hkey : indexKey (call.record rowId category occurredAt) = some call.key :=
            indexKey_record call rowId category occurredAt
          refine h.step_of_only (only_rows hactive _ mem_append_own) (h.indexed.append ?_)
            (honest_insert (h.honest t) hp hfree hkey)
          intro k hk
          rw [show k = call.key from (Option.some.inj (hkey.symm.trans hk)).symm]
          exact hfree
        · cases hstep
          exact sound_goto h hactive (by rw [hp]; simp) (by simp) (by simp)
            (fun _ => ⟨call, rfl⟩)
        · cases hstep
      · cases hstep
  | integrityError t =>
      simp only [step] at hstep
      split at hstep
      · rename_i call hp
        have hactive : ¬ (db.phase t).Ended := by rw [hp]; exact id
        cases hstep
        exact sound_goto h hactive (by rw [hp]; simp) (by simp) (by simp) (fun _ => ⟨call, rfl⟩)
      · cases hstep
  | fail t =>
      simp only [step] at hstep
      split at hstep
      · rename_i call hp
        have hactive : ¬ (db.phase t).Ended := by rw [hp]; exact id
        cases hstep
        exact sound_goto h hactive (by rw [hp]; simp) (by simp) (by simp) (by simp)
      · rename_i call hp
        have hactive : ¬ (db.phase t).Ended := by rw [hp]; exact id
        cases hstep
        refine h.step_of_only (only_rows hactive _ ?_) (h.indexed.filter _)
          (honest_undo (h.honest t) hp)
        intro row hother
        simp only [Db.undo, List.mem_filter, decide_eq_true_eq, and_iff_left_iff_imp]
        exact fun _ hown => hother hown.1
      · cases hstep
  | rollbackToSavepoint t =>
      simp only [step] at hstep
      split at hstep
      · rename_i call hp
        have hactive : ¬ (db.phase t).Ended := by rw [hp]; exact id
        cases hstep
        exact sound_goto h hactive (by rw [hp]; simp) (by simp) (by simp) (by simp)
      · cases hstep
  | lookAgain t found =>
      simp only [step] at hstep
      split at hstep
      · rename_i call hp
        have hactive : ¬ (db.phase t).Ended := by rw [hp]; exact id
        split_ifs at hstep with hok hfound
        · cases hstep
          rw [hfound] at hok
          exact h.step_of_only (only_set hactive _) h.indexed
            (honest_answer_false (h.honest t) hactive (by rw [hp]; simp) hok.2)
        · cases hstep
          exact sound_goto h hactive (by rw [hp]; simp) (by simp) (by simp) (by simp)
      · cases hstep
  | release t =>
      simp only [step] at hstep
      split at hstep
      · rename_i call hp
        have hactive : ¬ (db.phase t).Ended := by rw [hp]; exact id
        cases hstep
        exact h.step_of_only (only_set hactive _) h.indexed (honest_answer_true (h.honest t) hp)
      · cases hstep
  | record t r =>
      simp only [step] at hstep
      split at hstep
      · rename_i hp
        have hactive : ¬ (db.phase t).Ended := by rw [hp]; exact id
        split_ifs at hstep with hok
        cases hstep
        refine h.step_of_only ⟨hactive, fun _ _ => rfl, mem_append_own⟩ (h.indexed.append ?_)
          (honest_record (h.honest t) hok.2)
        intro k hk
        exact absurd (hok.2.symm.trans hk) (by simp)
      · cases hstep
  | commit t =>
      simp only [step] at hstep
      split at hstep
      · rename_i hp
        have hactive : ¬ (db.phase t).Ended := by rw [hp]; exact id
        split_ifs at hstep
        cases hstep
        exact sound_goto h hactive (by rw [hp]; simp) (by simp) (by simp) (by simp)
      · cases hstep
  | rollback t =>
      simp only [step] at hstep
      have hrolled : ¬ (db.phase t).Ended → some { db.goto t .rolledBack true with
          rows := db.rows.filter fun row => row.owner ≠ some t } = some db' → Sound rows db' := by
        intro hactive heq
        cases heq
        refine h.step_of_only (only_rows hactive _ ?_) (h.indexed.filter _)
          (honest_rollback (h.honest t))
        intro row hother
        simp [List.mem_filter, hother]
      cases hp : db.phase t with
      | committed =>
          rw [hp] at hstep
          cases hstep
      | rolledBack =>
          rw [hp] at hstep
          cases hstep
      | _ =>
          rw [hp] at hstep hrolled
          exact hrolled (fun hended => hended) hstep

/-- The invariant holds when the migration has made the index. -/
theorem sound_start (h : upgrade rows = .ok ()) : Sound rows (start rows) := by
  have hkeys : (rows.map (Stored.mk none)).filterMap Stored.key = rows.filterMap indexKey := by
    rw [List.filterMap_map]
    rfl
  constructor
  · rw [Indexed, start, hkeys]
    exact upgrade_ok_iff.mp h
  · intro r hr
    exact List.mem_map_of_mem hr
  · intro row hrow _
    obtain ⟨r, hr, rfl⟩ := List.mem_map.mp hrow
    exact hr
  · intro t
    constructor
    · intro k
      constructor
      · rintro ⟨row, hrow, howner, -⟩
        obtain ⟨r, -, rfl⟩ := List.mem_map.mp hrow
        cases howner
      · rintro ⟨-, hanswer | ⟨call, heq, -⟩⟩
        · cases hanswer
        · cases heq
    · intro k hk
      cases hk
    · intro call heq
      cases heq
    · intro k
      exact Nat.zero_le 1
    · intro hfalse
      cases hfalse

/-- The invariant holds in every state that is reached. -/
theorem sound_of_run (h : upgrade rows = .ok ()) {events : List Event}
    (hrun : Run step (fun _ _ => True) (start rows) events db) : Sound rows db :=
  hrun.invariant (sound_start h) fun _ _ _ hsound _ hstep => sound_step hsound hstep

end Runs

/-! ## At the end -/

section Outcome

variable {rows : List EventRecord} {db : Db}

/-- The completion events of a task that are committed. -/
def Db.completed (db : Db) (k : TaskKey) : List Stored :=
  db.rows.filter fun row => row.key = some k ∧ db.Settled row.owner

theorem mem_completed {k : TaskKey} {row : Stored} :
    row ∈ db.completed k ↔ row ∈ db.rows ∧ row.key = some k ∧ db.Settled row.owner := by
  simp [Db.completed, List.mem_filter]

/-- No call is under way. -/
def Phase.Outside : Phase → Prop
  | .idle | .raised | .committed | .rolledBack => True
  | _ => False

/-- Two events for one task are the same event. -/
theorem Sound.completed_le_one (h : Sound rows db) (k : TaskKey) :
    (db.completed k).length ≤ 1 := by
  have hsub : ((db.completed k).filterMap Stored.key).Nodup :=
    List.Nodup.sublist (List.filter_sublist.filterMap _) h.indexed
  have hall : ∀ key ∈ (db.completed k).map Stored.key, key = some k := by
    intro key hkey
    obtain ⟨row, hrow, rfl⟩ := List.mem_map.mp hkey
    exact (mem_completed.mp hrow).2.1
  have hkeys : (db.completed k).filterMap Stored.key =
      List.replicate (db.completed k).length k := by
    have hmap := List.eq_replicate_of_mem hall
    rw [List.length_map] at hmap
    have hcompose : (db.completed k).filterMap Stored.key =
        ((db.completed k).map Stored.key).filterMap id := by
      rw [List.filterMap_map]
      rfl
    rw [hcompose, hmap]
    simp
  rw [hkeys] at hsub
  exact List.nodup_replicate.mp hsub

/-- A committed answer has a committed event. -/
theorem Sound.completed_pos (h : Sound rows db) {k : TaskKey} {t : Nat} {b : Bool}
    (hcommitted : db.phase t = .committed) (hanswer : (k, b) ∈ db.returned t) :
    0 < (db.completed k).length := by
  have hnot : db.phase t ≠ .rolledBack := by rw [hcommitted]; simp
  have hrow : ∃ row ∈ db.rows, row.key = some k ∧ db.Visible t row := by
    cases b with
    | false => exact (h.honest t).seen k hanswer hnot
    | true =>
        obtain ⟨row, hmem, howner, hkey⟩ := ((h.honest t).holds k).mpr ⟨hnot, Or.inl hanswer⟩
        exact ⟨row, hmem, hkey, Or.inl howner⟩
  obtain ⟨row, hmem, hkey, hvisible⟩ := hrow
  have hsettled : db.Settled row.owner := by
    cases hvisible with
    | inl howner =>
        rw [howner]
        exact hcommitted
    | inr hsettled => exact hsettled
  exact List.length_pos_of_mem (mem_completed.mpr ⟨hmem, hkey, hsettled⟩)

/-- A task whose event was there before is answered `True` to nobody. -/
theorem Sound.not_true_of_earlier (h : Sound rows db) {k : TaskKey}
    (hearlier : k ∈ rows.filterMap indexKey) {t : Nat} (hnot : db.phase t ≠ .rolledBack) :
    (k, true) ∉ db.returned t := by
  intro hanswer
  obtain ⟨r, hr, hrkey⟩ := List.mem_filterMap.mp hearlier
  obtain ⟨row, hmem, howner, hkey⟩ := ((h.honest t).holds k).mpr ⟨hnot, Or.inl hanswer⟩
  have hsame := h.indexed.eq_of_key hmem (h.earlier r hr) hkey hrkey
  rw [hsame] at howner
  cases howner

/-- A task whose event was not there before is answered `True` in the transaction that
wrote the event, and nowhere else. -/
theorem Sound.true_of_new (h : Sound rows db) {k : TaskKey}
    (hnew : k ∉ rows.filterMap indexKey) (hpos : 0 < (db.completed k).length) :
    ∃ t, db.phase t = .committed ∧ (db.returned t).count (k, true) = 1 ∧
      ∀ u, db.phase u = .committed → (k, true) ∈ db.returned u → u = t := by
  obtain ⟨row, hrow⟩ := List.exists_mem_of_length_pos hpos
  obtain ⟨hmem, hkey, hsettled⟩ := mem_completed.mp hrow
  cases howner : row.owner with
  | none => exact absurd (List.mem_filterMap.mpr ⟨_, h.unowned row hmem howner, hkey⟩) hnew
  | some t =>
      rw [howner] at hsettled
      have hcommitted : db.phase t = .committed := hsettled
      refine ⟨t, hcommitted, ?_, ?_⟩
      · obtain ⟨-, hanswer | ⟨call, heq, -⟩⟩ := ((h.honest t).holds k).mp ⟨row, hmem, howner, hkey⟩
        · have hcount := List.count_pos_iff.mpr hanswer
          have honce := (h.honest t).once k
          omega
        · rw [hcommitted] at heq
          cases heq
      · intro u hu hanswer
        obtain ⟨other, hother, hotherOwner, hotherKey⟩ :=
          ((h.honest u).holds k).mpr ⟨by rw [hu]; simp, Or.inl hanswer⟩
        have hsame := h.indexed.eq_of_key hother hmem hotherKey hkey
        rw [hsame, howner] at hotherOwner
        exact (Option.some.inj hotherOwner).symm

/-- Whatever transactions run beside each other, and in whatever order: as soon as one
that called for a task is committed there is exactly one event for it, which one committed
call answered `True` unless the event was there before, and a call that has returned or
raised leaves a transaction that takes statements. -/
theorem completion_event_once (hupgrade : upgrade rows = .ok ()) {events : List Event}
    (hrun : Run step (fun _ _ => True) (start rows) events db) (k : TaskKey) :
    (db.completed k).length ≤ 1 ∧
      ((∃ t b, db.phase t = .committed ∧ (k, b) ∈ db.returned t) →
        (db.completed k).length = 1 ∧
          if k ∈ rows.filterMap indexKey then
            ∀ t, db.phase t = .committed → (k, true) ∉ db.returned t
          else
            ∃ t, db.phase t = .committed ∧ (db.returned t).count (k, true) = 1 ∧
              ∀ u, db.phase u = .committed → (k, true) ∈ db.returned u → u = t) ∧
      ∀ t, (db.phase t).Outside → (db.txn t).usable = true := by
  have hsound := sound_of_run hupgrade hrun
  have hle := hsound.completed_le_one k
  refine ⟨hle, ?_, ?_⟩
  · rintro ⟨t, b, hcommitted, hanswer⟩
    have hpos := hsound.completed_pos hcommitted hanswer
    refine ⟨by omega, ?_⟩
    split_ifs with hearlier
    · intro u hu
      exact hsound.not_true_of_earlier hearlier (by rw [hu]; simp)
    · exact hsound.true_of_new hearlier hpos
  · intro t houtside
    cases husable : (db.txn t).usable with
    | true => rfl
    | false =>
        obtain ⟨call, hviolated⟩ := (hsound.honest t).usable husable
        rw [hviolated] at houtside
        exact houtside.elim

/-- A call for the completion of a task. -/
def sampleCall : Call := ⟨"t".toList, 1, "g".toList, 7⟩

/-- Two requests at once: the second one meets the first one's event in the index. -/
def sampleRace : List Event :=
  [.look 0 sampleCall false, .look 1 sampleCall false, .beginNested 0, .beginNested 1,
    .insert 0 1 none none, .release 0, .commit 0, .insert 1 2 none none,
    .rollbackToSavepoint 1, .lookAgain 1 true, .commit 1]

/-- What a state shows of two transactions. -/
def shown (db : Db) : List (TaskKey × Bool) × List (TaskKey × Bool) × Bool × Bool :=
  (db.returned 0, db.returned 1, decide (db.phase 0 = .committed),
    decide (db.phase 1 = .committed))

theorem completion_event_once_race :
    ∃ db, Run step (fun _ _ => True) (start []) sampleRace db ∧
      (db.completed sampleCall.key).length = 1 ∧
      (sampleCall.key, true) ∈ db.returned 0 ∧ (sampleCall.key, false) ∈ db.returned 1 := by
  have hupgrade : upgrade [] = .ok () := by decide
  have hexec : (exec step (fun _ _ => True) (start []) sampleRace).map shown =
      some ([(sampleCall.key, true)], [(sampleCall.key, false)], true, true) := by decide
  obtain ⟨db, hrun, hshown⟩ := run_of_exec_map hexec
  simp only [shown, Prod.mk.injEq, decide_eq_true_eq] at hshown
  obtain ⟨htrue, hfalse, hcommitted, -⟩ := hshown
  have hanswer : (sampleCall.key, true) ∈ db.returned 0 := by rw [htrue]; simp
  have honce := (completion_event_once hupgrade hrun sampleCall.key).2.1
    ⟨0, true, hcommitted, hanswer⟩
  exact ⟨db, hrun, honce.1, hanswer, by rw [hfalse]; simp⟩

/-- The event was recorded before: the only committed call answers `False`. -/
theorem none_true_of_recorded :
    ∃ db, upgrade [sampleCall.record 1 none none] = .ok () ∧
      Run step (fun _ _ => True) (start [sampleCall.record 1 none none])
        [.look 0 sampleCall true, .commit 0] db ∧
      db.phase 0 = .committed ∧ (sampleCall.key, false) ∈ db.returned 0 ∧
      ∀ t, db.phase t = .committed → (sampleCall.key, true) ∉ db.returned t := by
  have hupgrade : upgrade [sampleCall.record 1 none none] = .ok () := by decide
  have hearlier : sampleCall.key ∈ [sampleCall.record 1 none none].filterMap indexKey := by decide
  have hexec : (exec step (fun _ _ => True) (start [sampleCall.record 1 none none])
      [.look 0 sampleCall true, .commit 0]).map shown =
        some ([(sampleCall.key, false)], [], true, false) := by decide
  obtain ⟨db, hrun, hshown⟩ := run_of_exec_map hexec
  simp only [shown, Prod.mk.injEq, decide_eq_true_eq] at hshown
  obtain ⟨hfalse, -, hcommitted, -⟩ := hshown
  refine ⟨db, hupgrade, hrun, hcommitted, by rw [hfalse]; simp, ?_⟩
  intro t ht
  exact (sound_of_run hupgrade hrun).not_true_of_earlier hearlier (by rw [ht]; simp)

end Outcome

end M8flow.Workflow.CompletionEvents
