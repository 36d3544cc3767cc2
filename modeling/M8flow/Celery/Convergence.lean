import M8flow.Celery.Recorder
import Mathlib.Data.List.Rotate

/-!
# When the history of a task converges

The upserts of one task's signals commit in any order, among those of other
tasks.  The state column has a rule for late writes: a finished state stays, so
the row ends with the final state.  The retry count has none: it is the count of
whichever upsert with a count commits last.

- `finished_history` keeps a finished state over a run of commits;
- `state_history` gives the final state of an execution;
- `retries_history` gives its retry count;
- `converges_iff` says exactly in which orders the row converges.
-/

namespace M8flow.Celery

open M8flow.Lib M8flow.Lib.Table

/-! ## Commits -/

/-- The upsert of one signal, at the moment its transaction commits. -/
structure Commit where
  taskId : Text
  signal : Signal
  /-- The clock in the handler, and in `_upsert`. -/
  handledAt : Nat
  now : Nat
  /-- The database of the writer has `INSERT ... ON CONFLICT`. -/
  native : Bool

section History

variable (redactBounded : Json → Nat → Text)

/-- The values of a commit. -/
def Commit.values (c : Commit) : Values :=
  (handle redactBounded c.handledAt c.signal).stamped c.now

/-- The table after a commit. -/
def commit (rows : List TaskRow) (c : Commit) : List TaskRow :=
  record true c.native c.now c.taskId (handle redactBounded c.handledAt c.signal) rows

/-- The table after commits in the order of the list. -/
def history (rows : List TaskRow) (commits : List Commit) : List TaskRow :=
  commits.foldl (commit redactBounded) rows

/-- The row of a task after commits of that task. -/
def rowHistory (taskId : Text) (row : Option TaskRow) (commits : List Commit) : Option TaskRow :=
  commits.foldl (fun row c => some (written taskId (c.values redactBounded) row)) row

/-- The commits of one task. -/
def commitsOf (taskId : Text) (commits : List Commit) : List Commit :=
  commits.filter fun c => c.taskId = taskId

/-- The row of a task depends on the commits of that task alone. -/
theorem lookup_history {taskId : Text} (hid : taskId ≠ []) (rows : List TaskRow)
    (commits : List Commit) :
    lookup TaskRow.taskId (history redactBounded rows commits) taskId =
      rowHistory redactBounded taskId (lookup TaskRow.taskId rows taskId)
        (commitsOf taskId commits) := by
  induction commits generalizing rows with
  | nil => rfl
  | cons c commits ih =>
      show lookup TaskRow.taskId (history redactBounded (commit redactBounded rows c) commits)
        taskId = _
      rw [ih]
      by_cases hc : c.taskId = taskId
      · have hcommit : lookup TaskRow.taskId (commit redactBounded rows c) taskId =
            some (written taskId (c.values redactBounded)
              (lookup TaskRow.taskId rows taskId)) := by
          unfold commit record
          rw [if_neg (by simp [hc, hid]), hc]
          exact lookup_upsert_self _ _ _ _ _
        rw [hcommit, commitsOf, commitsOf, List.filter_cons_of_pos (by simpa using hc)]
        rfl
      · have hcommit : lookup TaskRow.taskId (commit redactBounded rows c) taskId =
            lookup TaskRow.taskId rows taskId := by
          unfold commit record
          split
          · rfl
          · exact lookup_upsert_ne _ _ _ hc _
        rw [hcommit, commitsOf, commitsOf, List.filter_cons_of_neg (by simpa using hc)]

/-! ## The state column -/

/-- The row has a finished state. -/
def Finished (row : Option TaskRow) : Prop := ∃ r, row = some r ∧ r.state ∈ finishedStates

/-- What one upsert leaves in the state column. -/
theorem state_written (taskId : Text) (values : Values) (row : TaskRow) :
    (written taskId values (some row)).state =
      if keeps values.keep row.state then row.state else values.state.getD row.state := by
  show (assign _ row).state = _
  split
  · rfl
  · rfl

/-- A write of an unfinished state keeps every finished one. -/
theorem keeps_finished {values : Values} {state : CeleryTaskState} {kept : State}
    (hstate : values.state = some (.known state)) (hopen : .known state ∉ finishedStates)
    (hkept : kept ∈ finishedStates) : keeps values.keep kept = true := by
  have hkeep : values.keep = keepExisting (.known state) := by simp [Values.keep, hstate]
  rw [hkeep]
  cases state with
  | received => simp [keepExisting, keeps, hkept]
  | started => simpa [keepExisting, keeps] using hkept
  | retry => simpa [keepExisting, keeps] using hkept
  | success | failure | revoked => simp [finishedStates] at hopen

/-- A write of a finished state keeps nothing. -/
theorem keeps_of_finished {values : Values} {state : State} (hstate : values.state = some state)
    (hfinished : state ∈ finishedStates) (kept : State) : keeps values.keep kept = false := by
  have hkeep : values.keep = keepExisting state := by simp [Values.keep, hstate]
  rw [hkeep]
  simp only [finishedStates, List.mem_cons, List.not_mem_nil, or_false] at hfinished
  obtain rfl | rfl | rfl := hfinished
  · rfl
  · rfl
  · rfl

/-- The state that a signal reports. -/
def Signal.reports : Signal → Option State
  | .received _ => some (.known .received)
  | .prerun _ => some (.known .started)
  | .postrun _ state _ => state.filter fun name => name ≠ .other ""
  | .failure _ _ => some (.known .failure)
  | .retry _ _ _ => some (.known .retry)
  | .revoked _ _ _ _ => some (.known .revoked)

theorem state_values (c : Commit) : (c.values redactBounded).state = c.signal.reports := by
  unfold Commit.values
  cases c.signal <;> rfl

/-- A commit keeps a finished state, unless it reports a state that is none of the
recorder's own. -/
theorem finished_commit {taskId : Text} {c : Commit} {row : Option TaskRow}
    (hreports : ∀ state ∈ c.signal.reports, ∃ known, state = .known known)
    (h : Finished row) : Finished (some (written taskId (c.values redactBounded) row)) := by
  obtain ⟨r, rfl, hr⟩ := h
  refine ⟨_, rfl, ?_⟩
  rw [state_written]
  have hstate := state_values redactBounded c
  cases hrep : c.signal.reports with
  | none =>
      rw [hstate, hrep]
      split
      · exact hr
      · exact hr
  | some state =>
      obtain ⟨known, rfl⟩ := hreports state hrep
      rw [hrep] at hstate
      by_cases hfinished : State.known known ∈ finishedStates
      · rw [keeps_of_finished hstate hfinished, hstate]
        exact hfinished
      · rw [if_pos (keeps_finished hstate hfinished hr)]
        exact hr

/-- A finished state stays over a run of such commits. -/
theorem finished_history {taskId : Text} {commits : List Commit} {row : Option TaskRow}
    (hreports : ∀ c ∈ commits, ∀ state ∈ c.signal.reports, ∃ known, state = .known known)
    (h : Finished row) : Finished (rowHistory redactBounded taskId row commits) := by
  induction commits generalizing row with
  | nil => exact h
  | cons c commits ih =>
      apply ih
      · intro d hd
        exact hreports d (List.mem_cons_of_mem c hd)
      · exact finished_commit redactBounded (hreports c List.mem_cons_self) h

/-- A commit that reports a finished state leaves that state. -/
theorem state_of_report {taskId : Text} {c : Commit} {state : State} (row : Option TaskRow)
    (hrep : c.signal.reports = some state) (hfinished : state ∈ finishedStates) :
    (written taskId (c.values redactBounded) row).state = state := by
  have hstate : (c.values redactBounded).state = some state := by
    rw [state_values, hrep]
  cases row with
  | none => simp [written, inserted, hstate]
  | some r =>
      rw [state_written, keeps_of_finished hstate hfinished, hstate]
      rfl

/-! ## The retry count -/

/-- The retry count of a row, which is 0 before there is one. -/
def retriesOf (row : Option TaskRow) : Int := (row.map TaskRow.retries).getD 0

/-- The retry count that the upsert of a signal carries. -/
def Signal.count : Signal → Option Int
  | .received request => some (request.retries.getD 0)
  | .retry retries _ _ => some (retries.getD 0 + 1)
  | _ => none

theorem retries_values (c : Commit) : (c.values redactBounded).retries = c.signal.count := by
  unfold Commit.values
  cases c.signal <;> rfl

theorem retries_written (taskId : Text) (values : Values) (row : Option TaskRow) :
    (written taskId values row).retries = values.retries.getD (retriesOf row) := by
  cases row with
  | none => rfl
  | some r =>
      show (assign _ r).retries = _
      split
      · rfl
      · rfl

/-- The counts of a list of commits, in their order. -/
def counts (commits : List Commit) : List Int := commits.filterMap fun c => c.signal.count

/-- The count of the row is that of the last upsert that carries one. -/
theorem retries_history {taskId : Text} (row : Option TaskRow) (commits : List Commit) :
    retriesOf (rowHistory redactBounded taskId row commits) =
      (counts commits).getLast?.getD (retriesOf row) := by
  induction commits generalizing row with
  | nil => rfl
  | cons c commits ih =>
      show retriesOf (rowHistory redactBounded taskId
        (some (written taskId (c.values redactBounded) row)) commits) = _
      rw [ih]
      have hrow : retriesOf (some (written taskId (c.values redactBounded) row)) =
          c.signal.count.getD (retriesOf row) := by
        rw [← retries_values redactBounded c]
        exact retries_written taskId _ row
      rw [hrow, counts, counts]
      cases hcount : c.signal.count with
      | none => simp [hcount]
      | some k => simp [hcount, List.getLast?_cons]

end History

/-! ## Executions -/

/-- The signals of one execution of a task, in any order: with `n` retries, attempts 0 to
`n` are received and each but the last is retried, and the last one ends in `final`. -/
structure Execution (n : Nat) (final : CeleryTaskState) (signals : List Signal) : Prop where
  finished : .known final ∈ finishedStates
  received : ∀ k ≤ n, ∃ request : Request,
    .received request ∈ signals ∧ request.retries.getD 0 = k
  retried : ∀ k < n, ∃ retries reason traceback,
    .retry retries reason traceback ∈ signals ∧ retries.getD 0 = (k : Int)
  ended : ∃ signal ∈ signals, signal.reports = some (.known final)
  /-- A finished state is reported as the final one only. -/
  reports : ∀ signal ∈ signals, ∃ state, signal.reports = some (.known state) ∧
    (.known state ∈ finishedStates → state = final)
  /-- Every count is that of an attempt. -/
  counted : ∀ signal ∈ signals, ∀ count ∈ signal.count, 0 ≤ count ∧ count ≤ n

/-- An execution is one in whatever order its signals are listed. -/
theorem Execution.perm {n : Nat} {final : CeleryTaskState} {signals order : List Signal}
    (h : Execution n final signals) (hperm : signals.Perm order) : Execution n final order where
  finished := h.finished
  received := by
    intro k hk
    obtain ⟨request, hmem, hcount⟩ := h.received k hk
    exact ⟨request, hperm.mem_iff.mp hmem, hcount⟩
  retried := by
    intro k hk
    obtain ⟨retries, reason, traceback, hmem, hcount⟩ := h.retried k hk
    exact ⟨retries, reason, traceback, hperm.mem_iff.mp hmem, hcount⟩
  ended := by
    obtain ⟨signal, hmem, hrep⟩ := h.ended
    exact ⟨signal, hperm.mem_iff.mp hmem, hrep⟩
  reports := fun signal hmem => h.reports signal (hperm.mem_iff.mpr hmem)
  counted := fun signal hmem => h.counted signal (hperm.mem_iff.mpr hmem)

section Converges

variable (redactBounded : Json → Nat → Text)

/-- The row of a task converges over commits: a finished state stays finished, and after
all of them the row has the final state and the retry count. -/
structure Converges (rows : List TaskRow) (taskId : Text) (commits : List Commit) (n : Nat)
    (final : CeleryTaskState) : Prop where
  stays : ∀ before middle after, commits = before ++ middle ++ after →
    Finished (lookup TaskRow.taskId (history redactBounded rows before) taskId) →
    Finished (lookup TaskRow.taskId (history redactBounded rows (before ++ middle)) taskId)
  ends : ∃ row, lookup TaskRow.taskId (history redactBounded rows commits) taskId = some row ∧
    row.state = .known final ∧ row.retries = n

/-- The last upsert to commit of those that carry a retry count carries `n`. -/
def LastCount (n : Nat) (commits : List Commit) : Prop :=
  (counts commits).getLast?.getD 0 = n

instance (n : Nat) (commits : List Commit) : Decidable (LastCount n commits) := by
  unfold LastCount
  infer_instance

/-- Without retries every order has the right last count. -/
theorem lastCount_zero {final : CeleryTaskState} {commits : List Commit}
    (h : Execution 0 final (commits.map Commit.signal)) : LastCount 0 commits := by
  unfold LastCount
  cases hlast : (counts commits).getLast? with
  | none => rfl
  | some count =>
      have hmem : count ∈ counts commits := List.mem_of_getLast? hlast
      obtain ⟨c, hc, hcount⟩ := List.mem_filterMap.mp hmem
      have hbound := h.counted c.signal (List.mem_map_of_mem hc) count hcount
      show count = 0
      omega

variable {redactBounded}

/-- Commits that report no finished state but the final one leave the final state, if the
row had it or one of them reports it. -/
theorem state_history {taskId : Text} {final : CeleryTaskState}
    (commits : List Commit) (row : Option TaskRow) (hfinal : .known final ∈ finishedStates)
    (hreports : ∀ c ∈ commits, ∃ state, c.signal.reports = some (.known state) ∧
      (.known state ∈ finishedStates → state = final))
    (h : (∃ r, row = some r ∧ r.state = .known final) ∨
      ∃ c ∈ commits, c.signal.reports = some (.known final)) :
    ∃ r, rowHistory redactBounded taskId row commits = some r ∧ r.state = .known final := by
  induction commits generalizing row with
  | nil =>
      obtain h | ⟨c, hc, _⟩ := h
      · exact h
      · cases hc
  | cons c commits ih =>
      show ∃ r, rowHistory redactBounded taskId
        (some (written taskId (c.values redactBounded) row)) commits = some r ∧ _
      apply ih
      · intro d hd
        exact hreports d (List.mem_cons_of_mem c hd)
      obtain ⟨state, hrep, honly⟩ := hreports c List.mem_cons_self
      by_cases hfinished : State.known state ∈ finishedStates
      · left
        refine ⟨_, rfl, ?_⟩
        rw [state_of_report redactBounded row hrep hfinished, honly hfinished]
      · obtain ⟨r, rfl, hr⟩ | ⟨d, hd, hdrep⟩ := h
        · left
          have hstate : (c.values redactBounded).state = some (.known state) := by
            rw [state_values, hrep]
          refine ⟨_, rfl, ?_⟩
          rw [state_written, if_pos (keeps_finished hstate hfinished (hr ▸ hfinal))]
          exact hr
        · right
          obtain rfl | hd := List.mem_cons.mp hd
          · rw [hrep] at hdrep
            cases hdrep
            exact absurd hfinal hfinished
          · exact ⟨d, hd, hdrep⟩

/-- The history of an execution converges exactly in the orders in which an upsert with
its last retry count is the last one with a count to commit. -/
theorem converges_iff {rows : List TaskRow} {taskId : Text} {commits : List Commit} {n : Nat}
    {final : CeleryTaskState} (hid : taskId ≠ [])
    (hnew : lookup TaskRow.taskId rows taskId = none)
    (hexec : Execution n final ((commitsOf taskId commits).map Commit.signal)) :
    Converges redactBounded rows taskId commits n final ↔
      LastCount n (commitsOf taskId commits) := by
  have hreports : ∀ c ∈ commitsOf taskId commits, ∃ state,
      c.signal.reports = some (.known state) ∧ (.known state ∈ finishedStates → state = final) :=
    fun c hc => hexec.reports c.signal (List.mem_map_of_mem hc)
  have hended : ∃ c ∈ commitsOf taskId commits, c.signal.reports = some (.known final) := by
    obtain ⟨signal, hmem, hrep⟩ := hexec.ended
    obtain ⟨c, hc, rfl⟩ := List.mem_map.mp hmem
    exact ⟨c, hc, hrep⟩
  obtain ⟨row, hrow, hstate⟩ : ∃ row,
      rowHistory redactBounded taskId none (commitsOf taskId commits) = some row ∧
        row.state = .known final :=
    state_history (commitsOf taskId commits) none hexec.finished hreports (.inr hended)
  have hretries : retriesOf (rowHistory redactBounded taskId none (commitsOf taskId commits)) =
      (counts (commitsOf taskId commits)).getLast?.getD (retriesOf none) :=
    retries_history redactBounded none (commitsOf taskId commits)
  have hlookup := lookup_history redactBounded hid rows commits
  rw [hnew, hrow] at hlookup
  have hcount : row.retries = (counts (commitsOf taskId commits)).getLast?.getD 0 := by
    rw [hrow] at hretries
    exact hretries
  constructor
  · intro h
    obtain ⟨row', hrow', _, hn⟩ := h.ends
    rw [hlookup] at hrow'
    cases hrow'
    unfold LastCount
    rw [← hcount]
    exact hn
  · intro h
    refine ⟨?_, row, hlookup, hstate, hcount.trans h⟩
    intro before middle after hsplit hfinished
    rw [lookup_history redactBounded hid] at hfinished ⊢
    have hmore : commitsOf taskId (before ++ middle) =
        commitsOf taskId before ++ commitsOf taskId middle := List.filter_append _ _
    rw [hmore, rowHistory, List.foldl_append]
    apply finished_history redactBounded _ hfinished
    intro c hc state hrep
    have hmem : c ∈ commitsOf taskId commits := by
      rw [hsplit, commitsOf, List.filter_append, List.filter_append]
      exact List.mem_append_left _ (List.mem_append_right _ hc)
    obtain ⟨known, hknown, _⟩ := hreports c hmem
    rw [hknown] at hrep
    cases hrep
    exact ⟨known, rfl⟩

end Converges

/-! ## One retry -/

/-- A request of which only the retry count is read. -/
def requestOf (retries : Int) : Request :=
  { name := none, hostname := none, routingKey := none, tenantHeaders := [], args := none,
    kwargs := none, retries := some retries, eta := none, expires := none, parentId := none,
    rootId := none }

/-- Commits of a task's signals, one tick apart. -/
def commitsAt (taskId : Text) (signals : List Signal) : List Commit :=
  signals.zipIdx.map fun (signal, tick) => ⟨taskId, signal, tick, tick, true⟩

/-- A task that is retried once and succeeds, in the order in which the worker sends its
signals. -/
def retriedOnce : List Signal :=
  [.received (requestOf 0), .prerun (requestOf 0), .retry (some 0) none none,
   .postrun none (some (.known .retry)) none, .received (requestOf 1), .prerun (requestOf 1),
   .postrun none (some (.known .success)) none]

theorem execution_retriedOnce : Execution 1 .success retriedOnce where
  finished := by decide
  received := by
    intro k hk
    refine ⟨requestOf k, ?_, rfl⟩
    have hcases : k = 0 ∨ k = 1 := by omega
    obtain rfl | rfl := hcases
    · simp [retriedOnce]
    · simp [retriedOnce]
  retried := by
    intro k hk
    refine ⟨some k, none, none, ?_, rfl⟩
    have hzero : k = 0 := by omega
    subst hzero
    simp [retriedOnce]
  ended := ⟨.postrun none (some (.known .success)) none, by simp [retriedOnce], rfl⟩
  reports := by simp [retriedOnce, Signal.reports, finishedStates]
  counted := by simp [retriedOnce, Signal.count, requestOf]

/-- The order of the signals converges. -/
theorem converges_iff_retriedOnce :
    Converges (fun _ _ => []) [] ['t'] (commitsAt ['t'] retriedOnce) 1 .success :=
  (converges_iff (by decide) rfl execution_retriedOnce).mpr (by decide)

/-- The first attempt's received signal, recorded by the main process, commits after the
pool's signals: the row of a task that was retried once counts no retry. -/
theorem late_received_loses_retry :
    Execution 1 .success ((commitsOf ['t'] (commitsAt ['t'] (retriedOnce.rotate 1))).map
      Commit.signal) ∧
    ¬ Converges (fun _ _ => []) [] ['t'] (commitsAt ['t'] (retriedOnce.rotate 1)) 1 .success := by
  refine ⟨execution_retriedOnce.perm (List.rotate_perm _ 1).symm, ?_⟩
  intro h
  obtain ⟨row, hrow, _, hretries⟩ := h.ends
  have hcounts : (lookup TaskRow.taskId (history (fun _ _ => []) []
      (commitsAt ['t'] (retriedOnce.rotate 1))) ['t']).map TaskRow.retries = some 0 := by
    decide +kernel
  rw [hrow] at hcounts
  simp [hretries] at hcounts

end M8flow.Celery
