import M8flow.Workflow.Complete

/-!
# When a completion is durable

Starting from a transaction that has committed nothing, `complete` either leaves
the committed tables as they were or commits tables in which the work item is
completed (`Kept`).  When it returns and no save of new links was refused, the
transaction still shows the completed work item and the caller's own change of
its row (`Resumed`).
-/

namespace M8flow.Workflow

open M8flow.Lib M8flow.ExternalForm

variable {κ : Type}

/-- No save of follow-up links is refused. -/
def EmissionSaved (env : Env) : Prop := ∀ taskId, env.commitFails (.emission taskId) = none

section Assertions

variable (env : Env) (db : Db κ) (rows : List Request) (done : κ → Prop)

/-- Nothing is committed, and the transaction shows `rows`. -/
def InFlight (s : Session κ) : Prop :=
  s.committed = db ∧ s.flush.working.rows = rows

/-- Nothing is committed, and the transaction shows the completed task. -/
def CompletedInFlight (s : Session κ) : Prop :=
  InFlight db rows s ∧ done s.working.core

/-- The committed tables are the original ones, or show the completed task. -/
def Kept (s : Session κ) : Prop := s.committed = db ∨ done s.committed.core

/-- The transaction shows the completed task and `rows`, with links added. -/
def Shown (s : Session κ) : Prop :=
  done s.working.core ∧ ∃ added, s.flush.working.rows = rows ++ added

/-- What holds after a completion that returned. -/
def Resumed (s : Session κ) : Prop :=
  Kept db done s ∧ (EmissionSaved env → Shown rows done s)

end Assertions

section Rules

variable {env : Env} {core : Core κ} {db : Db κ} {rows : List Request} {done : κ → Prop}

/-- A core command keeps what is in flight; what it does to core's tables is its
own affair. -/
theorem runCore_inFlight {α : Type} {command : κ → Except Failure α × κ} (shown : κ → Prop)
    (post : α → κ → Prop) (exc : Failure → κ → Prop)
    (hok : ∀ tables a tables', shown tables → command tables = (.ok a, tables') →
      post a tables')
    (herror : ∀ tables e tables', shown tables → command tables = (.error e, tables') →
      exc e tables') :
    Proc.Triple (fun s => InFlight db rows s ∧ shown s.working.core) (runCore core command)
      (fun a s => InFlight db rows s ∧ post a s.working.core)
      (fun e s => InFlight db rows s ∧ exc e s.working.core) := by
  intro s hpre
  obtain ⟨⟨hcommitted, hrows⟩, hshown⟩ := hpre
  obtain ⟨s', hrun, hcommitted', hrows', hcore'⟩ := runCore_run core command s
  have hflight : InFlight db rows s' := ⟨hcommitted'.trans hcommitted, hrows'.trans hrows⟩
  rcases hcommand : command s.working.core with ⟨result, tables'⟩
  rw [hcommand] at hrun hcore'
  rw [hrun]
  cases result with
  | ok a =>
      refine ⟨hflight, ?_⟩
      rw [hcore']
      exact hok _ a tables' hshown hcommand
  | error e =>
      refine ⟨hflight, ?_⟩
      rw [hcore']
      exact herror _ e tables' hshown hcommand

/-- A core command about which nothing is known keeps what is in flight. -/
theorem runCore_keeps {α : Type} {command : κ → Except Failure α × κ} :
    Proc.Triple (InFlight db rows) (runCore core command)
      (fun _ s => InFlight db rows s) (fun _ s => InFlight db rows s) := by
  have h : Proc.Triple (fun s => InFlight db rows s ∧ True) (runCore core command)
      (fun _ s => InFlight db rows s ∧ True) (fun _ s => InFlight db rows s ∧ True) :=
    runCore_inFlight (fun _ => True) (fun _ _ => True) (fun _ _ => True)
      (fun _ _ _ _ _ => trivial) (fun _ _ _ _ _ => trivial)
  exact h.consequence (fun _ hs => ⟨hs, trivial⟩) (fun _ _ hs => hs.1) (fun _ _ hs => hs.1)

/-- The suspension guard changes nothing. -/
theorem suspended_guard {pre : Session κ → Prop} (tenantId : String) (workItemId : Nat)
    (action : String) :
    Proc.Triple pre (rejectTaskWriteIfInstanceSuspended core tenantId workItemId action)
      (fun _ => pre) (fun _ => pre) := by
  unfold rejectTaskWriteIfInstanceSuspended
  apply Proc.Triple.bind (fun _ => pre) (Proc.Triple.read fun s hs => hs)
  intro s
  split
  · exact Proc.Triple.pure fun _ hs => hs
  · apply Proc.Triple.ite
    · intro _
      exact Proc.Triple.raise fun _ hs => hs
    · intro _
      exact Proc.Triple.pure fun _ hs => hs

/-- The in-app guard changes nothing. -/
theorem inApp_guard {pre : Session κ → Prop} (tenantId : String) (workItemId : Nat) :
    Proc.Triple pre (rejectInAppCompletion env core tenantId workItemId)
      (fun _ => pre) (fun _ => pre) := by
  unfold rejectInAppCompletion
  apply Proc.Triple.bind (fun _ => pre) (Proc.Triple.read fun s hs => hs)
  intro s
  exact Proc.Triple.ofExcept (fun _ _ _ hs => hs) (fun _ _ _ hs => hs)

theorem claim_keeps (tenantId : String) (workItemId userId : Nat) :
    Proc.Triple (InFlight db rows) (claim core tenantId workItemId userId)
      (fun _ => InFlight db rows) (fun _ => InFlight db rows) := by
  unfold claim
  apply Proc.Triple.tryExcept fun _ => InFlight db rows
  · apply Proc.Triple.bind _ (suspended_guard tenantId workItemId "claim")
    intro _
    exact runCore_keeps
  · intro failure
    split
    · exact Proc.Triple.raise fun _ hs => hs
    · exact Proc.Triple.raise fun _ hs => hs

/-- Core's completion, when it returns, has completed the work item. -/
theorem completeTask_completes (hlaws : core.Laws) (tenantId : String)
    (workItemId userId : Nat) (payload : Option (List (Text × Text))) :
    Proc.Triple (InFlight db rows)
      (runCore core fun tables => core.completeTask tables tenantId workItemId userId payload)
      (fun _ => CompletedInFlight db rows fun tables => core.Done tables workItemId)
      (fun _ => InFlight db rows) := by
  have h : Proc.Triple (fun s => InFlight db rows s ∧ True)
      (runCore core fun tables => core.completeTask tables tenantId workItemId userId payload)
      (fun _ => CompletedInFlight db rows fun tables => core.Done tables workItemId)
      (fun _ s => InFlight db rows s ∧ True) :=
    runCore_inFlight (fun _ => True) (fun _ tables => core.Done tables workItemId)
      (fun _ _ => True)
      (fun tables a tables' _ hrun => hlaws.completes tables tables' _ _ _ _ a hrun)
      (fun _ _ _ _ _ => trivial)
  exact h.consequence (fun _ hs => ⟨hs, trivial⟩) (fun _ _ hs => hs) (fun _ _ hs => hs.1)

/-- A command that reopens no work item keeps a completion in flight. -/
theorem runCore_done {command : κ → Except Failure Unit × κ} {workItemId : Nat}
    (hkeep : ∀ tables, core.Done tables workItemId → core.Done (command tables).2 workItemId) :
    Proc.Triple (CompletedInFlight db rows fun tables => core.Done tables workItemId)
      (runCore core command)
      (fun _ => CompletedInFlight db rows fun tables => core.Done tables workItemId)
      (fun _ => InFlight db rows) := by
  have h : Proc.Triple (CompletedInFlight db rows fun tables => core.Done tables workItemId)
      (runCore core command)
      (fun _ => CompletedInFlight db rows fun tables => core.Done tables workItemId)
      (fun _ s => InFlight db rows s ∧ True) := by
    apply runCore_inFlight (fun tables => core.Done tables workItemId)
      (fun _ tables => core.Done tables workItemId) (fun _ _ => True)
    · intro tables a tables' hdone hrun
      have hafter := hkeep tables hdone
      rw [hrun] at hafter
      exact hafter
    · intro _ _ _ _ _
      trivial
  exact h.consequence (fun _ hs => hs) (fun _ _ hs => hs) (fun _ _ hs => hs.1)

theorem recordCompletedOf_done (hlaws : core.Laws) (tenantId : String) (item : WorkItem)
    (userId workItemId : Nat) :
    Proc.Triple (CompletedInFlight db rows fun tables => core.Done tables workItemId)
      (recordCompletedOf core tenantId item userId)
      (fun _ => CompletedInFlight db rows fun tables => core.Done tables workItemId)
      (fun _ => InFlight db rows) := by
  unfold recordCompletedOf
  apply Proc.Triple.ite
  · intro _
    exact Proc.Triple.pure fun _ hs => hs
  · intro _
    unfold recordTaskCompletedEventIfMissing
    apply Proc.Triple.bind _ (Proc.Triple.read fun s hs => hs)
    intro _
    apply Proc.Triple.ite
    · intro _
      exact Proc.Triple.pure fun _ hs => hs
    · intro _
      exact runCore_done fun tables hdone =>
        hlaws.recordEvent_keeps tables _ _ _ _ _ workItemId hdone

theorem recordFailedStep_done (hlaws : core.Laws) (tenantId : String)
    (processInstanceId : Nat) (taskGuid : Option String) (userId workItemId : Nat) :
    Proc.Triple (CompletedInFlight db rows fun tables => core.Done tables workItemId)
      (recordFailedStep core tenantId processInstanceId taskGuid userId)
      (fun _ => CompletedInFlight db rows fun tables => core.Done tables workItemId)
      (fun _ => InFlight db rows) := by
  unfold recordFailedStep
  split
  · exact Proc.Triple.pure fun _ hs => hs
  · exact runCore_done fun tables hdone =>
      hlaws.recordEvent_keeps tables _ _ _ _ _ workItemId hdone

theorem recordProcessInstanceError_done (tenantId : String) (processInstanceId : Nat)
    (taskGuid : Option String) (message : String) :
    Proc.Triple (CompletedInFlight db rows done)
      (recordProcessInstanceError tenantId processInstanceId taskGuid message)
      (fun _ => CompletedInFlight db rows done) (fun _ => InFlight db rows) := by
  unfold recordProcessInstanceError
  apply Proc.Triple.modify
  intro s hs
  obtain ⟨⟨hcommitted, hrows⟩, hdone⟩ := hs
  refine ⟨⟨hcommitted, ?_⟩, hdone⟩
  rw [← hrows]
  unfold Session.flush
  cases s.dirty <;> rfl

/-- Committing a transaction that shows the completed task keeps it. -/
theorem commitAt_kept (point : CommitPoint) :
    Proc.Triple (CompletedInFlight db rows done) (commitAt env point)
      (fun _ => Kept db done) (fun _ => Kept db done) := by
  unfold commitAt
  split
  · apply Proc.Triple.modify
    intro s hs
    right
    show done s.flush.working.core
    rw [flush_working_core]
    exact hs.2
  · apply Proc.Triple.raise
    intro s hs
    exact Or.inl hs.1.1

/-- Committing the completed task and then reporting a failure. -/
theorem commit_then_raise {α : Type} (point : CommitPoint) (failure : Failure)
    {post : α → Session κ → Prop} :
    Proc.Triple (CompletedInFlight db rows done)
      (do commitAt env point; Proc.raise failure : Tx κ α) post (fun _ => Kept db done) := by
  apply Proc.Triple.bind _ (commitAt_kept point)
  intro _
  exact Proc.Triple.raise fun _ hs => hs

/-- What is in flight is kept: nothing is committed. -/
theorem kept_of_inFlight {s : Session κ} (h : InFlight db rows s) : Kept db done s :=
  Or.inl h.1

theorem keepCompletionOfServiceTask_kept (hlaws : core.Laws) (tenantId : String)
    (userId workItemId : Nat) (item : WorkItem) (message : String)
    {post : Nat → Session κ → Prop} :
    Proc.Triple (CompletedInFlight db rows fun tables => core.Done tables workItemId)
      (keepCompletionOfServiceTask env core tenantId userId item message) post
      (fun _ => Kept db fun tables => core.Done tables workItemId) := by
  unfold keepCompletionOfServiceTask
  apply Proc.Triple.bind
    (fun _ => CompletedInFlight db rows fun tables => core.Done tables workItemId)
  · exact (recordCompletedOf_done hlaws tenantId item userId workItemId).consequence
      (fun _ hs => hs) (fun _ _ hs => hs) (fun _ _ hs => kept_of_inFlight hs)
  · intro _
    exact commit_then_raise .stepFailure _

theorem keepCompletionOfScriptTask_kept (hlaws : core.Laws) (tenantId : String)
    (userId workItemId : Nat) (item : WorkItem) (taskGuid : Option String) (detail : String)
    {post : Nat → Session κ → Prop} :
    Proc.Triple (CompletedInFlight db rows fun tables => core.Done tables workItemId)
      (keepCompletionOfScriptTask env core tenantId userId item taskGuid detail) post
      (fun _ => Kept db fun tables => core.Done tables workItemId) := by
  have weaken : ∀ (e : Failure) (s : Session κ), InFlight db rows s →
      Kept db (fun tables => core.Done tables workItemId) s :=
    fun _ _ hs => kept_of_inFlight hs
  unfold keepCompletionOfScriptTask
  apply Proc.Triple.bind
    (fun _ => CompletedInFlight db rows fun tables => core.Done tables workItemId)
  · exact (recordCompletedOf_done hlaws tenantId item userId workItemId).consequence
      (fun _ hs => hs) (fun _ _ hs => hs) weaken
  intro _
  apply Proc.Triple.bind
    (fun _ => CompletedInFlight db rows fun tables => core.Done tables workItemId)
  · refine Proc.Triple.consequence (runCore_done fun tables hdone => ?_)
      (fun _ hs => hs) (fun _ _ hs => hs) weaken
    exact hlaws.errorInstance_keeps tables tenantId item.processInstanceId userId workItemId hdone
  intro _
  apply Proc.Triple.bind
    (fun _ => CompletedInFlight db rows fun tables => core.Done tables workItemId)
  · exact (recordFailedStep_done hlaws tenantId _ taskGuid userId workItemId).consequence
      (fun _ hs => hs) (fun _ _ hs => hs) weaken
  intro _
  apply Proc.Triple.bind
    (fun _ => CompletedInFlight db rows fun tables => core.Done tables workItemId)
  · exact (recordProcessInstanceError_done tenantId _ taskGuid detail).consequence
      (fun _ hs => hs) (fun _ _ hs => hs) weaken
  intro _
  exact commit_then_raise .stepFailure _

/-- Flushing first does not change what is in flight. -/
theorem inFlight_flush {s : Session κ} (h : InFlight db rows s) : InFlight db rows s.flush := by
  obtain ⟨hcommitted, hrows⟩ := h
  refine ⟨?_, ?_⟩
  · rw [flush_committed]
    exact hcommitted
  · rw [flush_flush]
    exact hrows

/-- When the check succeeds, the transaction shows the completed task. -/
theorem taskCompletionIsEstablished_spec (workItem : Option WorkItem) (tenantId : String)
    (processInstanceId : Option Nat) :
    Proc.Triple (InFlight db rows)
      (taskCompletionIsEstablished core workItem tenantId processInstanceId)
      (fun established s => InFlight db rows s ∧
        (established = true → ∃ item, workItem = some item ∧ core.Done s.working.core item.id))
      (fun _ => InFlight db rows) := by
  have hfalse : ∀ {s : Session κ}, InFlight db rows s → InFlight db rows s ∧
      (false = true → ∃ item, workItem = some item ∧ core.Done s.working.core item.id) :=
    fun hs => ⟨hs, fun h => by cases h⟩
  unfold taskCompletionIsEstablished
  split
  · exact Proc.Triple.pure fun _ hs => hfalse hs
  · rename_i item
    apply Proc.Triple.ite
    · intro _
      exact Proc.Triple.pure fun _ hs => hfalse hs
    · intro _
      apply Proc.Triple.bind (fun _ => InFlight db rows)
      · exact Proc.Triple.modify fun _ hs => inFlight_flush hs
      intro _
      apply Proc.Triple.bind fun seen s => InFlight db rows s ∧ seen = s
      · exact Proc.Triple.read fun _ hs => ⟨hs, rfl⟩
      intro seen
      split
      · exact Proc.Triple.pure fun _ hs => hfalse hs.1
      · rename_i stored hstored
        apply Proc.Triple.pure
        intro s hs
        obtain ⟨hflight, rfl⟩ := hs
        refine ⟨hflight, ?_⟩
        intro hestablished
        have hall := of_decide_eq_true hestablished
        exact ⟨item, rfl, stored, hstored, hall.2.2⟩

theorem whenEstablished_kept {workItem : Option WorkItem} {workItemId : Nat}
    (hid : ∀ item, workItem = some item → item.id = workItemId) (tenantId : String)
    (processInstanceId : Option Nat) (failure : Failure) {keep : WorkItem → Tx κ Nat}
    {post : Nat → Session κ → Prop}
    (hkeep : ∀ item,
      Proc.Triple (CompletedInFlight db rows fun tables => core.Done tables workItemId)
        (keep item) post (fun _ => Kept db fun tables => core.Done tables workItemId)) :
    Proc.Triple (InFlight db rows)
      (whenEstablished core workItem tenantId processInstanceId failure keep) post
      (fun _ => Kept db fun tables => core.Done tables workItemId) := by
  unfold whenEstablished
  refine Proc.Triple.bind _ ((taskCompletionIsEstablished_spec workItem tenantId
    processInstanceId).consequence (fun _ hs => hs) (fun _ _ hs => hs)
    fun _ _ hs => kept_of_inFlight hs) ?_
  intro established
  split
  · exact Proc.Triple.raise fun _ hs => kept_of_inFlight hs.1
  · rename_i item
    apply Proc.Triple.ite
    · intro hestablished
      refine (hkeep item).consequence ?_ (fun _ _ hs => hs) (fun _ _ hs => hs)
      intro s hs
      obtain ⟨found, hfound, hdone⟩ := hs.2 hestablished
      rw [hid found hfound] at hdone
      exact ⟨hs.1, hdone⟩
    · intro _
      exact Proc.Triple.raise fun _ hs => kept_of_inFlight hs.1

/-- The exception handler of `complete` always raises, and by then the committed
tables are the original ones or show the completed task. -/
theorem completeHandler_kept (hlaws : core.Laws) (tenantId : String) (userId : Nat)
    {workItem : Option WorkItem} {workItemId : Nat}
    (hid : ∀ item, workItem = some item → item.id = workItemId)
    (processInstanceId : Option Nat) (failure : Failure) {post : Nat → Session κ → Prop} :
    Proc.Triple (InFlight db rows)
      (completeHandler env core tenantId userId workItem processInstanceId failure) post
      (fun _ => Kept db fun tables => core.Done tables workItemId) := by
  unfold completeHandler
  split
  · apply whenEstablished_kept hid
    intro item
    exact keepCompletionOfServiceTask_kept hlaws tenantId userId workItemId item _
  · exact Proc.Triple.raise fun _ hs => kept_of_inFlight hs
  · apply whenEstablished_kept hid
    intro item
    exact keepCompletionOfScriptTask_kept hlaws tenantId userId workItemId item _ _
  · exact Proc.Triple.raise fun _ hs => kept_of_inFlight hs

/-! ## Links of the next tasks -/

theorem flush_of_flushed (s : Session κ) (working : Db κ) :
    ({ s.flush with working := working } : Session κ).flush = { s.flush with working := working } :=
  flush_of_clean (flush_dirty s)

/-- Adding rows to what the transaction shows. -/
theorem shown_add {s : Session κ} (h : Shown rows done s) (created : List Request) :
    Shown rows done
      { s.flush with working :=
          { s.flush.working with rows := s.flush.working.rows ++ created } } := by
  obtain ⟨hdone, added, hrows⟩ := h
  refine ⟨?_, added ++ created, ?_⟩
  · show done s.flush.working.core
    rw [flush_working_core]
    exact hdone
  · rw [flush_of_flushed]
    show s.flush.working.rows ++ created = rows ++ (added ++ created)
    rw [hrows, List.append_assoc]

/-- A commit shows what it committed. -/
theorem shown_commit {s : Session κ} (h : Shown rows done s) :
    done s.commit.committed.core ∧ Shown rows done s.commit := by
  obtain ⟨hdone, added, hrows⟩ := h
  have hcore : done s.flush.working.core := by
    rw [flush_working_core]
    exact hdone
  refine ⟨hcore, hcore, added, ?_⟩
  have hclean : s.commit.flush = s.commit := flush_of_clean (flush_dirty s)
  rw [hclean]
  exact hrows

/-- Creating the links of one task keeps the completion, unless the database
refuses to save them, which rolls the transaction back. -/
theorem createRequestsForTask_resumed (tenantId : String) (task : WorkItem) (url : Text)
    (recipients : List (Nat × Text)) :
    Proc.Triple (fun s => Kept db done s ∧ Shown rows done s)
      (createRequestsForTask env tenantId task url recipients)
      (fun _ s => Kept db done s ∧ Shown rows done s)
      (fun _ => Resumed env db rows done) := by
  unfold createRequestsForTask
  apply Proc.Triple.bind _ (Proc.Triple.read fun _ hs => hs)
  intro seen
  apply Proc.Triple.bind fun _ s => Kept db done s ∧ Shown rows done s
  · apply Proc.Triple.modify
    intro s hs
    refine ⟨?_, shown_add hs.2 _⟩
    unfold Kept
    rw [flush_committed]
    exact hs.1
  intro _
  apply Proc.Triple.tryExcept fun _ s => Kept db done s ∧ ¬ EmissionSaved env
  · unfold commitAt
    split
    · apply Proc.Triple.modify
      intro s hs
      obtain ⟨hdone, hshown⟩ := shown_commit hs.2
      exact ⟨Or.inr hdone, hshown⟩
    · rename_i message hrefused
      apply Proc.Triple.raise
      intro s hs
      refine ⟨hs.1, ?_⟩
      intro hsaved
      rw [hsaved task.id] at hrefused
      cases hrefused
  · intro failure
    apply Proc.Triple.bind fun _ s => Kept db done s ∧ ¬ EmissionSaved env
    · exact Proc.Triple.modify fun _ hs => hs
    intro _
    apply Proc.Triple.raise
    intro s hs
    exact ⟨hs.1, fun hsaved => absurd hsaved hs.2⟩

theorem emitRequestsForReadyTasks_resumed (tenantId : String) (tasks : List WorkItem) :
    Proc.Triple (fun s => Kept db done s ∧ Shown rows done s)
      (emitRequestsForReadyTasks env tenantId tasks)
      (fun _ s => Kept db done s ∧ Shown rows done s)
      (fun _ => Resumed env db rows done) := by
  induction tasks with
  | nil => exact Proc.Triple.pure fun _ hs => hs
  | cons task tasks ih =>
      unfold emitRequestsForReadyTasks
      split
      · exact Proc.Triple.raise fun _ hs => ⟨hs.1, fun _ => hs.2⟩
      · exact ih
      · apply Proc.Triple.ite
        · intro _
          exact ih
        · intro _
          apply Proc.Triple.bind _ (createRequestsForTask_resumed tenantId task _ _)
          intro _
          exact ih

theorem emitExternalFormRequests_resumed (tenantId : String) (processInstanceId : Nat)
    {exc : Failure → Session κ → Prop} :
    Proc.Triple (fun s => Kept db done s ∧ Shown rows done s)
      (emitExternalFormRequests env core tenantId processInstanceId)
      (fun _ => Resumed env db rows done) exc := by
  unfold emitExternalFormRequests
  apply Proc.Triple.bind _ (Proc.Triple.read fun _ hs => hs)
  intro seen
  apply Proc.Triple.tryExcept fun _ => Resumed env db rows done
  · exact (emitRequestsForReadyTasks_resumed tenantId _).consequence (fun _ hs => hs)
      (fun _ _ hs => ⟨hs.1, fun _ => hs.2⟩) (fun _ _ hs => hs)
  · intro _
    exact Proc.Triple.pure fun _ hs => hs

/-! ## Complete -/

/-- `complete` from a transaction that has committed nothing. -/
theorem complete_resumed (hlaws : core.Laws) (tenantId : String) (workItemId userId : Nat)
    (taskPayload : Option FormData) :
    Proc.Triple (InFlight db rows)
      (complete env core tenantId workItemId userId taskPayload)
      (fun _ => Resumed env db rows fun tables => core.Done tables workItemId)
      (fun _ => Kept db fun tables => core.Done tables workItemId) := by
  unfold complete
  apply Proc.Triple.bind _ (Proc.Triple.read fun _ hs => hs)
  intro seen
  apply Proc.Triple.bind
    (fun _ => CompletedInFlight db rows fun tables => core.Done tables workItemId)
  · apply Proc.Triple.tryExcept fun _ => InFlight db rows
    · apply Proc.Triple.bind _ (suspended_guard tenantId workItemId "complete")
      intro _
      apply Proc.Triple.bind _ (inApp_guard tenantId workItemId)
      intro _
      exact completeTask_completes hlaws tenantId workItemId userId _
    · intro failure
      apply completeHandler_kept hlaws
      intro item hitem
      exact Table.key_of_lookup hitem
  intro instanceId
  apply Proc.Triple.bind
    (fun _ => Resumed env db rows fun tables => core.Done tables workItemId)
  · refine (emitExternalFormRequests_resumed tenantId instanceId).consequence ?_
      (fun _ _ hs => hs) (fun _ _ hs => hs)
    intro s hs
    exact ⟨kept_of_inFlight hs.1, hs.2, [], by rw [hs.1.2, List.append_nil]⟩
  intro _
  exact Proc.Triple.pure fun _ hs => hs

/-- `submit_external_form` from a transaction that has committed nothing. -/
theorem submitExternalForm_resumed (hlaws : core.Laws) (tenantId : String)
    (workItemId userId : Nat) (taskPayload : Option FormData) :
    Proc.Triple (InFlight db rows)
      (submitExternalForm env core tenantId workItemId userId taskPayload)
      (fun _ => Resumed env db rows fun tables => core.Done tables workItemId)
      (fun _ => Kept db fun tables => core.Done tables workItemId) := by
  unfold submitExternalForm
  apply Proc.Triple.bind fun _ => InFlight db rows
  · exact (claim_keeps tenantId workItemId userId).consequence (fun _ hs => hs)
      (fun _ _ hs => hs) (fun _ _ hs => kept_of_inFlight hs)
  intro _
  exact complete_resumed hlaws tenantId workItemId userId taskPayload

end Rules

end M8flow.Workflow
