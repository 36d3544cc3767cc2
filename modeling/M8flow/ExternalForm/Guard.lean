import M8flow.ExternalForm.Request

/-!
# In-app completion and secure links

A task whose modeler set `externalFormUrl` is meant to be completed through a
secure link while one is open, and in the app once none is.  Two separate
predicates decide this: the query of
`_reject_in_app_completion_of_external_form_task` in `workflow/__init__.py`, and
the checks `submit` makes on the row of a link.  This module models the guard,
characterises both predicates by status and expiry, and states when they agree.
-/

namespace M8flow.ExternalForm

open M8flow.Lib

/-- The expiry is absent or still to come: the guard's `or_(is_(None), > now)`. -/
def Request.unexpiredAt (row : Request) (now : Int) : Bool :=
  match row.expiresAtInSeconds with
  | none => true
  | some expiry => now < expiry

/-- The row belongs to the task, in the guard's tenant. -/
def Request.forTask (tenantId : String) (task : WorkItem) (row : Request) : Bool :=
  row.m8fTenantId = tenantId ∧ row.processInstanceId = task.processInstanceId ∧
    row.taskGuid = task.taskGuid

/-- The guard's query: an open link of the task exists. -/
def linkOpen (tenantId : String) (task : WorkItem) (rows : List Request) (now : Int) : Bool :=
  rows.any fun row => row.forTask tenantId task && row.isOpen && row.unexpiredAt now

/-- The refusal the guard raises. -/
def notCompletableInApp : ApiError :=
  .of "external_form_task_not_completable_in_app"
    ("This task is completed through its external form and cannot be completed here." ++
      " It stays open until the recipient submits the secure link.") 409

/-- `_reject_in_app_completion_of_external_form_task`.  `completionFlag` is the
request flag `submit` sets; a call without a request context has it `false`. -/
def rejectInAppCompletionOfExternalFormTask (completionFlag : Bool)
    (workItems : List WorkItem) (rows : List Request) (tenantId : String)
    (workItemId : Nat) (now : Int) : Except ApiError Unit :=
  if completionFlag then .ok ()
  else
    match Table.lookup WorkItem.id workItems workItemId with
    | none => .ok ()
    | some task =>
        if task.m8fTenantId ≠ tenantId then .ok ()
        else
          match externalFormUrlForTask task with
          -- an unreadable task definition lets the completion through
          | .error _ => .ok ()
          | .ok none => .ok ()
          | .ok (some _) =>
              if linkOpen tenantId task rows now then .error notCompletableInApp else .ok ()

/-- `submit` accepts the link: neither its status nor its expiry refuses it. -/
def Request.acceptedAt (row : Request) (now : Int) : Bool :=
  match (checkLink now row).2 with
  | .ok () => true
  | .error _ => false

/-! ## Both predicates by status and expiry -/

/-- The open rows are the actionable ones and the parked ones. -/
theorem isOpen_iff (row : Request) :
    row.isOpen ↔ row.isActionable ∨ row.status = .smtpUnconfigured := by
  unfold Request.isOpen Request.isActionable openStatuses
  simp only [decide_eq_true_eq, List.mem_append, List.mem_singleton]

/-- `submit` accepts exactly the actionable rows whose expiry is not in the past;
at the second of the expiry itself the link still works. -/
theorem acceptedAt_iff (row : Request) (now : Int) :
    row.acceptedAt now ↔
      row.isActionable ∧ ∀ expiry, row.expiresAtInSeconds = some expiry → now ≤ expiry := by
  unfold Request.acceptedAt checkLink
  by_cases hact : row.isActionable
  · have hok : raiseForUnusableStatus row = .ok () :=
      (raiseForUnusableStatus_eq_ok_iff row).mpr hact
    have hopen : row.isOpen := isOpen_of_isActionable hact
    have hstatus : row.status ≠ .expired := by
      intro h
      simp [Request.isActionable, actionableStatuses, h] at hact
    rw [hok]
    cases hexp : row.expiresAtInSeconds with
    | none => simp [expireIfNeeded, hexp, hstatus, hact]
    | some expiry =>
        by_cases hpast : expiry < now
        · simp [expireIfNeeded, hexp, hopen, hpast, raiseForUnusableStatus]
        · have hle : now ≤ expiry := by omega
          simp [expireIfNeeded, hexp, hpast, hstatus, hact, hle]
  · cases hraise : raiseForUnusableStatus row with
    | ok u => exact absurd ((raiseForUnusableStatus_eq_ok_iff row).mp hraise) hact
    | error e => simp [hact]

/-- What the guard's query finds, by status and expiry. -/
theorem linkOpen_iff (tenantId : String) (task : WorkItem) (rows : List Request) (now : Int) :
    linkOpen tenantId task rows now ↔
      ∃ row ∈ rows, row.forTask tenantId task ∧
        (row.isActionable ∨ row.status = .smtpUnconfigured) ∧ row.unexpiredAt now := by
  unfold linkOpen
  simp only [List.any_eq_true, Bool.and_eq_true, isOpen_iff, and_assoc]

/-- A row with an absent or later expiry is within it. -/
theorem le_of_unexpiredAt {row : Request} {now : Int} (h : row.unexpiredAt now) :
    ∀ expiry, row.expiresAtInSeconds = some expiry → now ≤ expiry := by
  intro expiry hexp
  simp only [Request.unexpiredAt, hexp, decide_eq_true_eq] at h
  omega

/-- A row within its expiry either has it later or absent, or expires right now. -/
theorem unexpiredAt_or_expires_now {row : Request} {now : Int}
    (h : ∀ expiry, row.expiresAtInSeconds = some expiry → now ≤ expiry) :
    row.unexpiredAt now ∨ row.expiresAtInSeconds = some now := by
  cases hexp : row.expiresAtInSeconds with
  | none =>
      left
      simp [Request.unexpiredAt, hexp]
  | some expiry =>
      have hle := h expiry hexp
      rcases Int.lt_or_eq_of_le hle with hlt | heq
      · left
        simp [Request.unexpiredAt, hexp, hlt]
      · right
        rw [heq]

/-! ## When the two predicates agree -/

/-- The guard gets as far as its query: the task is of the caller's tenant and
its definition carries a readable `externalFormUrl`. -/
def GuardApplies (tenantId : String) (task : WorkItem) : Prop :=
  task.m8fTenantId = tenantId ∧ ∃ url, externalFormUrlForTask task = .ok (some url)

/-- An actionable row of the task whose expiry is absent or still to come. -/
def HasLiveLink (tenantId : String) (task : WorkItem) (rows : List Request) (now : Int) : Prop :=
  ∃ row ∈ rows, row.forTask tenantId task ∧ row.isActionable ∧ row.unexpiredAt now

/-- A row of the task parked as `smtp_unconfigured`, with its expiry absent or
still to come: the guard counts it, and `submit` refuses it. -/
def HasParkedLink (tenantId : String) (task : WorkItem) (rows : List Request)
    (now : Int) : Prop :=
  ∃ row ∈ rows, row.forTask tenantId task ∧ row.status = .smtpUnconfigured ∧
    row.unexpiredAt now

/-- An actionable row of the task that expires this very second: `submit` still
accepts it, and the guard no longer counts it. -/
def HasLinkAtExpiry (tenantId : String) (task : WorkItem) (rows : List Request)
    (now : Int) : Prop :=
  ∃ row ∈ rows, row.forTask tenantId task ∧ row.isActionable ∧
    row.expiresAtInSeconds = some now

/-- The rows of the task are such that the guard and `submit` decide alike. -/
def LinksDecideAlike (tenantId : String) (task : WorkItem) (rows : List Request)
    (now : Int) : Prop :=
  (GuardApplies tenantId task →
    HasLiveLink tenantId task rows now ∨
      (HasParkedLink tenantId task rows now ↔ HasLinkAtExpiry tenantId task rows now)) ∧
  (¬ GuardApplies tenantId task →
    ¬ HasLiveLink tenantId task rows now ∧ ¬ HasLinkAtExpiry tenantId task rows now)

theorem linkOpen_iff_live_or_parked (tenantId : String) (task : WorkItem)
    (rows : List Request) (now : Int) :
    linkOpen tenantId task rows now ↔
      HasLiveLink tenantId task rows now ∨ HasParkedLink tenantId task rows now := by
  rw [linkOpen_iff]
  constructor
  · rintro ⟨row, hmem, htask, hact | hparked, hexp⟩
    · exact Or.inl ⟨row, hmem, htask, hact, hexp⟩
    · exact Or.inr ⟨row, hmem, htask, hparked, hexp⟩
  · rintro (⟨row, hmem, htask, hact, hexp⟩ | ⟨row, hmem, htask, hparked, hexp⟩)
    · exact ⟨row, hmem, htask, Or.inl hact, hexp⟩
    · exact ⟨row, hmem, htask, Or.inr hparked, hexp⟩

theorem accepted_iff_live_or_at_expiry (tenantId : String) (task : WorkItem)
    (rows : List Request) (now : Int) :
    (∃ row ∈ rows, row.forTask tenantId task ∧ row.acceptedAt now) ↔
      HasLiveLink tenantId task rows now ∨ HasLinkAtExpiry tenantId task rows now := by
  constructor
  · rintro ⟨row, hmem, htask, haccepted⟩
    rcases (acceptedAt_iff row now).mp haccepted with ⟨hact, hexp⟩
    rcases unexpiredAt_or_expires_now hexp with hlive | hnow
    · exact Or.inl ⟨row, hmem, htask, hact, hlive⟩
    · exact Or.inr ⟨row, hmem, htask, hact, hnow⟩
  · rintro (⟨row, hmem, htask, hact, hlive⟩ | ⟨row, hmem, htask, hact, hnow⟩)
    · exact ⟨row, hmem, htask, (acceptedAt_iff row now).mpr ⟨hact, le_of_unexpiredAt hlive⟩⟩
    · refine ⟨row, hmem, htask, (acceptedAt_iff row now).mpr ⟨hact, ?_⟩⟩
      intro expiry hexp
      rw [hnow] at hexp
      cases hexp
      omega

/-- The guard refuses an in-app completion exactly when it gets to its query and
the query finds an open link. -/
theorem rejectInApp_eq_error_iff {workItems : List WorkItem} {workItemId : Nat}
    {task : WorkItem} (hfound : Table.lookup WorkItem.id workItems workItemId = some task)
    (rows : List Request) (tenantId : String) (now : Int) :
    rejectInAppCompletionOfExternalFormTask false workItems rows tenantId workItemId now =
        .error notCompletableInApp ↔
      GuardApplies tenantId task ∧ linkOpen tenantId task rows now := by
  unfold rejectInAppCompletionOfExternalFormTask GuardApplies
  rw [hfound]
  by_cases htenant : task.m8fTenantId = tenantId
  · cases hurl : externalFormUrlForTask task with
    | error e => simp [htenant, hurl]
    | ok url =>
        cases url with
        | none => simp [htenant, hurl]
        | some url =>
            by_cases hlink : linkOpen tenantId task rows now
            · simp [htenant, hurl, hlink]
            · simp [htenant, hurl, hlink]
  · simp [htenant]

/-- In-app completion is refused exactly when some link of the task would be
accepted, if and only if the rows are of the kind `LinksDecideAlike` describes. -/
theorem guard_agrees_with_submit_iff {workItems : List WorkItem} {workItemId : Nat}
    {task : WorkItem} (hfound : Table.lookup WorkItem.id workItems workItemId = some task)
    (rows : List Request) (tenantId : String) (now : Int) :
    (rejectInAppCompletionOfExternalFormTask false workItems rows tenantId workItemId now =
        .error notCompletableInApp ↔
      ∃ row ∈ rows, row.forTask tenantId task ∧ row.acceptedAt now) ↔
    LinksDecideAlike tenantId task rows now := by
  rw [rejectInApp_eq_error_iff hfound, linkOpen_iff_live_or_parked,
    accepted_iff_live_or_at_expiry]
  unfold LinksDecideAlike
  by_cases happlies : GuardApplies tenantId task
  · by_cases hlive : HasLiveLink tenantId task rows now
    · simp [happlies, hlive]
    · simp [happlies, hlive]
  · simp [happlies]

/-! ## One task, one link -/

theorem guardApplies_reviewTask : GuardApplies "t1" reviewTask :=
  ⟨rfl, "https://forms.test/f".toList, rfl⟩

/-- With one delivered link the guard refuses, and the link is accepted. -/
theorem guard_agrees_on_notified_link :
    rejectInAppCompletionOfExternalFormTask false [reviewTask]
        [reviewLink 1 .notified (some 100)] "t1" 1 50 = .error notCompletableInApp ↔
      ∃ row ∈ [reviewLink 1 .notified (some 100)],
        row.forTask "t1" reviewTask ∧ row.acceptedAt 50 := by
  refine (guard_agrees_with_submit_iff rfl _ _ _).mpr ⟨fun _ => ?_, fun h => ?_⟩
  · left
    exact ⟨_, List.mem_singleton_self _, by decide, by decide, by decide⟩
  · exact absurd guardApplies_reviewTask h

/-- With one parked link the task can be completed neither in the app nor
through the link. -/
theorem parked_link_refused_both_ways :
    ¬ (rejectInAppCompletionOfExternalFormTask false [reviewTask]
        [reviewLink 1 .smtpUnconfigured none] "t1" 1 50 = .error notCompletableInApp ↔
      ∃ row ∈ [reviewLink 1 .smtpUnconfigured none],
        row.forTask "t1" reviewTask ∧ row.acceptedAt 50) := by
  intro hagree
  have hrefused : rejectInAppCompletionOfExternalFormTask false [reviewTask]
      [reviewLink 1 .smtpUnconfigured none] "t1" 1 50 = .error notCompletableInApp := rfl
  rcases hagree.mp hrefused with ⟨row, hmem, _, haccepted⟩
  rw [List.mem_singleton.mp hmem] at haccepted
  have hnot : ¬ (reviewLink 1 .smtpUnconfigured none).acceptedAt 50 := by decide
  exact hnot haccepted

end M8flow.ExternalForm
