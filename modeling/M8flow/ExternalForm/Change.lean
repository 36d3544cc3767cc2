import M8flow.ExternalForm.Absorbing

/-!
# What one event does to one row

`Absorbing` says what a *safe* event does.  Here no event is excluded: `Change`
lists what any event can make of a row, and `step_change` is the inversion of
`step` that later invariants start from.

- A row that is still `sending` after an event is unchanged or newly claimed.
- A row that is open after an event was open before, or `reissue` or
  `_record_failure` opened it.
-/

namespace M8flow.ExternalForm

open M8flow.Lib

/-- The task and the recipient that a link is for. -/
def Request.recipientKey (row : Request) : Nat × String × String :=
  (row.processInstanceId, row.taskGuid, row.email)

/-- What an event in state `s` can make of a row. -/
inductive Change (s : State) : Event → Request → Request → Prop where
  | same (e : Event) (row : Request) : Change s e row row
  /-- The row leaves the open statuses. -/
  | closed {e : Event} {row row' : Request} : row'.isOpen = false →
      row'.recipientKey = row.recipientKey → Change s e row row'
  /-- The row stays open, and is not being sent. -/
  | moved {e : Event} {row row' : Request} : row.isOpen → row'.isOpen →
      row'.status ≠ .sending → row'.recipientKey = row.recipientKey → Change s e row row'
  | claimed {sid id : Nat} {now ttl : Int} {row : Request} : row.id = id → claimable now row →
      Change s (.claim sid id now ttl) row (claimRow now ttl row)
  | reissued {sid id : Nat} {tenantId referenceId : String} {now ttl : Int}
      {workItem : Option WorkItem} {row row' : Request} : row.id = id →
      row.m8fTenantId = tenantId → reissueRefusal now row = none → row'.status = .pending →
      row'.recipientKey = row.recipientKey →
      Change s (.reissue sid id tenantId referenceId now ttl workItem) row row'
  | failed {sid : Nat} {reason : Text} {row : Request} : s.phase sid = .failing row.id reason →
      Change s (.recordFailure sid) row (failedRow reason row)

/-- The table is rewritten row by row, each as the event allows. -/
def Changes (s : State) (e : Event) (s' : State) : Prop :=
  ∃ f : Request → Request, (∀ row, (f row).id = row.id) ∧
    (∀ row, Change s e row (f row)) ∧ s'.rows = s.rows.map f

/-! ## Rewrites of one row -/

theorem change_retire {s : State} {e : Event} (row : Request) : Change s e row (retire row) :=
  .closed rfl rfl

theorem change_expire {s : State} {e : Event} (row : Request) :
    Change s e row { row with status := .expired } :=
  .closed rfl rfl

theorem change_cancelIfTaskClosed {s : State} {e : Event} (workItem : Option WorkItem)
    (row : Request) : Change s e row (cancelIfTaskClosed workItem row) := by
  unfold cancelIfTaskClosed
  cases workItem with
  | none => exact .same e row
  | some item =>
      simp only
      split
      · exact change_retire row
      · exact .same e row

theorem change_expireIfNeeded {s : State} {e : Event} (now : Int) (row : Request) :
    Change s e row (expireIfNeeded now row) := by
  unfold expireIfNeeded
  split
  · split
    · exact change_expire row
    · exact .same e row
  · exact .same e row

theorem change_checkLink {s : State} {e : Event} (now : Int) (row : Request) :
    Change s e row (checkLink now row).1 := by
  unfold checkLink
  split
  · exact .same e row
  · simp only
    split <;> exact change_expireIfNeeded now row

theorem isOpen_of_claimable {now : Int} {row : Request} (h : claimable now row) : row.isOpen := by
  unfold claimable claimableStatuses at h
  unfold Request.isOpen openStatuses actionableStatuses
  split at h
  · simp only [decide_eq_true_eq, List.mem_cons, List.not_mem_nil, or_false] at h
    rcases h with h | h <;> simp [h]
  · simp only [Bool.decide_and, Bool.and_eq_true, decide_eq_true_eq] at h
    simp [h.1]

/-- A row in a given status is open exactly when the status is one of the open ones. -/
theorem isOpen_of_status {row : Request} {status : Status} (h : row.status = status)
    (hopen : status ∈ openStatuses) : row.isOpen := by
  unfold Request.isOpen
  rw [h]
  exact decide_eq_true hopen

theorem change_reissue {s : State} {sid id : Nat} {tenantId referenceId : String} {now ttl : Int}
    {workItem : Option WorkItem} {row : Request} (hid : row.id = id)
    (htenant : row.m8fTenantId = tenantId) :
    Change s (.reissue sid id tenantId referenceId now ttl workItem) row
      (reissueRow now ttl referenceId workItem row).1 := by
  unfold reissueRow
  simp only
  cases hrefusal : reissueRefusal now (cancelIfTaskClosed workItem row) with
  | some reason => exact change_cancelIfTaskClosed workItem row
  | none =>
      have hsame : cancelIfTaskClosed workItem row = row := by
        unfold cancelIfTaskClosed at hrefusal ⊢
        cases workItem with
        | none => rfl
        | some item =>
            simp only at hrefusal ⊢
            split
            · rename_i hclosed
              rw [if_pos hclosed] at hrefusal
              cases hrefusal
            · rfl
      rw [hsame] at hrefusal ⊢
      exact .reissued hid htenant hrefusal rfl rfl

/-! ## Events -/

section Step

variable {s s' : State} {e : Event} {sid : Nat} {cond : Request → Bool} {f : Request → Request}
  {phase : Phase}

theorem changes_same (s : State) (e : Event) : Changes s e s :=
  ⟨id, fun _ => rfl, fun row => .same e row, (List.map_id s.rows).symm⟩

theorem changes_enter (s : State) (e : Event) (sid : Nat) (phase : Phase) :
    Changes s e (s.enter sid phase) :=
  changes_same s e

/-- A commit changes the rows that meet its condition. -/
theorem changes_commit (h : s.commit sid cond f phase = some s') (hkey : ∀ row, (f row).id = row.id)
    (hchange : ∀ row, cond row → Change s e row (f row)) : Changes s e s' := by
  refine ⟨fun row => if cond row then f row else row, ?_, ?_, ?_⟩
  · intro row
    simp only
    split
    · exact hkey row
    · rfl
  · intro row
    simp only
    split
    · rename_i hcond
      exact hchange row hcond
    · exact .same e row
  · rw [(commit_cases h).2]
    rfl

theorem changes_submit {referenceId : String} {form : FormData} {now : Int}
    {workItem : Option WorkItem} {recipientFound : Bool}
    (h : stepSubmit s sid referenceId form now workItem recipientFound = some s') :
    Changes s e s' := by
  unfold stepSubmit at h
  split at h
  · cases h
    exact changes_same s e
  · split at h
    · split at h
      · exact changes_commit h (checkLink_id now) fun row _ => change_checkLink now row
      · split at h
        · exact changes_commit h (cancelIfTaskClosed_id workItem)
            fun row _ => change_cancelIfTaskClosed workItem row
        · split at h <;> cases h <;> exact changes_enter s e sid _
    · cases h

/-- A guarded update changes open rows only, to open rows that are not being sent. -/
theorem changes_moved (h : s.commit sid cond f .idle = some s')
    (hcond : ∀ row, cond row → row.isOpen) (hopen : ∀ row, (f row).isOpen)
    (hsending : ∀ row, (f row).status ≠ .sending) (hkey : ∀ row, (f row).id = row.id)
    (hrecipient : ∀ row, (f row).recipientKey = row.recipientKey) : Changes s e s' :=
  changes_commit h hkey fun row hrow => .moved (hcond row hrow) (hopen row) (hsending row) (hrecipient row)

/-- Every event but a creation rewrites the table as `Change` lists. -/
theorem step_changes (h : step s e = some s') (hcreate : ∀ row, e ≠ .create row) :
    Changes s e s' := by
  cases e with
  | create row => exact absurd rfl (hcreate row)
  | submit sid referenceId form now workItem recipientFound =>
      simp only [step] at h
      split at h
      · exact changes_submit h
      · cases h
  | completeCommits sid =>
      simp only [step] at h
      split at h
      · exact changes_commit h (fun _ => rfl) fun _ _ => .closed rfl rfl
      · cases h
  | completeFails sid reason =>
      simp only [step] at h
      split at h <;> cases h <;> exact changes_enter s _ sid _
  | completeInvalidState sid =>
      simp only [step] at h
      split at h <;> cases h
      exact changes_enter s _ sid _
  | readSiblings sid =>
      simp only [step] at h
      split at h <;> cases h <;> exact changes_enter s _ sid _
  | finish sid =>
      simp only [step] at h
      split at h
      · rename_i id form siblings locked hphase
        refine changes_commit h ?_ ?_
        · intro row
          split
          · rfl
          · split <;> rfl
        · intro row _
          split
          · exact .closed rfl rfl
          · split <;> exact .closed rfl rfl
      · cases h
  | recordFailure sid =>
      simp only [step] at h
      split at h
      · rename_i id reason hphase
        refine changes_commit h (fun _ => rfl) ?_
        intro row hcond
        have hid : row.id = id := by simpa using hcond
        exact .failed (hid ▸ hphase)
      · cases h
  | recordAlreadyDone sid =>
      simp only [step] at h
      split at h
      · exact changes_commit h (fun _ => rfl) fun _ _ => .closed rfl rfl
      · cases h
  | reissue sid id tenantId referenceId now ttl workItem =>
      simp only [step] at h
      split at h
      · refine changes_commit h (reissueRow_id now ttl referenceId workItem) ?_
        intro row hcond
        simp only [Bool.decide_and, Bool.and_eq_true, decide_eq_true_eq] at hcond
        exact change_reissue hcond.1 hcond.2
      · cases h
  | claim sid id now ttl =>
      simp only [step] at h
      split at h
      · refine changes_commit h (fun _ => rfl) ?_
        intro row hcond
        simp only [Bool.decide_and, Bool.and_eq_true, decide_eq_true_eq] at hcond
        exact .claimed hcond.1 hcond.2
      · cases h
  | markSent sid id =>
      simp only [step] at h
      split at h
      · refine changes_moved h ?_ (fun _ => rfl) (fun _ h => by cases h) (fun _ => rfl) (fun _ => rfl)
        intro row hcond
        simp only [Bool.decide_and, Bool.and_eq_true, decide_eq_true_eq] at hcond
        exact isOpen_of_status hcond.2 (by decide)
      · cases h
  | releaseFailed sid id reason =>
      simp only [step] at h
      split at h
      · refine changes_moved h ?_ (fun _ => rfl) (fun _ h => by cases h) (fun _ => rfl) (fun _ => rfl)
        intro row hcond
        simp only [Bool.decide_and, Bool.and_eq_true, decide_eq_true_eq] at hcond
        exact isOpen_of_status hcond.2 (by decide)
      · cases h
  | markSmtpUnconfigured sid ids now reason =>
      simp only [step] at h
      split at h
      · refine changes_moved h ?_ (fun _ => rfl) (fun _ h => by cases h) (fun _ => rfl) (fun _ => rfl)
        intro row hcond
        simp only [Bool.decide_and, Bool.and_eq_true, decide_eq_true_eq] at hcond
        exact isOpen_of_claimable hcond.2
      · cases h
  | reviveSmtpUnconfigured sid tenantId =>
      simp only [step] at h
      split at h
      · refine changes_moved h ?_ (fun _ => rfl) (fun _ h => by cases h) (fun _ => rfl) (fun _ => rfl)
        intro row hcond
        simp only [Bool.decide_and, Bool.and_eq_true, decide_eq_true_eq] at hcond
        exact isOpen_of_status hcond.1 (by decide)
      · cases h
  | cancelOpenRequests sid tenantId processInstanceId =>
      simp only [step] at h
      split at h
      · split at h
        · cases h
          exact changes_enter s _ sid _
        · cases h
      · cases h
  | commitCancel sid =>
      simp only [step] at h
      split at h
      · exact changes_commit h (fun _ => rfl) fun row _ => change_retire row
      · cases h
  | read sid id =>
      simp only [step] at h
      split at h <;> cases h
      exact changes_enter s _ sid _
  | expireRead sid now =>
      simp only [step] at h
      split at h
      · split at h
        · cases h
          exact changes_same s _
        · exact changes_commit h (fun _ => rfl) fun row _ => change_expire row
      · cases h
  | retireRead sid workItem =>
      simp only [step] at h
      split at h
      · split at h
        · cases h
          exact changes_same s _
        · exact changes_commit h (fun _ => rfl) fun row _ => change_retire row
      · cases h
  | abort sid =>
      cases h
      exact changes_enter s _ sid _

/-- A row that is there is there after every event, changed as `Change` lists. -/
theorem step_change (h : step s e = some s') {id : Nat} {row : Request}
    (hrow : s.row id = some row) : ∃ row', s'.row id = some row' ∧ Change s e row row' := by
  by_cases hcreate : ∃ new, e = .create new
  · obtain ⟨new, rfl⟩ := hcreate
    simp only [step] at h
    split at h
    · cases h
      refine ⟨row, ?_, .same _ row⟩
      show Table.lookup Request.id (s.rows ++ [new]) id = some row
      rw [State.row] at hrow
      rw [Table.lookup_append, hrow]
      rfl
    · cases h
  · obtain ⟨f, hkey, hchange, hrows⟩ := step_changes h fun new hnew => hcreate ⟨new, hnew⟩
    refine ⟨f row, ?_, hchange row⟩
    show Table.lookup Request.id s'.rows id = some (f row)
    rw [hrows, Table.lookup_map hkey]
    rw [State.row] at hrow
    rw [hrow, Option.map_some]

end Step

/-! ## What a change says -/

/-- A change keeps the task and the recipient of a row. -/
theorem Change.recipientKey_eq {s : State} {e : Event} {row row' : Request}
    (h : Change s e row row') : row'.recipientKey = row.recipientKey := by
  cases h with
  | same => rfl
  | closed _ hkey => exact hkey
  | moved _ _ _ hkey => exact hkey
  | claimed _ _ => rfl
  | reissued _ _ _ _ hkey => exact hkey
  | failed _ => rfl

/-- A row that is being sent after an event is unchanged, or the event claimed it. -/
theorem Change.sending {s : State} {e : Event} {row row' : Request} (h : Change s e row row')
    (hsending : row'.status = .sending) :
    row' = row ∨ ∃ sid now ttl, e = .claim sid row.id now ttl ∧ claimable now row ∧
      row' = claimRow now ttl row := by
  cases h with
  | same => exact Or.inl rfl
  | closed hclosed _ =>
      have hopen : row'.isOpen := isOpen_of_status hsending (by decide)
      rw [hclosed] at hopen
      cases hopen
  | moved _ _ hnot _ => exact absurd hsending hnot
  | claimed hid hclaimable =>
      subst hid
      exact Or.inr ⟨_, _, _, rfl, hclaimable, rfl⟩
  | reissued _ _ _ hpending _ =>
      rw [hpending] at hsending
      cases hsending
  | failed _ => cases hsending

/-- A row that is open after an event was open before, or the event reopened it. -/
theorem Change.opened {s : State} {e : Event} {row row' : Request} (h : Change s e row row')
    (hopen : row'.isOpen) :
    row.isOpen ∨
      (∃ sid tenantId referenceId now ttl workItem,
        e = .reissue sid row.id tenantId referenceId now ttl workItem ∧
          row.m8fTenantId = tenantId ∧ reissueRefusal now row = none) ∨
      ∃ sid reason, e = .recordFailure sid ∧ s.phase sid = .failing row.id reason := by
  cases h with
  | same => exact Or.inl hopen
  | closed hclosed _ =>
      rw [hclosed] at hopen
      cases hopen
  | moved hbefore _ _ _ => exact Or.inl hbefore
  | claimed _ hclaimable => exact Or.inl (isOpen_of_claimable hclaimable)
  | reissued hid htenant hrefusal _ _ =>
      subst hid
      exact Or.inr (Or.inl ⟨_, _, _, _, _, _, rfl, htenant, hrefusal⟩)
  | failed hphase => exact Or.inr (Or.inr ⟨_, _, rfl, hphase⟩)

end M8flow.ExternalForm
