import M8flow.ExternalForm.Session

/-!
# Terminal statuses

`completed`, `superseded` and `cancelled` are the statuses a link never leaves by
design.  Two kinds of writes act on the rows: those that compare the status in
their statement or hold the row lock since they read it, and blind writes by
primary key that follow an unlocked read or a rollback.  The first kind never
touches a terminal row.  `Safe` asks of an event that none of its blind writes
lands on a row that has meanwhile reached a different terminal status, and along
runs of safe events terminal statuses are absorbing.
-/

namespace M8flow.ExternalForm

open M8flow.Lib

/-- A status that a row is never meant to leave. -/
def Status.isTerminal : Status → Bool
  | .completed | .superseded | .cancelled => true
  | _ => false

/-- The row ids and statuses that an event writes by primary key although its
session no longer holds, or never held, the row lock. -/
def blindWrites (s : State) : Event → List (Nat × Status)
  | .finish sid =>
      match s.phase sid with
      | .superseding id _ siblings locked =>
          (if locked then [] else [(id, .completed)]) ++
            siblings.map fun sibling => (sibling, .superseded)
      | _ => []
  | .recordFailure sid =>
      match s.phase sid with
      | .failing id _ => [(id, .failed)]
      | _ => []
  | .recordAlreadyDone sid =>
      match s.phase sid with
      | .alreadyDone id _ => [(id, .completed)]
      | _ => []
  | .expireRead sid now =>
      match s.phase sid with
      | .reading row =>
          if (expireIfNeeded now row).status = row.status then [] else [(row.id, .expired)]
      | _ => []
  | .retireRead sid workItem =>
      match s.phase sid with
      | .reading row =>
          if (cancelIfTaskClosed workItem row).status = row.status then []
          else [(row.id, .cancelled)]
      | _ => []
  | _ => []

/-- The write would replace a terminal status by a different status. -/
def State.overwrites (s : State) (write : Nat × Status) : Bool :=
  match s.statusOf write.1 with
  | some status => status.isTerminal && status ≠ write.2
  | none => false

/-- No blind write of the event lands on a row that has meanwhile reached a
terminal status other than the one written. -/
def Safe (s : State) (e : Event) : Prop :=
  ∀ write ∈ blindWrites s e, s.overwrites write = false

instance (s : State) (e : Event) : Decidable (Safe s e) := by
  unfold Safe
  infer_instance

/-! ## Locks -/

/-- What the locks guarantee in every reachable state. -/
structure Inv (s : State) : Prop where
  /-- Ids are primary keys. -/
  keys : (s.rows.map Request.id).Nodup
  /-- A phase owns the locks it holds, so no two sessions hold the same row. -/
  locked : ∀ sid id, id ∈ (s.phase sid).holds → s.lockedBy id = some sid
  /-- A locked row is still open in the committed table. -/
  openHeld : ∀ sid id row, id ∈ (s.phase sid).holds → s.row id = some row → row.isOpen

theorem inv_start {rows : List Request} (hkeys : (rows.map Request.id).Nodup) :
    Inv (State.start rows) where
  keys := hkeys
  locked := by
    intro sid id h
    cases h
  openHeld := by
    intro sid id row h
    cases h

@[simp] theorem enter_rows (s : State) (sid : Nat) (phase : Phase) :
    (s.enter sid phase).rows = s.rows := rfl

@[simp] theorem enter_row (s : State) (sid : Nat) (phase : Phase) (id : Nat) :
    (s.enter sid phase).row id = s.row id := rfl

@[simp] theorem enter_statusOf (s : State) (sid : Nat) (phase : Phase) (id : Nat) :
    (s.enter sid phase).statusOf id = s.statusOf id := rfl

theorem row_of_mem {s : State} (hinv : Inv s) {row : Request} (h : row ∈ s.rows) :
    s.row row.id = some row :=
  Table.lookup_of_mem hinv.keys h

theorem id_of_row {s : State} {id : Nat} {row : Request} (h : s.row id = some row) :
    row.id = id :=
  Table.key_of_lookup h

/-- A row that another session holds is not free. -/
theorem not_free_of_holds {s : State} (hinv : Inv s) {sid other id : Nat}
    (hne : other ≠ sid) (h : id ∈ (s.phase other).holds) : s.free sid id = false := by
  have hlock := hinv.locked other id h
  simp [State.free, hlock, hne]

/-- Entering a phase keeps the lock invariant when its locks are free and its
locked rows are open. -/
theorem inv_enter {s : State} (hinv : Inv s) {sid : Nat} {phase : Phase}
    (hfree : ∀ id ∈ phase.holds, s.free sid id)
    (hopen : ∀ id ∈ phase.holds, ∀ row, s.row id = some row → row.isOpen) :
    Inv (s.enter sid phase) where
  keys := hinv.keys
  locked := by
    intro other id h
    by_cases hother : other = sid
    · subst hother
      simp only [State.enter, if_true] at h ⊢
      rw [if_pos h]
    · simp only [State.enter, if_neg hother] at h ⊢
      have hbusy := not_free_of_holds hinv hother h
      have hnot : id ∉ phase.holds := by
        intro hmem
        rw [hfree id hmem] at hbusy
        cases hbusy
      have hlock := hinv.locked other id h
      have hne : s.lockedBy id ≠ some sid := by
        rw [hlock]
        simpa using hother
      rw [if_neg hnot, if_neg hne]
      exact hlock
  openHeld := by
    intro other id row h hrow
    by_cases hother : other = sid
    · subst hother
      simp only [State.enter, if_true] at h
      exact hopen id h row hrow
    · simp only [State.enter, if_neg hother] at h
      exact hinv.openHeld other id row h hrow

/-- A session that gives up its locks keeps the lock invariant. -/
theorem inv_enter_unlocked {s : State} (hinv : Inv s) {sid : Nat} {phase : Phase}
    (hholds : phase.holds = []) : Inv (s.enter sid phase) := by
  apply inv_enter hinv
  · intro id h
    rw [hholds] at h
    cases h
  · intro id h
    rw [hholds] at h
    cases h

/-! ## Commits -/

section Commit

variable {s s' : State} {sid : Nat} {cond : Request → Bool} {f : Request → Request}
  {phase : Phase}

theorem commit_cases (h : s.commit sid cond f phase = some s') :
    (∀ row ∈ s.rows, cond row → s.free sid row.id) ∧
      s' = { s.enter sid phase with rows := Table.updateWhere cond f s.rows } := by
  unfold State.commit at h
  split at h
  · rename_i hall
    refine ⟨?_, (Option.some.inj h).symm⟩
    intro row hmem hcond
    have hrow := List.all_eq_true.mp hall row hmem
    rw [hcond] at hrow
    simpa using hrow
  · cases h

/-- A commit rewrites the row of an id exactly when that row meets the condition. -/
theorem commit_row (h : s.commit sid cond f phase = some s')
    (hkey : ∀ row, (f row).id = row.id) (id : Nat) :
    s'.row id = (s.row id).map fun row => if cond row then f row else row := by
  rcases commit_cases h with ⟨-, rfl⟩
  exact Table.lookup_updateWhere hkey s.rows id

theorem inv_commit (hinv : Inv s) (h : s.commit sid cond f phase = some s')
    (hkey : ∀ row, (f row).id = row.id) (hholds : phase.holds = []) : Inv s' := by
  have hrow := commit_row h hkey
  rcases commit_cases h with ⟨hfree, rfl⟩
  have henter : Inv (s.enter sid phase) := inv_enter_unlocked hinv hholds
  refine ⟨?_, henter.locked, ?_⟩
  · rw [Table.keys_updateWhere hkey]
    exact hinv.keys
  · intro other id row hheld hlook
    have hother : other ≠ sid := by
      rintro rfl
      simp only [State.enter, if_true, hholds] at hheld
      cases hheld
    have hheld' : id ∈ (s.phase other).holds := by
      simpa only [State.enter, if_neg hother] using hheld
    rw [hrow id] at hlook
    rcases Option.map_eq_some_iff.mp hlook with ⟨old, hold, rfl⟩
    have hbusy := not_free_of_holds hinv hother hheld'
    by_cases hcond : cond old
    · -- the row is locked by the other session, so this commit waits for it
      have hfree' := hfree old (Table.mem_of_lookup hold) hcond
      rw [id_of_row hold, hbusy] at hfree'
      cases hfree'
    · rw [if_neg hcond]
      exact hinv.openHeld other id old hheld' hold

/-- A commit that rewrites terminal rows only to the status they have leaves
every terminal status alone. -/
theorem terminal_commit (h : s.commit sid cond f phase = some s')
    (hkey : ∀ row, (f row).id = row.id)
    (hkeep : ∀ row, s.row row.id = some row → cond row → row.status.isTerminal →
      (f row).status = row.status)
    {id : Nat} {status : Status} (hstatus : s.statusOf id = some status)
    (hterminal : status.isTerminal) : s'.statusOf id = some status := by
  rcases Option.map_eq_some_iff.mp hstatus with ⟨row, hrow, rfl⟩
  unfold State.statusOf
  rw [commit_row h hkey id, hrow, Option.map_some, Option.map_some]
  by_cases hcond : cond row
  · rw [if_pos hcond, hkeep row (by rw [id_of_row hrow]; exact hrow) hcond hterminal]
  · rw [if_neg hcond]

end Commit

/-! ## What a safe event can do -/

/-- The four things a safe event does to the state. -/
inductive Effect (s : State) : State → Prop where
  /-- Nothing: a refusal that wrote nothing. -/
  | same : Effect s s
  /-- A new link of a fresh id. -/
  | create (row : Request) : s.row row.id = none → row.status = .pending →
      Effect s { s with rows := s.rows ++ [row] }
  /-- A session changes its phase; what it locks is free and open. -/
  | enter (sid : Nat) (phase : Phase) : (∀ id ∈ phase.holds, s.free sid id) →
      (∀ id ∈ phase.holds, ∀ row, s.row id = some row → row.isOpen) →
      Effect s (s.enter sid phase)
  /-- A commit that keeps ids and terminal statuses. -/
  | commit (sid : Nat) (cond : Request → Bool) (f : Request → Request) (phase : Phase)
      (s' : State) : s.commit sid cond f phase = some s' → phase.holds = [] →
      (∀ row, (f row).id = row.id) →
      (∀ row, s.row row.id = some row → cond row → row.status.isTerminal →
        (f row).status = row.status) →
      Effect s s'

theorem not_isTerminal_of_isOpen {row : Request} (h : row.isOpen) :
    row.status.isTerminal = false := by
  unfold Request.isOpen openStatuses actionableStatuses at h
  cases hstatus : row.status <;> simp [hstatus, Status.isTerminal] at h ⊢

theorem status_of_claimable {now : Int} {row : Request} (h : claimable now row) :
    row.status.isTerminal = false := by
  apply not_isTerminal_of_isOpen
  unfold claimable claimableStatuses at h
  unfold Request.isOpen openStatuses actionableStatuses
  split at h
  · simp only [decide_eq_true_eq, List.mem_cons, List.not_mem_nil, or_false] at h ⊢
    rcases h with h | h <;> simp [h]
  · simp only [Bool.decide_and, Bool.and_eq_true, decide_eq_true_eq] at h
    simp [h.1]

/-- Retiring a terminal row leaves its status alone. -/
theorem cancelIfTaskClosed_of_terminal {row : Request} (h : row.status.isTerminal)
    (workItem : Option WorkItem) : cancelIfTaskClosed workItem row = row := by
  have hclosed : ¬ row.isOpen := by
    intro hopen
    rw [not_isTerminal_of_isOpen hopen] at h
    cases h
  unfold cancelIfTaskClosed
  cases workItem with
  | none => rfl
  | some item => simp [hclosed]

/-- The checks of `submit` leave a terminal row as it is. -/
theorem checkLink_of_terminal {row : Request} (h : row.status.isTerminal) (now : Int) :
    (checkLink now row).1 = row := by
  unfold checkLink
  cases hraise : raiseForUnusableStatus row with
  | error e => rfl
  | ok u =>
      unfold raiseForUnusableStatus at hraise
      cases hstatus : row.status <;> simp [hstatus, Status.isTerminal] at h hraise

/-- `reissue` refuses a terminal row and leaves it as it is. -/
theorem reissueRow_of_terminal {row : Request} (h : row.status.isTerminal) (now ttl : Int)
    (referenceId : String) (workItem : Option WorkItem) :
    (reissueRow now ttl referenceId workItem row).1 = row := by
  unfold reissueRow
  simp only [cancelIfTaskClosed_of_terminal h]
  have hrefused : ∃ reason, reissueRefusal now row = some reason := by
    unfold reissueRefusal notReissuable
    cases hstatus : row.status <;> simp [hstatus, Status.isTerminal] at h ⊢
  rcases hrefused with ⟨reason, hreason⟩
  rw [hreason]

/-! ## One safe event -/

/-- A safe blind write of a status leaves a terminal row's status as written. -/
theorem status_of_safe {s : State} {e : Event} (hsafe : Safe s e) {row : Request}
    {status : Status} (hwrite : (row.id, status) ∈ blindWrites s e)
    (hrow : s.row row.id = some row) (hterminal : row.status.isTerminal) :
    status = row.status := by
  have hover := hsafe _ hwrite
  have hstatus : s.statusOf row.id = some row.status := by
    unfold State.statusOf
    rw [hrow, Option.map_some]
  unfold State.overwrites at hover
  simp only [hstatus, hterminal, Bool.true_and, decide_eq_false_iff_not, not_not] at hover
  exact hover.symm

theorem effect_enter_unlocked (s : State) (sid : Nat) {phase : Phase}
    (hholds : phase.holds = []) : Effect s (s.enter sid phase) := by
  apply Effect.enter
  · intro id h
    rw [hholds] at h
    cases h
  · intro id h
    rw [hholds] at h
    cases h

theorem effect_submit {s s' : State} (hinv : Inv s) {sid : Nat} {referenceId : String}
    {form : FormData} {now : Int} {workItem : Option WorkItem} {recipientFound : Bool}
    (h : stepSubmit s sid referenceId form now workItem recipientFound = some s') :
    Effect s s' := by
  unfold stepSubmit at h
  split at h
  · cases h
    exact Effect.same
  · rename_i row hfind
    have hrow : s.row row.id = some row := row_of_mem hinv (List.mem_of_find?_eq_some hfind)
    split at h
    · rename_i hfree
      split at h
      · refine Effect.commit sid _ _ _ _ h rfl (checkLink_id now) ?_
        intro row _ _ hterminal
        rw [checkLink_of_terminal hterminal]
      · rename_i hok
        split at h
        · refine Effect.commit sid _ _ _ _ h rfl (cancelIfTaskClosed_id workItem) ?_
          intro row _ _ hterminal
          rw [cancelIfTaskClosed_of_terminal hterminal]
        · split at h
          · cases h
            apply Effect.enter
            · intro id hid
              rw [List.mem_singleton.mp hid]
              exact hfree
            · intro id hid row' hrow'
              rw [List.mem_singleton.mp hid, hrow] at hrow'
              cases hrow'
              exact isOpen_of_isActionable (checkLink_eq_ok hok).1
          · cases h
            exact effect_enter_unlocked s sid rfl
    · cases h

/-- A row that a session holds is open, so it is not terminal. -/
theorem not_terminal_of_holds {s : State} (hinv : Inv s) {sid id : Nat} {row : Request}
    (hheld : id ∈ (s.phase sid).holds) (hid : row.id = id)
    (hrow : s.row row.id = some row) : row.status.isTerminal = false := by
  rw [hid] at hrow
  exact not_isTerminal_of_isOpen (hinv.openHeld sid id row hheld hrow)

/-- Reading the siblings keeps what the session held. -/
theorem effect_superseding {s : State} (hinv : Inv s) {sid id : Nat} {form : FormData}
    (siblings : List Nat) {locked : Bool}
    (hheld : locked = true → id ∈ (s.phase sid).holds) :
    Effect s (s.enter sid (.superseding id form siblings locked)) := by
  cases locked with
  | false => exact effect_enter_unlocked s sid rfl
  | true =>
      have hmem := hheld rfl
      apply Effect.enter
      · intro id' hid'
        rw [List.mem_singleton.mp hid']
        simp [State.free, hinv.locked sid id hmem]
      · intro id' hid' row hrow
        rw [List.mem_singleton.mp hid'] at hrow
        exact hinv.openHeld sid id row hmem hrow

theorem effect_finish {s s' : State} (hinv : Inv s) {sid : Nat}
    (hsafe : Safe s (.finish sid)) (h : step s (.finish sid) = some s') : Effect s s' := by
  simp only [step] at h
  split at h
  · rename_i id form siblings locked hphase
    refine Effect.commit sid _ _ _ _ h rfl ?_ ?_
    · intro row
      split
      · rfl
      · split <;> rfl
    · intro row hrow hcond hterminal
      by_cases hid : row.id = id
      · rw [if_neg (not_not_intro hid)]
        cases locked with
        | true =>
            -- the row is still locked, so it cannot have become terminal
            have hheld : id ∈ (s.phase sid).holds := by
              rw [hphase]
              exact List.mem_singleton_self id
            rw [not_terminal_of_holds hinv hheld hid hrow] at hterminal
            cases hterminal
        | false =>
            have hwrite : (row.id, Status.completed) ∈ blindWrites s (.finish sid) := by
              simp [blindWrites, hphase, hid]
            exact status_of_safe hsafe hwrite hrow hterminal
      · rw [if_pos hid]
        have hsibling : row.id ∈ siblings := by
          simpa [hid] using hcond
        have hwrite : (row.id, Status.superseded) ∈ blindWrites s (.finish sid) := by
          simp [blindWrites, hphase, hsibling]
        exact status_of_safe hsafe hwrite hrow hterminal
  · cases h

/-- A commit of one row by primary key whose written status is safe. -/
theorem effect_commitRow {s s' : State} {e : Event} (hsafe : Safe s e) {sid id : Nat}
    {f : Request → Request} {phase : Phase} {status : Status}
    (h : s.commitRow sid id f phase = some s') (hholds : phase.holds = [])
    (hkey : ∀ row, (f row).id = row.id) (hstatus : ∀ row, (f row).status = status)
    (hwrite : (id, status) ∈ blindWrites s e) : Effect s s' := by
  refine Effect.commit sid _ f phase s' h hholds hkey ?_
  intro row hrow hcond hterminal
  have hid : row.id = id := by simpa using hcond
  rw [hstatus row]
  rw [← hid] at hwrite
  exact status_of_safe hsafe hwrite hrow hterminal

/-- A guarded update of the notification service never matches a terminal row. -/
theorem effect_guarded {s s' : State} {sid : Nat} {cond : Request → Bool}
    {f : Request → Request} (h : s.commit sid cond f .idle = some s')
    (hkey : ∀ row, (f row).id = row.id)
    (hcond : ∀ row, cond row → row.status.isTerminal = false) : Effect s s' := by
  refine Effect.commit sid cond f .idle s' h rfl hkey ?_
  intro row _ hmatch hterminal
  rw [hcond row hmatch] at hterminal
  cases hterminal

theorem effect_cancelOpenRequests {s s' : State} (hinv : Inv s) {sid : Nat}
    {tenantId : String} {processInstanceId : Nat}
    (h : step s (.cancelOpenRequests sid tenantId processInstanceId) = some s') :
    Effect s s' := by
  simp only [step] at h
  split at h
  · split at h
    · rename_i hall
      cases h
      apply Effect.enter
      · exact List.all_eq_true.mp hall
      · intro id hid row hrow
        rcases List.mem_map.mp hid with ⟨found, hfound, hfoundId⟩
        rcases List.mem_filter.mp hfound with ⟨hmem, hcond⟩
        have hsame : s.row id = some found := by
          rw [← hfoundId]
          exact row_of_mem hinv hmem
        rw [hrow] at hsame
        cases hsame
        simp only [Bool.decide_and, Bool.and_eq_true, decide_eq_true_eq] at hcond
        exact hcond.2.2
    · cases h
  · cases h

theorem effect_commitCancel {s s' : State} (hinv : Inv s) {sid : Nat}
    (h : step s (.commitCancel sid) = some s') : Effect s s' := by
  simp only [step] at h
  split at h
  · rename_i ids hphase
    refine Effect.commit sid _ _ _ _ h rfl (fun _ => rfl) ?_
    intro row hrow hcond hterminal
    have hheld : row.id ∈ (s.phase sid).holds := by
      rw [hphase]
      show row.id ∈ ids
      simpa using hcond
    rw [not_terminal_of_holds hinv hheld rfl hrow] at hterminal
    cases hterminal
  · cases h

theorem effect_completeCommits {s s' : State} (hinv : Inv s) {sid : Nat}
    (h : step s (.completeCommits sid) = some s') : Effect s s' := by
  simp only [step] at h
  split at h
  · rename_i id form hphase
    refine Effect.commit sid _ _ _ _ h rfl (fun _ => rfl) ?_
    intro row hrow hcond hterminal
    have hid : row.id = id := by simpa using hcond
    have hheld : id ∈ (s.phase sid).holds := by
      rw [hphase]
      exact List.mem_singleton_self id
    rw [not_terminal_of_holds hinv hheld hid hrow] at hterminal
    cases hterminal
  · cases h

theorem effect_readSiblings {s s' : State} (hinv : Inv s) {sid : Nat}
    (h : step s (.readSiblings sid) = some s') : Effect s s' := by
  simp only [step] at h
  split at h
  · rename_i id form hphase
    cases h
    apply effect_superseding hinv
    intro _
    rw [hphase]
    exact List.mem_singleton_self id
  · cases h
    apply effect_superseding hinv
    intro hlocked
    cases hlocked
  · cases h

/-- A session that read a row writes it by primary key, or writes nothing. -/
theorem effect_reading {s s' : State} {e : Event} (hsafe : Safe s e) {sid : Nat}
    {row written : Request} {f : Request → Request} {status : Status}
    (h : (if written.status = row.status then some s
      else s.commitRow sid row.id f .idle) = some s')
    (hkey : ∀ row, (f row).id = row.id) (hstatus : ∀ row, (f row).status = status)
    (hwrites : written.status ≠ row.status → (row.id, status) ∈ blindWrites s e) :
    Effect s s' := by
  split at h
  · cases h
    exact Effect.same
  · rename_i hne
    exact effect_commitRow hsafe h rfl hkey hstatus (hwrites hne)

/-- Every enabled safe event has one of the four effects. -/
theorem step_effect {s s' : State} {e : Event} (hinv : Inv s) (hsafe : Safe s e)
    (h : step s e = some s') : Effect s s' := by
  cases e with
  | create row =>
      simp only [step] at h
      split at h
      · rename_i hfresh
        cases h
        exact Effect.create row hfresh.1 hfresh.2
      · cases h
  | submit sid referenceId form now workItem recipientFound =>
      simp only [step] at h
      split at h
      · exact effect_submit hinv h
      · cases h
  | completeCommits sid => exact effect_completeCommits hinv h
  | completeFails sid reason =>
      simp only [step] at h
      split at h
      · cases h
        exact effect_enter_unlocked s sid rfl
      · cases h
        exact effect_enter_unlocked s sid rfl
      · cases h
  | completeInvalidState sid =>
      simp only [step] at h
      split at h
      · cases h
        exact effect_enter_unlocked s sid rfl
      · cases h
  | readSiblings sid => exact effect_readSiblings hinv h
  | finish sid => exact effect_finish hinv hsafe h
  | recordFailure sid =>
      simp only [step] at h
      split at h
      · rename_i id reason hphase
        refine effect_commitRow hsafe h rfl (fun _ => rfl) (fun _ => rfl) ?_
        simp [blindWrites, hphase]
      · cases h
  | recordAlreadyDone sid =>
      simp only [step] at h
      split at h
      · rename_i id form hphase
        refine effect_commitRow hsafe h rfl (fun _ => rfl) (fun _ => rfl) ?_
        simp [blindWrites, hphase]
      · cases h
  | reissue sid id tenantId referenceId now ttl workItem =>
      simp only [step] at h
      split at h
      · refine Effect.commit sid _ _ _ _ h rfl (reissueRow_id now ttl referenceId workItem) ?_
        intro row _ _ hterminal
        rw [reissueRow_of_terminal hterminal]
      · cases h
  | claim sid id now ttl =>
      simp only [step] at h
      split at h
      · refine effect_guarded h (fun _ => rfl) ?_
        intro row hcond
        simp only [Bool.decide_and, Bool.and_eq_true, decide_eq_true_eq] at hcond
        exact status_of_claimable hcond.2
      · cases h
  | markSent sid id =>
      simp only [step] at h
      split at h
      · refine effect_guarded h (fun _ => rfl) ?_
        intro row hcond
        simp only [Bool.decide_and, Bool.and_eq_true, decide_eq_true_eq] at hcond
        rw [hcond.2]
        rfl
      · cases h
  | releaseFailed sid id reason =>
      simp only [step] at h
      split at h
      · refine effect_guarded h (fun _ => rfl) ?_
        intro row hcond
        simp only [Bool.decide_and, Bool.and_eq_true, decide_eq_true_eq] at hcond
        rw [hcond.2]
        rfl
      · cases h
  | markSmtpUnconfigured sid ids now reason =>
      simp only [step] at h
      split at h
      · refine effect_guarded h (fun _ => rfl) ?_
        intro row hcond
        simp only [Bool.decide_and, Bool.and_eq_true, decide_eq_true_eq] at hcond
        exact status_of_claimable hcond.2
      · cases h
  | reviveSmtpUnconfigured sid tenantId =>
      simp only [step] at h
      split at h
      · refine effect_guarded h (fun _ => rfl) ?_
        intro row hcond
        simp only [Bool.decide_and, Bool.and_eq_true, decide_eq_true_eq] at hcond
        rw [hcond.1]
        rfl
      · cases h
  | cancelOpenRequests sid tenantId processInstanceId =>
      exact effect_cancelOpenRequests hinv h
  | commitCancel sid => exact effect_commitCancel hinv h
  | read sid id =>
      simp only [step] at h
      split at h
      · cases h
        exact effect_enter_unlocked s sid rfl
      · cases h
  | expireRead sid now =>
      simp only [step] at h
      split at h
      · rename_i row hphase
        refine effect_reading hsafe h (fun _ => rfl) (fun _ => rfl) ?_
        intro hne
        simp [blindWrites, hphase, hne]
      · cases h
  | retireRead sid workItem =>
      simp only [step] at h
      split at h
      · rename_i row hphase
        refine effect_reading hsafe h (fun _ => rfl) (fun _ => rfl) ?_
        intro hne
        simp [blindWrites, hphase, hne]
      · cases h
  | abort sid =>
      cases h
      exact effect_enter_unlocked s sid rfl

/-! ## Runs of safe events -/

theorem inv_create {s : State} (hinv : Inv s) {row : Request} (hfresh : s.row row.id = none)
    (hpending : row.status = .pending) : Inv { s with rows := s.rows ++ [row] } := by
  refine ⟨?_, hinv.locked, ?_⟩
  · have hnotin : row.id ∉ s.rows.map Request.id := by
      intro hmem
      rcases List.mem_map.mp hmem with ⟨old, hold, hid⟩
      have hfound := row_of_mem hinv hold
      rw [hid, hfresh] at hfound
      cases hfound
    rw [List.map_append, List.nodup_append]
    refine ⟨hinv.keys, List.pairwise_singleton _ _, ?_⟩
    intro id hid id' hid' heq
    rw [heq, List.mem_singleton.mp hid'] at hid
    exact hnotin hid
  · intro sid id found hheld hlook
    unfold State.row at hlook
    rw [Table.lookup_append] at hlook
    rcases Option.or_eq_some_iff.mp hlook with hold | ⟨-, hnew⟩
    · exact hinv.openHeld sid id found hheld hold
    · rw [List.mem_singleton.mp (Table.mem_of_lookup hnew)]
      simp [Request.isOpen, openStatuses, actionableStatuses, hpending]

theorem inv_effect {s s' : State} (hinv : Inv s) (h : Effect s s') : Inv s' := by
  cases h with
  | same => exact hinv
  | create row hfresh hpending => exact inv_create hinv hfresh hpending
  | enter sid phase hfree hopen => exact inv_enter hinv hfree hopen
  | commit sid cond f phase s' hcommit hholds hkey _ =>
      exact inv_commit hinv hcommit hkey hholds

/-- A safe event leaves every terminal status as it is. -/
theorem terminal_effect {s s' : State} (h : Effect s s') {id : Nat} {status : Status}
    (hstatus : s.statusOf id = some status) (hterminal : status.isTerminal) :
    s'.statusOf id = some status := by
  cases h with
  | same => exact hstatus
  | create row _ _ =>
      rcases Option.map_eq_some_iff.mp hstatus with ⟨old, hold, rfl⟩
      unfold State.row at hold
      unfold State.statusOf State.row
      rw [Table.lookup_append, hold]
      rfl
  | enter sid phase _ _ => exact hstatus
  | commit sid cond f phase s' hcommit _ hkey hkeep =>
      exact terminal_commit hcommit hkey hkeep hstatus hterminal

theorem inv_step {s s' : State} {e : Event} (hinv : Inv s) (hsafe : Safe s e)
    (h : step s e = some s') : Inv s' :=
  inv_effect hinv (step_effect hinv hsafe h)

/-- Along a run of safe events from any table, a row that has reached `completed`,
`superseded` or `cancelled` keeps that status in every later state. -/
theorem terminal_status_absorbing {rows : List Request}
    (hkeys : (rows.map Request.id).Nodup) {es fs : List Event} {s t : State}
    (hreach : Run step Safe (State.start rows) es s) (hrun : Run step Safe s fs t)
    {id : Nat} {status : Status} (hstatus : s.statusOf id = some status)
    (hterminal : status.isTerminal) : t.statusOf id = some status := by
  have hinv : Inv s := hreach.invariant (inv_start hkeys) fun _ _ _ => inv_step
  rw [← hstatus]
  refine hrun.frozen (fun s => s.statusOf id)
    (fun value => ∃ status, value = some status ∧ status.isTerminal) hinv (fun _ _ _ => inv_step) ?_ ⟨status, hstatus, hterminal⟩
  intro s e s' hinv hsafe hstep hfrozen
  rcases hfrozen with ⟨status, hstatus, hterminal⟩
  show s'.statusOf id = s.statusOf id
  rw [hstatus]
  exact terminal_effect (step_effect hinv hsafe hstep) hstatus hterminal

/-- A submission through one link retires the other for good: a later claim and a
later resend of the retired link leave it `superseded`. -/
theorem superseded_link_stays_superseded :
    ∃ t, Run step Safe
        (State.start [reviewLink 1 .notified none, reviewLink 2 .notified none])
        ([.submit 1 "ref-1" [] 50 (some reviewTask) true, .readSiblings 1, .finish 1] ++
          [.claim 2 2 60 3600, .reissue 2 2 "t1" "ref-3" 70 3600 (some reviewTask)]) t ∧
      t.statusOf 2 = some .superseded := by
  have hrun : ∃ s, Run step Safe
      (State.start [reviewLink 1 .notified none, reviewLink 2 .notified none])
      [.submit 1 "ref-1" [] 50 (some reviewTask) true, .readSiblings 1, .finish 1] s ∧
      (s.statusOf 2, (exec step Safe s [.claim 2 2 60 3600,
        .reissue 2 2 "t1" "ref-3" 70 3600 (some reviewTask)]).isSome) =
      (some .superseded, true) := run_of_exec_map (by decide)
  obtain ⟨s, hreach, hvalue⟩ := hrun
  obtain ⟨hstatus, hsome⟩ := Prod.mk.inj hvalue
  obtain ⟨t, ht⟩ := Option.isSome_iff_exists.mp hsome
  have hrest := exec_eq_some_iff.mp ht
  refine ⟨t, hreach.append hrest, ?_⟩
  exact terminal_status_absorbing (by decide) hreach hrest hstatus rfl

/-- Two recipients submit; the first submission fails and rolls back, the second
finishes and retires the first link, and then the first writes its failure: the
`superseded` link is `failed`, and usable, again. -/
theorem failure_record_revives_superseded_link :
    ∃ s t, Run step (fun _ _ => True)
        (State.start [reviewLink 1 .notified none, reviewLink 2 .notified none])
        [.submit 1 "ref-1" [] 50 (some reviewTask) true,
          .submit 2 "ref-2" [] 50 (some reviewTask) true,
          .completeFails 1 "database timeout".toList, .readSiblings 2, .finish 2] s ∧
      Run step (fun _ _ => True) s [.recordFailure 1] t ∧
      s.statusOf 1 = some .superseded ∧ t.statusOf 1 = some .failed := by
  have hrun : ∃ s, Run step (fun _ _ => True)
      (State.start [reviewLink 1 .notified none, reviewLink 2 .notified none])
      [.submit 1 "ref-1" [] 50 (some reviewTask) true,
        .submit 2 "ref-2" [] 50 (some reviewTask) true,
        .completeFails 1 "database timeout".toList, .readSiblings 2, .finish 2] s ∧
      (s.statusOf 1, (exec step (fun _ _ => True) s [.recordFailure 1]).map
        fun t => t.statusOf 1) = (some .superseded, some (some .failed)) :=
    run_of_exec_map (by decide)
  obtain ⟨s, hreach, hvalue⟩ := hrun
  obtain ⟨hstatus, hlater⟩ := Prod.mk.inj hvalue
  obtain ⟨t, hrest, hfailed⟩ := run_of_exec_map hlater
  exact ⟨s, t, hreach, hrest, hstatus, hfailed⟩

end M8flow.ExternalForm
