import M8flow.ExternalForm.Change

/-!
# One open link per recipient

`create_requests_for_task` skips the users that hold an open link of the task,
by user id; `_expire_if_needed` closes links, and `reissue` and the failure
record of a submission reopen closed ones without looking for another.

`Board` adds to the shared rows the links that sessions have prepared, since the
open links are read before the new ones are committed.  `Single` is the exact
condition on a step: `oneOpen_step` is the equivalence, and `one_open_link` the
invariant over runs.
-/

namespace M8flow.ExternalForm

open M8flow.Lib

/-- A recipient of `create_requests_for_task`, with the reference id made for it. -/
structure Recipient where
  userId : Nat
  email : String
  referenceId : String
  deriving Repr, DecidableEq

/-- The arguments of `create_requests_for_task`. -/
structure LinkArgs where
  tenantId : String
  processInstanceId : Nat
  taskGuid : String
  externalFormUrl : String
  recipients : List Recipient
  expiresAtInSeconds : Int
  deriving Repr

/-- The users that hold an open link of the task. -/
def existingUserIds (rows : List Request) (processInstanceId : Nat) (taskGuid : String) :
    List Nat :=
  (rows.filter fun row => row.processInstanceId = processInstanceId ∧ row.taskGuid = taskGuid ∧
    row.isOpen).map Request.recipientUserId

/-- The row of one recipient, without its id. -/
def LinkArgs.link (args : LinkArgs) (recipient : Recipient) : Request where
  id := 0
  m8fTenantId := args.tenantId
  referenceId := recipient.referenceId
  processInstanceId := args.processInstanceId
  taskGuid := args.taskGuid
  recipientUserId := recipient.userId
  email := recipient.email
  externalFormUrl := args.externalFormUrl
  status := .pending
  formSubmissionData := none
  expiresAtInSeconds := some args.expiresAtInSeconds
  attempts := 0
  notifiedAtInSeconds := none
  lastError := none

/-- The rows that `create_requests_for_task` adds to its session. -/
def LinkArgs.links (args : LinkArgs) (rows : List Request) : List Request :=
  (args.recipients.filter fun recipient =>
    recipient.userId ∉ existingUserIds rows args.processInstanceId args.taskGuid).map args.link

/-- The shared rows, and the links that each session has prepared. -/
structure Board where
  forms : State
  prepared : List (Nat × List Request)

def Board.start (rows : List Request) : Board where
  forms := State.start rows
  prepared := []

/-- An id that no row has. -/
def freshId (rows : List Request) : Nat := (rows.map Request.id).foldr max 0 + 1

/-- Insert rows, each under a fresh id. -/
def insertLinks (rows : List Request) : List Request → List Request
  | [] => rows
  | link :: links => insertLinks (rows ++ [{ link with id := freshId rows }]) links

/-- What happens to the board. -/
inductive BoardEvent where
  /-- `create_requests_for_task` up to its commit. -/
  | prepare (sid : Nat) (args : LinkArgs)
  | insert (sid : Nat)
  | giveUp (sid : Nat)
  | event (e : Event)

/-- One step. -/
def Board.step (b : Board) : BoardEvent → Option Board
  | .prepare sid args =>
      match b.prepared.find? fun entry => entry.1 = sid with
      | some _ => none
      | none => some { b with prepared := (sid, args.links b.forms.rows) :: b.prepared }
  | .insert sid =>
      match b.prepared.find? fun entry => entry.1 = sid with
      | none => none
      | some (_, links) =>
          some
            { forms := { b.forms with rows := insertLinks b.forms.rows links }
              prepared := b.prepared.filter fun entry => entry.1 ≠ sid }
  | .giveUp sid => some { b with prepared := b.prepared.filter fun entry => entry.1 ≠ sid }
  | .event (.create _) => none
  | .event e => (ExternalForm.step b.forms e).map fun forms => { b with forms }

/-- At most one open row for each task and recipient. -/
def OneOpen (rows : List Request) : Prop :=
  ∀ row ∈ rows, ∀ other ∈ rows, row.isOpen → other.isOpen →
    other.recipientKey = row.recipientKey → other.id = row.id

/-- No open row has the key. -/
def Free (rows : List Request) (key : Nat × String × String) : Prop :=
  ∀ row ∈ rows, row.isOpen → row.recipientKey ≠ key

/-- The row that a failed submission has still to mark. -/
def Phase.failingId : Phase → Option Nat
  | .failing id _ => some id
  | _ => none

/-- New links have distinct recipients that hold no open link, and a closed row is reopened
only if its recipient holds none. -/
def Single (b : Board) : BoardEvent → Prop
  | .insert sid =>
      ∀ entry ∈ b.prepared.find? fun entry => entry.1 = sid,
        (entry.2.map Request.recipientKey).Nodup ∧
          ∀ link ∈ entry.2, Free b.forms.rows link.recipientKey
  | .event (.reissue _ id tenantId _ now _ _) =>
      ∀ row ∈ b.forms.row id, row.m8fTenantId = tenantId → reissueRefusal now row = none →
        ¬ row.isOpen → Free b.forms.rows row.recipientKey
  | .event (.recordFailure sid) =>
      ∀ id ∈ (b.forms.phase sid).failingId, ∀ row ∈ b.forms.row id, ¬ row.isOpen →
        Free b.forms.rows row.recipientKey
  | _ => True

instance (rows : List Request) (key : Nat × String × String) : Decidable (Free rows key) :=
  inferInstanceAs (Decidable (∀ row ∈ rows, row.isOpen → row.recipientKey ≠ key))

instance (b : Board) : ∀ e : BoardEvent, Decidable (Single b e)
  | .insert sid => inferInstanceAs (Decidable (∀ entry ∈ b.prepared.find? fun entry =>
      entry.1 = sid, (entry.2.map Request.recipientKey).Nodup ∧
        ∀ link ∈ entry.2, Free b.forms.rows link.recipientKey))
  | .event (.reissue _ id tenantId _ now _ _) => inferInstanceAs
      (Decidable (∀ row ∈ b.forms.row id, row.m8fTenantId = tenantId →
        reissueRefusal now row = none → ¬ row.isOpen → Free b.forms.rows row.recipientKey))
  | .event (.recordFailure sid) => inferInstanceAs
      (Decidable (∀ id ∈ (b.forms.phase sid).failingId, ∀ row ∈ b.forms.row id, ¬ row.isOpen →
        Free b.forms.rows row.recipientKey))
  | .prepare _ _ | .giveUp _ => inferInstanceAs (Decidable True)
  | .event (.create ..) | .event (.submit ..) | .event (.completeCommits ..)
  | .event (.completeFails ..) | .event (.completeInvalidState ..) | .event (.readSiblings ..)
  | .event (.finish ..) | .event (.recordAlreadyDone ..) | .event (.claim ..)
  | .event (.markSent ..) | .event (.releaseFailed ..) | .event (.markSmtpUnconfigured ..)
  | .event (.reviveSmtpUnconfigured ..) | .event (.cancelOpenRequests ..)
  | .event (.commitCancel ..) | .event (.read ..) | .event (.expireRead ..)
  | .event (.retireRead ..) | .event (.abort ..) => inferInstanceAs (Decidable True)

/-! ## Inserting links -/

theorem lt_freshId {rows : List Request} {row : Request} (h : row ∈ rows) :
    row.id < freshId rows := by
  unfold freshId
  induction rows with
  | nil => cases h
  | cons first rows ih =>
      simp only [List.map_cons, List.foldr_cons]
      rcases List.mem_cons.mp h with rfl | hrest
      · omega
      · have hlt := ih hrest
        omega

theorem free_append (rows : List Request) {link : Request} (hopen : link.isOpen)
    (key : Nat × String × String) :
    Free (rows ++ [link]) key ↔ Free rows key ∧ link.recipientKey ≠ key := by
  unfold Free
  simp only [List.mem_append, List.mem_singleton]
  constructor
  · intro h
    exact ⟨fun row hrow => h row (Or.inl hrow), h link (Or.inr rfl) hopen⟩
  · intro h row hrow hrowOpen
    rcases hrow with hold | rfl
    · exact h.1 row hold hrowOpen
    · exact h.2

/-- One more open link, under a fresh id. -/
theorem oneOpen_append {rows : List Request} {link : Request} (hopen : link.isOpen)
    (hfresh : ∀ row ∈ rows, row.id ≠ link.id) :
    OneOpen (rows ++ [link]) ↔ OneOpen rows ∧ Free rows link.recipientKey := by
  constructor
  · intro h
    refine ⟨?_, ?_⟩
    · intro row hrow other hother
      exact h row (List.mem_append_left _ hrow) other (List.mem_append_left _ hother)
    · intro row hrow hrowOpen hkey
      have hlink : link ∈ rows ++ [link] := List.mem_append_right _ (List.mem_singleton_self link)
      have hid := h link hlink row (List.mem_append_left _ hrow) hopen hrowOpen hkey
      exact hfresh row hrow hid
  · intro h row hrow other hother hrowOpen hotherOpen hkey
    rcases List.mem_append.mp hrow with hrow' | hrow'
    · rcases List.mem_append.mp hother with hother' | hother'
      · exact h.1 row hrow' other hother' hrowOpen hotherOpen hkey
      · rw [List.mem_singleton.mp hother'] at hkey
        exact absurd hkey.symm (h.2 row hrow' hrowOpen)
    · rw [List.mem_singleton.mp hrow'] at hkey ⊢
      rcases List.mem_append.mp hother with hother' | hother'
      · exact absurd hkey (h.2 other hother' hotherOpen)
      · rw [List.mem_singleton.mp hother']

/-- Inserting open links keeps one open link per recipient exactly when the recipients of
the links are distinct and hold none yet. -/
theorem oneOpen_insertLinks {links : List Request} (hopen : ∀ link ∈ links, link.isOpen)
    (rows : List Request) :
    OneOpen (insertLinks rows links) ↔ OneOpen rows ∧ (links.map Request.recipientKey).Nodup ∧
      ∀ link ∈ links, Free rows link.recipientKey := by
  induction links generalizing rows with
  | nil => simp [insertLinks]
  | cons link links ih =>
      have hlink : ({ link with id := freshId rows } : Request).isOpen :=
        hopen link List.mem_cons_self
      have hfresh : ∀ row ∈ rows, row.id ≠ freshId rows := by
        intro row hrow
        have hlt := lt_freshId hrow
        omega
      have hrest := ih (fun other hother => hopen other (List.mem_cons_of_mem _ hother))
        (rows ++ [{ link with id := freshId rows }])
      have hkey : ({ link with id := freshId rows } : Request).recipientKey = link.recipientKey :=
        rfl
      rw [insertLinks, hrest, oneOpen_append hlink hfresh, hkey]
      simp only [free_append rows hlink, hkey, List.map_cons, List.nodup_cons, List.mem_map,
        List.mem_cons, forall_eq_or_imp, not_exists, not_and]
      constructor
      · intro h
        obtain ⟨⟨hone, hfree⟩, hnodup, hall⟩ := h
        exact ⟨hone, ⟨fun other hother heq => (hall other hother).2 heq.symm, hnodup⟩, hfree,
          fun other hother => (hall other hother).1⟩
      · intro h
        obtain ⟨hone, ⟨hnew, hnodup⟩, hfree, hall⟩ := h
        exact ⟨⟨hone, hfree⟩, hnodup,
          fun other hother => ⟨hall other hother, fun heq => hnew other hother heq.symm⟩⟩

/-- Inserted links keep the ids distinct. -/
theorem ids_insertLinks {links rows : List Request} (hids : (rows.map Request.id).Nodup) :
    ((insertLinks rows links).map Request.id).Nodup := by
  induction links generalizing rows with
  | nil => exact hids
  | cons link links ih =>
      rw [insertLinks]
      apply ih
      rw [List.map_append, List.map_singleton]
      refine List.nodup_append.mpr ⟨hids, List.pairwise_singleton _ _, ?_⟩
      intro id hid new hnew heq
      obtain ⟨row, hrow, hrowId⟩ := List.mem_map.mp hid
      have hlt := lt_freshId hrow
      have hfresh : row.id = freshId rows := by
        rw [hrowId, heq, List.mem_singleton.mp hnew]
      omega

/-! ## Reopening -/

section Reopen

variable {s s' : State} {sid id : Nat} {row : Request}

/-- A re-issue that is not refused opens its row, and leaves the others alone. -/
theorem reissue_opens {tenantId referenceId : String} {now ttl : Int} {workItem : Option WorkItem}
    (h : step s (.reissue sid id tenantId referenceId now ttl workItem) = some s') :
    (∀ other, other ≠ id → s'.row other = s.row other) ∧
    ∀ row, s.row id = some row → row.m8fTenantId = tenantId → reissueRefusal now row = none →
      ¬ row.isOpen → ∃ row', s'.row id = some row' ∧ row'.isOpen := by
  simp only [step] at h
  split at h
  · have hrows := commit_row h (reissueRow_id now ttl referenceId workItem)
    refine ⟨?_, ?_⟩
    · intro other hother
      rw [hrows other]
      cases hrow : s.row other with
      | none => rfl
      | some row =>
          rw [Option.map_some]
          simp [id_of_row hrow, hother]
    · intro row hrow htenant hrefusal hclosed
      have hsame : cancelIfTaskClosed workItem row = row := by
        unfold cancelIfTaskClosed
        cases workItem with
        | none => rfl
        | some item => simp [hclosed]
      refine ⟨(reissueRow now ttl referenceId workItem row).1, ?_, ?_⟩
      · rw [hrows id, hrow, Option.map_some]
        simp [id_of_row hrow, htenant]
      · unfold reissueRow
        simp only [hsame, hrefusal]
        rfl
  · cases h

/-- A failure record opens its row, and leaves the others alone. -/
theorem recordFailure_opens {reason : Text} (h : step s (.recordFailure sid) = some s')
    (hphase : s.phase sid = .failing id reason) :
    (∀ other, other ≠ id → s'.row other = s.row other) ∧
    ∀ row, s.row id = some row → ∃ row', s'.row id = some row' ∧ row'.isOpen := by
  simp only [step, hphase] at h
  have hrows := commit_row h fun _ => rfl
  refine ⟨?_, ?_⟩
  · intro other hother
    rw [hrows other]
    cases hrow : s.row other with
    | none => rfl
    | some row =>
        rw [Option.map_some]
        simp [id_of_row hrow, hother]
  · intro row hrow
    refine ⟨failedRow reason row, ?_, rfl⟩
    rw [hrows id, hrow, Option.map_some]
    simp [id_of_row hrow]

end Reopen

/-- An event that can reopen the row of one id only, and does so under a condition, keeps one
open link per recipient exactly when that row's recipient holds none. -/
theorem oneOpen_reopen {s s' : State} {e : Event} {id : Nat} {cond : Request → Prop}
    (hids : (s.rows.map Request.id).Nodup) (hone : OneOpen s.rows) (h : step s e = some s')
    (hcreate : ∀ row, e ≠ .create row)
    (hothers : ∀ other, other ≠ id → s'.row other = s.row other)
    (hopens : ∀ row, s.row id = some row → cond row → ¬ row.isOpen →
      ∃ row', s'.row id = some row' ∧ row'.isOpen)
    (honly : ∀ row row', Change s e row row' → ¬ row.isOpen → row'.isOpen →
      row.id = id ∧ cond row) :
    OneOpen s'.rows ↔ ∀ row, s.row id = some row → cond row → ¬ row.isOpen →
      Free s.rows row.recipientKey := by
  obtain ⟨f, hkey, hchange, hrows⟩ := step_changes h hcreate
  have hids' : (s'.rows.map Request.id).Nodup := by
    rw [hrows, List.map_map]
    have hsame : s.rows.map (Request.id ∘ f) = s.rows.map Request.id :=
      List.map_congr_left fun row _ => hkey row
    rw [hsame]
    exact hids
  have hrecipient : ∀ row, (f row).recipientKey = row.recipientKey := fun row =>
    (hchange row).recipientKey_eq
  constructor
  · intro hone' row hrow hcond hclosed other hother hopen hsame
    obtain ⟨row', hrow', hopen'⟩ := hopens row hrow hcond hclosed
    -- the other row is open and the one that is reopened is not
    have hne : other.id ≠ id := by
      intro heq
      have hfound := Table.lookup_of_mem hids hother
      rw [heq] at hfound
      rw [State.row] at hrow
      rw [hrow] at hfound
      cases hfound
      exact hclosed hopen
    have hother' : s'.row other.id = some other := by
      rw [hothers other.id hne]
      exact Table.lookup_of_mem hids hother
    have hkey' : row'.recipientKey = row.recipientKey := by
      obtain ⟨found, hfound, hfoundChange⟩ := step_change h hrow
      rw [hrow'] at hfound
      cases hfound
      exact hfoundChange.recipientKey_eq
    have hid := hone' row' (Table.mem_of_lookup hrow') other (Table.mem_of_lookup hother') hopen'
      hopen (hsame.trans hkey'.symm)
    exact hne (hid.trans (id_of_row hrow'))
  · intro hfree
    have hopened : ∀ row ∈ s.rows, ¬ row.isOpen → (f row).isOpen → ∀ other ∈ s.rows,
        (f other).isOpen → other.recipientKey = row.recipientKey → other.id = row.id := by
      intro row hrow hclosed hopen other hother hotherOpen hsame
      obtain ⟨hid, hcond⟩ := honly row (f row) (hchange row) hclosed hopen
      have hfound : s.row id = some row := by
        rw [← hid]
        exact Table.lookup_of_mem hids hrow
      by_cases hbefore : other.isOpen
      · exact absurd hsame (hfree row hfound hcond hclosed other hother hbefore)
      · rw [(honly other (f other) (hchange other) hbefore hotherOpen).1, hid]
    rw [hrows]
    intro row hrow other hother hopen hotherOpen hsame
    obtain ⟨old, hold, rfl⟩ := List.mem_map.mp hrow
    obtain ⟨oldOther, holdOther, rfl⟩ := List.mem_map.mp hother
    rw [hrecipient, hrecipient] at hsame
    rw [hkey, hkey]
    by_cases hbefore : old.isOpen
    · by_cases hotherBefore : oldOther.isOpen
      · exact hone old hold oldOther holdOther hbefore hotherBefore hsame
      · exact (hopened oldOther holdOther hotherBefore hotherOpen old hold hopen hsame.symm).symm
    · exact hopened old hold hbefore hopen oldOther holdOther hotherOpen hsame

/-- What the board keeps: distinct ids, and prepared links that are pending. -/
structure BoardInv (b : Board) : Prop where
  ids : (b.forms.rows.map Request.id).Nodup
  pending : ∀ entry ∈ b.prepared, ∀ link ∈ entry.2, link.status = .pending

theorem boardInv_start {rows : List Request} (hids : (rows.map Request.id).Nodup) :
    BoardInv (Board.start rows) where
  ids := hids
  pending _ h := by cases h

/-- An event that opens no row keeps one open link per recipient. -/
theorem oneOpen_kept {s s' : State} {e : Event} (hone : OneOpen s.rows)
    (h : step s e = some s') (hcreate : ∀ row, e ≠ .create row)
    (hclosed : ∀ row row', Change s e row row' → row'.isOpen → row.isOpen) : OneOpen s'.rows := by
  obtain ⟨f, hkey, hchange, hrows⟩ := step_changes h hcreate
  rw [hrows]
  intro row hrow other hother hopen hotherOpen hsame
  obtain ⟨old, hold, rfl⟩ := List.mem_map.mp hrow
  obtain ⟨oldOther, holdOther, rfl⟩ := List.mem_map.mp hother
  rw [(hchange old).recipientKey_eq, (hchange oldOther).recipientKey_eq] at hsame
  rw [hkey, hkey]
  exact hone old hold oldOther holdOther (hclosed old _ (hchange old) hopen)
    (hclosed oldOther _ (hchange oldOther) hotherOpen) hsame

/-- What a step on the shared rows does to the board. -/
theorem board_event {b b' : Board} {e : Event} (h : b.step (.event e) = some b') :
    (∀ row, e ≠ .create row) ∧
      ∃ forms, step b.forms e = some forms ∧ b' = { b with forms } := by
  have hcreate : ∀ row, e ≠ .create row := by
    intro row heq
    subst heq
    cases h
  refine ⟨hcreate, ?_⟩
  have hmap : b.step (.event e) =
      (step b.forms e).map fun forms => { b with forms } := by
    cases e with
    | create row => exact absurd rfl (hcreate row)
    | _ => rfl
  rw [hmap] at h
  obtain ⟨forms, hstep, rfl⟩ := Option.map_eq_some_iff.mp h
  exact ⟨forms, hstep, rfl⟩

/-- The exact condition under which a step keeps one open link per recipient. -/
theorem oneOpen_step {b b' : Board} {e : BoardEvent} (hinv : BoardInv b)
    (hone : OneOpen b.forms.rows) (h : b.step e = some b') :
    OneOpen b'.forms.rows ↔ Single b e := by
  cases e with
  | prepare sid args =>
      simp only [Board.step] at h
      split at h
      · cases h
      · cases h
        exact iff_of_true hone trivial
  | giveUp sid =>
      cases h
      exact iff_of_true hone trivial
  | insert sid =>
      simp only [Board.step] at h
      split at h
      · cases h
      · rename_i links hfind
        cases h
        have hmem := List.mem_of_find?_eq_some hfind
        have hopen : ∀ link ∈ links, link.isOpen := fun link hlink =>
          isOpen_of_status (hinv.pending _ hmem link hlink) (by decide)
        have hinsert := oneOpen_insertLinks hopen b.forms.rows
        simp only [Single, hfind, Option.mem_def, Option.some.injEq, forall_eq']
        exact hinsert.trans (and_iff_right hone)
  | event e =>
      obtain ⟨hcreate, forms, hstep, rfl⟩ := board_event h
      by_cases hreissue : ∃ sid id tenantId referenceId now ttl workItem,
          e = .reissue sid id tenantId referenceId now ttl workItem
      · obtain ⟨sid, id, tenantId, referenceId, now, ttl, workItem, rfl⟩ := hreissue
        obtain ⟨hothers, hopens⟩ := reissue_opens hstep
        have hiff := @oneOpen_reopen b.forms forms _ id
          (fun row => row.m8fTenantId = tenantId ∧ reissueRefusal now row = none)
          hinv.ids hone hstep hcreate hothers
          (fun row hrow hcond hclosed => hopens row hrow hcond.1 hcond.2 hclosed) (by
            intro row row' hchange hclosed hopen
            rcases hchange.opened hopen with hbefore | ⟨_, _, _, _, _, _, he, htenant, hrefusal⟩ |
              ⟨_, _, he, _⟩
            · exact absurd hbefore hclosed
            · cases he
              exact ⟨rfl, htenant, hrefusal⟩
            · cases he)
        refine hiff.trans ⟨?_, ?_⟩
        · intro hfree row hrow htenant hrefusal
          exact hfree row hrow ⟨htenant, hrefusal⟩
        · intro hsingle row hrow hcond
          exact hsingle row hrow hcond.1 hcond.2
      · by_cases hfailure : ∃ sid, e = .recordFailure sid
        · obtain ⟨sid, rfl⟩ := hfailure
          have hphase : ∃ id reason, b.forms.phase sid = .failing id reason := by
            simp only [step] at hstep
            split at hstep
            · rename_i id reason hphase
              exact ⟨id, reason, hphase⟩
            · cases hstep
          obtain ⟨id, reason, hphase⟩ := hphase
          obtain ⟨hothers, hopens⟩ := recordFailure_opens hstep hphase
          have hiff := @oneOpen_reopen b.forms forms _ id (fun _ => True)
            hinv.ids hone hstep hcreate hothers
            (fun row hrow _ _ => hopens row hrow) (by
              intro row row' hchange hclosed hopen
              rcases hchange.opened hopen with hbefore | ⟨_, _, _, _, _, _, he, _⟩ |
                ⟨_, _, he, hphase'⟩
              · exact absurd hbefore hclosed
              · cases he
              · cases he
                rw [hphase] at hphase'
                cases hphase'
                exact ⟨rfl, trivial⟩)
          simp only [Single, hphase, Phase.failingId, Option.mem_def, Option.some.injEq, forall_eq']
          refine hiff.trans ⟨?_, ?_⟩
          · intro hfree row hrow
            exact hfree row hrow trivial
          · intro hsingle row hrow _
            exact hsingle row hrow
        · have hkept : OneOpen forms.rows := by
            apply oneOpen_kept hone hstep hcreate
            intro row row' hchange hopen
            rcases hchange.opened hopen with hbefore | ⟨_, _, _, _, _, _, he, _⟩ | ⟨_, _, he, _⟩
            · exact hbefore
            · exact absurd ⟨_, _, _, _, _, _, _, he⟩ hreissue
            · exact absurd ⟨_, he⟩ hfailure
          refine iff_of_true hkept ?_
          cases e with
          | reissue => exact absurd ⟨_, _, _, _, _, _, _, rfl⟩ hreissue
          | recordFailure => exact absurd ⟨_, rfl⟩ hfailure
          | _ => trivial

theorem boardInv_step {b b' : Board} {e : BoardEvent} (hinv : BoardInv b)
    (h : b.step e = some b') : BoardInv b' := by
  cases e with
  | prepare sid args =>
      simp only [Board.step] at h
      split at h
      · cases h
      · cases h
        refine ⟨hinv.ids, ?_⟩
        intro entry hentry link hlink
        rcases List.mem_cons.mp hentry with rfl | hold
        · obtain ⟨recipient, _, rfl⟩ := List.mem_map.mp hlink
          rfl
        · exact hinv.pending entry hold link hlink
  | giveUp sid =>
      cases h
      refine ⟨hinv.ids, ?_⟩
      intro entry hentry
      exact hinv.pending entry (List.mem_of_mem_filter hentry)
  | insert sid =>
      simp only [Board.step] at h
      split at h
      · cases h
      · cases h
        refine ⟨ids_insertLinks hinv.ids, ?_⟩
        intro entry hentry
        exact hinv.pending entry (List.mem_of_mem_filter hentry)
  | event e =>
      obtain ⟨hcreate, forms, hstep, rfl⟩ := board_event h
      obtain ⟨f, hkey, _, hrows⟩ := step_changes hstep hcreate
      refine ⟨?_, hinv.pending⟩
      show (forms.rows.map Request.id).Nodup
      rw [hrows, List.map_map]
      have hsame : b.forms.rows.map (Request.id ∘ f) = b.forms.rows.map Request.id :=
        List.map_congr_left fun row _ => hkey row
      rw [hsame]
      exact hinv.ids

/-! ## Runs -/

/-- The open links of one task and recipient. -/
def openLinks (rows : List Request) (processInstanceId : Nat) (taskGuid email : String) :
    List Request :=
  rows.filter fun row => row.isOpen ∧ row.recipientKey = (processInstanceId, taskGuid, email)

/-- With distinct ids, one open link per recipient is a bound on their number. -/
theorem length_openLinks {rows : List Request} (hids : (rows.map Request.id).Nodup) :
    OneOpen rows ↔ ∀ processInstanceId taskGuid email,
      (openLinks rows processInstanceId taskGuid email).length ≤ 1 := by
  constructor
  · intro hone processInstanceId taskGuid email
    have hsub : ((openLinks rows processInstanceId taskGuid email).map Request.id).Nodup :=
      hids.sublist (List.filter_sublist.map _)
    have hsame : ∀ row ∈ openLinks rows processInstanceId taskGuid email,
        ∀ other ∈ openLinks rows processInstanceId taskGuid email, other.id = row.id := by
      intro row hrow other hother
      obtain ⟨hmem, hcond⟩ := List.mem_filter.mp hrow
      obtain ⟨hmem', hcond'⟩ := List.mem_filter.mp hother
      simp only [Bool.decide_and, Bool.and_eq_true, decide_eq_true_eq] at hcond hcond'
      exact hone row hmem other hmem' hcond.1 hcond'.1 (hcond'.2.trans hcond.2.symm)
    cases hlinks : openLinks rows processInstanceId taskGuid email with
    | nil => simp
    | cons first rest =>
        cases rest with
        | nil => simp
        | cons second rest =>
            rw [hlinks] at hsub hsame
            have heq := hsame first List.mem_cons_self second
              (List.mem_cons_of_mem _ List.mem_cons_self)
            simp [heq] at hsub
  · intro hlength row hrow other hother hopen hotherOpen hkey
    have hbound := hlength row.processInstanceId row.taskGuid row.email
    have hmem : row ∈ openLinks rows row.processInstanceId row.taskGuid row.email :=
      List.mem_filter.mpr ⟨hrow, by simp [hopen, Request.recipientKey]⟩
    have hmem' : other ∈ openLinks rows row.processInstanceId row.taskGuid row.email :=
      List.mem_filter.mpr ⟨hother, by simp [hotherOpen, hkey]; rfl⟩
    cases hlinks : openLinks rows row.processInstanceId row.taskGuid row.email with
    | nil =>
        rw [hlinks] at hmem
        cases hmem
    | cons first rest =>
        rw [hlinks] at hbound hmem hmem'
        have hrest : rest = [] := by
          simp only [List.length_cons] at hbound
          exact List.length_eq_zero_iff.mp (by omega)
        rw [hrest] at hmem hmem'
        rw [List.mem_singleton.mp hmem, List.mem_singleton.mp hmem']

/-- In every run whose steps meet the condition, a recipient holds one open link of a task
at most. -/
theorem one_open_link {rows : List Request} (hids : (rows.map Request.id).Nodup)
    (hone : ∀ processInstanceId taskGuid email,
      (openLinks rows processInstanceId taskGuid email).length ≤ 1)
    {es : List BoardEvent} {b : Board} (hrun : Run Board.step Single (Board.start rows) es b)
    (processInstanceId : Nat) (taskGuid email : String) :
    (openLinks b.forms.rows processInstanceId taskGuid email).length ≤ 1 := by
  have hkept : BoardInv b ∧ OneOpen b.forms.rows :=
    @Run.invariant _ _ _ _ (fun b => BoardInv b ∧ OneOpen b.forms.rows) _ _ _ hrun
      ⟨boardInv_start hids, (length_openLinks hids).mpr hone⟩
      fun _ _ _ h hsingle hstep =>
        ⟨boardInv_step h.1 hstep, (oneOpen_step h.1 h.2 hstep).mpr hsingle⟩
  exact (length_openLinks hkept.1.ids).mp hkept.2 processInstanceId taskGuid email

/-- The arguments that make the links of `reviewTask`. -/
def reviewArgs (recipients : List Recipient) : LinkArgs where
  tenantId := "t1"
  processInstanceId := 7
  taskGuid := "review"
  externalFormUrl := "https://forms.test/f"
  recipients := recipients
  expiresAtInSeconds := 1000

/-- Two recipients get their links, the producer runs again, and one link is re-issued after
it failed: still one open link each. -/
theorem links_stay_single :
    ∃ b, Run Board.step Single (Board.start [])
        [.prepare 1 (reviewArgs [⟨11, "a@t1.test", "ref-a"⟩, ⟨12, "b@t1.test", "ref-b"⟩]),
          .insert 1, .prepare 1 (reviewArgs [⟨11, "a@t1.test", "ref-c"⟩]), .insert 1,
          .event (.reissue 2 1 "t1" "ref-d" 50 3600 none)] b ∧
      (openLinks b.forms.rows 7 "review" "a@t1.test").map Request.referenceId = ["ref-d"] ∧
      (openLinks b.forms.rows 7 "review" "b@t1.test").length ≤ 1 := by
  have hrun : ∃ b, Run Board.step Single (Board.start [])
      [.prepare 1 (reviewArgs [⟨11, "a@t1.test", "ref-a"⟩, ⟨12, "b@t1.test", "ref-b"⟩]),
        .insert 1, .prepare 1 (reviewArgs [⟨11, "a@t1.test", "ref-c"⟩]), .insert 1,
        .event (.reissue 2 1 "t1" "ref-d" 50 3600 none)] b ∧
      (openLinks b.forms.rows 7 "review" "a@t1.test").map Request.referenceId = ["ref-d"] :=
    run_of_exec_map (by decide)
  obtain ⟨b, hrun, hlinks⟩ := hrun
  have hnone : ∀ processInstanceId taskGuid email,
      (openLinks [] processInstanceId taskGuid email).length ≤ 1 := fun _ _ _ => Nat.zero_le 1
  have hids : (([] : List Request).map Request.id).Nodup := List.nodup_nil
  exact ⟨b, hrun, hlinks, one_open_link hids hnone hrun 7 "review" "b@t1.test"⟩

/-- A link expires, the producer makes a new one for its recipient, and an admin re-issues
the old one: two open links.  Two users who share an email get two open links at once. -/
theorem recipient_holds_two_links :
    (∃ b, Run Board.step (fun _ _ => True) (Board.start [])
        [.prepare 1 (reviewArgs [⟨11, "a@t1.test", "ref-a"⟩]), .insert 1,
          .event (.read 2 1), .event (.expireRead 2 1001),
          .prepare 1 (reviewArgs [⟨11, "a@t1.test", "ref-b"⟩]), .insert 1,
          .event (.reissue 3 1 "t1" "ref-c" 1100 3600 none)] b ∧
      (openLinks b.forms.rows 7 "review" "a@t1.test").map Request.referenceId =
        ["ref-c", "ref-b"]) ∧
    ∃ b, Run Board.step (fun _ _ => True) (Board.start [])
        [.prepare 1 (reviewArgs [⟨11, "a@t1.test", "ref-a"⟩, ⟨12, "a@t1.test", "ref-b"⟩]),
          .insert 1] b ∧
      (openLinks b.forms.rows 7 "review" "a@t1.test").map Request.referenceId =
        ["ref-a", "ref-b"] :=
  ⟨run_of_exec_map (by decide), run_of_exec_map (by decide)⟩

end M8flow.ExternalForm
