import M8flow.Invitation.Service
import M8flow.Lib.Run
import Mathlib.Logic.Function.Basic

/-!
# Overlapping calls on one invitation

Calls of `accept_invitation`, `revoke_invitation` and `resend_invitation` on one
invitation, by any callers.  A call loads the row, decides on its copy, works with the
directory or the mailer, and commits; no lock is held from the load to the commit, and
a commit writes the changed columns whatever the row has become.

`Meets` is what a commit must find for the invitation to stay single-use:

- `inv_step` is what a step keeps under it;
- `single_use` is what holds in every state of such a run;
- `overlapping_calls` is a run of three calls that breaks all of it.
-/

namespace M8flow.Invitation.SingleUse

open M8flow.Lib

/-- A call, with its arguments. -/
inductive Call where
  | accept (rawToken : Option Text) (password : Text)
  | revoke (modifiedBy : Text)
  | resend (rawToken modifiedBy : Text)
  deriving DecidableEq

/-- How far a call is, with its copy of the row. -/
inductive Phase where
  | idle
  | loaded (call : Call) (copy : TenantInvitation)
  /-- `_maybe_expire` changed the copy and has not committed it. -/
  | expiring (call : Call) (copy : TenantInvitation)
  /-- The checks are passed. -/
  | ready (call : Call) (copy : TenantInvitation)
  /-- An acceptance has made the membership. -/
  | granted (copy : TenantInvitation)
  | finished
  | failed (failure : Failure)
  deriving DecidableEq

/-- A committed acceptance: its token, and whether that was revoked or replaced. -/
structure Acceptance where
  tokenHash : Text
  dead : Bool
  deriving DecidableEq

/-- The row, the clock and the calls; the tokens issued, those revoked or replaced, and
the acceptances are kept for the statements only. -/
structure State where
  row : TenantInvitation
  clock : Int
  calls : Nat → Phase
  issued : List Text
  dead : List Text
  acceptances : List Acceptance

/-- An invitation of which no call has begun. -/
def State.start (row : TenantInvitation) (clock : Int) : State :=
  { row, clock, calls := fun _ => .idle, issued := [row.tokenHash], dead := [],
    acceptances := [] }

/-- The clock moves, or a call does its next step. -/
inductive Event where
  | tick (clock : Int)
  | load (c : Nat) (call : Call)
  | decide (c : Nat)
  | expire (c : Nat)
  | grant (c : Nat)
  | fail (c : Nat)
  | commit (c : Nat)

def State.setCall (s : State) (c : Nat) (phase : Phase) : State :=
  { s with calls := Function.update s.calls c phase }

/-- The phase after a check of the copy. -/
def afterCheck (call : Call) (copy : TenantInvitation) (check : Except ApiError Unit) : Phase :=
  match check with
  | .ok _ => .ready call copy
  | .error error => .failed (.api error)

section Step

variable (hashToken : Text → Text)

/-- Load the row; an acceptance looks it up by its token. -/
def load (row : TenantInvitation) (call : Call) : Phase :=
  match call with
  | .accept rawToken password =>
      match checkPassword password, checkToken rawToken with
      | .error error, _ => .failed (.api error)
      | _, .error error => .failed (.api error)
      | .ok _, .ok token =>
          if row.tokenHash = hashToken token then .loaded call row
          else .failed (.api (.of "invalid_invitation" "This invitation link is invalid." 404))
  | _ => .loaded call row

/-- The checks on the copy, after `_maybe_expire` where the call makes it. -/
def decideOn (clock : Int) (call : Call) (copy : TenantInvitation) : Phase :=
  match call with
  | .accept _ _ =>
      if maybeExpire clock copy ≠ copy then .expiring call copy
      else afterCheck call copy (checkPending copy)
  | .resend _ _ =>
      if maybeExpire clock copy ≠ copy then .expiring call copy
      else afterCheck call copy (checkResendable copy)
  | .revoke _ => afterCheck call copy (checkRevocable copy)

/-- The phase after the commit of an expired copy. -/
def afterExpire (call : Call) (copy : TenantInvitation) : Phase :=
  match call with
  | .accept _ _ => afterCheck call copy (checkPending copy)
  | _ => afterCheck call copy (checkResendable copy)

/-- One step.  A token that a resend makes was never issued before. -/
def step (s : State) : Event → Option State
  | .tick clock => if s.clock ≤ clock then some { s with clock } else none
  | .load c call =>
      match s.calls c with
      | .idle => some (s.setCall c (load hashToken s.row call))
      | _ => none
  | .decide c =>
      match s.calls c with
      | .loaded call copy => some (s.setCall c (decideOn s.clock call copy))
      | _ => none
  | .expire c =>
      match s.calls c with
      | .expiring call copy =>
          let expired := { copy with status := .expired }
          some ({ s with row := flush copy expired s.row }.setCall c (afterExpire call expired))
      | _ => none
  | .grant c =>
      match s.calls c with
      | .ready (.accept _ _) copy => some (s.setCall c (.granted copy))
      | _ => none
  | .fail c =>
      match s.calls c with
      | .ready _ _ => some (s.setCall c (.failed .other))
      | _ => none
  | .commit c =>
      match s.calls c with
      | .granted copy =>
          some ({ s with
            row := flush copy (accepted s.clock copy) s.row
            acceptances := ⟨copy.tokenHash, s.dead.contains copy.tokenHash⟩ :: s.acceptances
            }.setCall c .finished)
      | .ready (.revoke modifiedBy) copy =>
          some ({ s with
            row := flush copy (revoked modifiedBy copy) s.row
            dead := s.row.tokenHash :: s.dead }.setCall c .finished)
      | .ready (.resend rawToken modifiedBy) copy =>
          if hashToken rawToken ∈ s.issued then none
          else
            some ({ s with
              row := flush copy (resent (hashToken rawToken) s.clock modifiedBy copy) s.row
              issued := hashToken rawToken :: s.issued
              dead := s.row.tokenHash :: s.dead }.setCall c .finished)
      | _ => none

end Step

/-- The row can still be accepted, or expire. -/
def Open (row : TenantInvitation) : Prop := row.status = .pending ∨ row.status = .expired

instance (row : TenantInvitation) : Decidable (Open row) := by
  unfold Open
  infer_instance

/-- The row is still one that a call in this phase may change as its commit does. -/
def Finds (row : TenantInvitation) : Phase → Prop
  | .granted copy => row.tokenHash = copy.tokenHash ∧ Open row
  | .ready (.revoke _) copy =>
      row.status ≠ .accepted ∧ (copy.status = .revoked → row.status = .revoked)
  | .ready (.resend _ _) copy => copy.status = .expired → row.status ≠ .accepted
  | _ => True

instance (row : TenantInvitation) : ∀ phase, Decidable (Finds row phase)
  | .granted copy => inferInstanceAs (Decidable (row.tokenHash = copy.tokenHash ∧ Open row))
  | .ready (.revoke _) copy => inferInstanceAs (Decidable
      (row.status ≠ .accepted ∧ (copy.status = .revoked → row.status = .revoked)))
  | .ready (.resend _ _) copy => inferInstanceAs (Decidable
      (copy.status = .expired → row.status ≠ .accepted))
  | .ready (.accept _ _) _ | .idle | .loaded _ _ | .expiring _ _ | .finished | .failed _ =>
      inferInstanceAs (Decidable True)

/-- A commit finds the row as it needs it. -/
def Meets (s : State) : Event → Prop
  | .expire _ => Open s.row
  | .commit c => Finds s.row (s.calls c)
  | _ => True

instance (s : State) : ∀ e, Decidable (Meets s e)
  | .expire _ => inferInstanceAs (Decidable (Open s.row))
  | .commit c => inferInstanceAs (Decidable (Finds s.row (s.calls c)))
  | .tick _ | .load _ _ | .decide _ | .grant _ | .fail _ => inferInstanceAs (Decidable True)

/-! ## The invariant -/

/-- What the copy of a call is in each phase. -/
def CopyOk (issued : List Text) : Phase → Prop
  | .loaded _ copy => copy.tokenHash ∈ issued
  | .expiring call copy => copy.tokenHash ∈ issued ∧ copy.status = .pending ∧
      ∀ modifiedBy, call ≠ .revoke modifiedBy
  | .ready (.accept _ _) copy => copy.tokenHash ∈ issued ∧ copy.status = .pending
  | .ready (.resend _ _) copy => copy.tokenHash ∈ issued ∧ Open copy
  | .ready (.revoke _) copy => copy.tokenHash ∈ issued
  | .granted copy => copy.status = .pending
  | _ => True

/-- What holds in every state of a run that meets the condition. -/
structure Inv (s : State) : Prop where
  row : s.row.tokenHash ∈ s.issued
  dead : ∀ token ∈ s.dead, token ∈ s.issued
  alive : Open s.row → s.row.tokenHash ∉ s.dead
  calls : ∀ c, CopyOk s.issued (s.calls c)
  accepted : s.acceptances ≠ [] → s.row.status = .accepted
  once : s.acceptances.length ≤ 1
  fresh : ∀ acceptance ∈ s.acceptances, acceptance.dead = false

theorem inv_start (row : TenantInvitation) (clock : Int) : Inv (State.start row clock) where
  row := List.mem_singleton_self _
  dead _ h := by cases h
  alive _ h := by cases h
  calls _ := trivial
  accepted h := absurd rfl h
  once := Nat.zero_le 1
  fresh _ h := by cases h

/-- More issued tokens change nothing for a call. -/
theorem CopyOk.mono {issued issued' : List Text} {phase : Phase} (h : CopyOk issued phase)
    (hsub : ∀ token ∈ issued, token ∈ issued') : CopyOk issued' phase := by
  cases phase with
  | loaded call copy => exact hsub _ h
  | expiring call copy => exact ⟨hsub _ h.1, h.2⟩
  | ready call copy =>
      cases call with
      | accept rawToken password => exact ⟨hsub _ h.1, h.2⟩
      | revoke modifiedBy => exact hsub _ h
      | resend rawToken modifiedBy => exact ⟨hsub _ h.1, h.2⟩
  | granted copy => exact h
  | idle | finished | failed failure => trivial

/-- A call goes to a phase whose copy is right. -/
theorem Inv.setCall {s : State} (hinv : Inv s) {c : Nat} {phase : Phase}
    (hphase : CopyOk s.issued phase) : Inv (s.setCall c phase) := by
  refine { hinv with calls := ?_ }
  intro other
  by_cases hother : other = c
  · have hself : (s.setCall c phase).calls c = phase := Function.update_self _ _ _
    rw [hother, hself]
    exact hphase
  · have hsame : (s.setCall c phase).calls other = s.calls other :=
      Function.update_of_ne hother _ _
    rw [hsame]
    exact hinv.calls other

theorem copyOk_afterCheck {issued : List Text} {call : Call} {copy : TenantInvitation}
    {check : Except ApiError Unit} (h : check = .ok () → CopyOk issued (.ready call copy)) :
    CopyOk issued (afterCheck call copy check) := by
  unfold afterCheck
  split
  · exact h rfl
  · trivial

theorem status_of_checkPending {copy : TenantInvitation} (h : checkPending copy = .ok ()) :
    copy.status = .pending := by
  unfold checkPending at h
  split at h
  · cases h
  · assumption
  · cases h
  · cases h

theorem open_of_checkResendable {copy : TenantInvitation} (h : checkResendable copy = .ok ()) :
    Open copy := by
  unfold checkResendable at h
  split at h
  · left
    assumption
  · right
    assumption
  · cases h
  · cases h

theorem pending_of_maybeExpire {clock : Int} {copy : TenantInvitation}
    (h : maybeExpire clock copy ≠ copy) : copy.status = .pending := by
  unfold maybeExpire at h
  split at h
  · rename_i hexpired
    exact hexpired.1
  · exact absurd rfl h

/-- The copy after the checks. -/
theorem copyOk_decideOn {issued : List Text} {clock : Int} {call : Call}
    {copy : TenantInvitation} (h : copy.tokenHash ∈ issued) :
    CopyOk issued (decideOn clock call copy) := by
  cases call with
  | accept rawToken password =>
      unfold decideOn
      dsimp only
      split
      · rename_i hexpired
        exact ⟨h, pending_of_maybeExpire hexpired, fun _ hne => by cases hne⟩
      · exact copyOk_afterCheck fun hcheck => ⟨h, status_of_checkPending hcheck⟩
  | revoke modifiedBy => exact copyOk_afterCheck fun _ => h
  | resend rawToken modifiedBy =>
      unfold decideOn
      dsimp only
      split
      · rename_i hexpired
        exact ⟨h, pending_of_maybeExpire hexpired, fun _ hne => by cases hne⟩
      · exact copyOk_afterCheck fun hcheck => ⟨h, open_of_checkResendable hcheck⟩

/-- The copy after an expiry was committed; only a resend goes on from it. -/
theorem copyOk_afterExpire {issued : List Text} {call : Call} {copy : TenantInvitation}
    (h : copy.tokenHash ∈ issued) (hrevoke : ∀ modifiedBy, call ≠ .revoke modifiedBy) :
    CopyOk issued (afterExpire call copy) := by
  cases call with
  | accept rawToken password =>
      exact copyOk_afterCheck fun hcheck => ⟨h, status_of_checkPending hcheck⟩
  | revoke modifiedBy => exact absurd rfl (hrevoke modifiedBy)
  | resend rawToken modifiedBy =>
      exact copyOk_afterCheck fun hcheck => ⟨h, open_of_checkResendable hcheck⟩

theorem copyOk_load {hashToken : Text → Text} {issued : List Text} {row : TenantInvitation}
    {call : Call} (h : row.tokenHash ∈ issued) : CopyOk issued (load hashToken row call) := by
  cases call with
  | accept rawToken password =>
      unfold load
      dsimp only
      split
      · trivial
      · trivial
      · split
        · exact h
        · trivial
  | revoke modifiedBy => exact h
  | resend rawToken modifiedBy => exact h

/-! ## Commits -/

/-- An open row is not accepted. -/
theorem Open.ne_accepted {row : TenantInvitation} (h : Open row) : row.status ≠ .accepted := by
  intro haccepted
  rcases h with hpending | hexpired
  · rw [hpending] at haccepted
    cases haccepted
  · rw [hexpired] at haccepted
    cases haccepted

/-- Before a row that is not accepted there was no acceptance. -/
theorem Inv.acceptances_nil {s : State} (hinv : Inv s) (h : s.row.status ≠ .accepted) :
    s.acceptances = [] := by
  by_contra hne
  exact h (hinv.accepted hne)

theorem status_flush_of_ne {loaded changed stored : TenantInvitation}
    (h : changed.status ≠ loaded.status) : (flush loaded changed stored).status = changed.status :=
  if_neg h

theorem status_flush_of_eq {loaded changed stored : TenantInvitation}
    (h : changed.status = loaded.status) : (flush loaded changed stored).status = stored.status :=
  if_pos h

theorem tokenHash_flush_of_eq {loaded changed stored : TenantInvitation}
    (h : changed.tokenHash = loaded.tokenHash) :
    (flush loaded changed stored).tokenHash = stored.tokenHash :=
  if_pos h

theorem tokenHash_flush_of_ne {loaded changed stored : TenantInvitation}
    (h : changed.tokenHash ≠ loaded.tokenHash) :
    (flush loaded changed stored).tokenHash = changed.tokenHash :=
  if_neg h

/-- The lazy expiry of an open row. -/
theorem inv_expire {s : State} (hinv : Inv s) (hopen : Open s.row)
    (copy : TenantInvitation) :
    Inv { s with row := flush copy { copy with status := .expired } s.row } := by
  have htoken : (flush copy { copy with status := .expired } s.row).tokenHash = s.row.tokenHash :=
    tokenHash_flush_of_eq rfl
  refine { hinv with row := ?_, alive := ?_, accepted := ?_ }
  · exact htoken ▸ hinv.row
  · intro _
    exact htoken ▸ hinv.alive hopen
  · intro hne
    exact absurd (hinv.acceptances_nil hopen.ne_accepted) hne

/-- An acceptance of an open row that has the token. -/
theorem inv_accept {s : State} (hinv : Inv s) (hopen : Open s.row) {copy : TenantInvitation}
    (hcopy : copy.status = .pending) (htoken : s.row.tokenHash = copy.tokenHash) :
    Inv { s with
      row := flush copy (accepted s.clock copy) s.row
      acceptances := ⟨copy.tokenHash, s.dead.contains copy.tokenHash⟩ :: s.acceptances } := by
  have hsame : (flush copy (accepted s.clock copy) s.row).tokenHash = s.row.tokenHash :=
    tokenHash_flush_of_eq rfl
  have hstatus : (flush copy (accepted s.clock copy) s.row).status = .accepted := by
    rw [status_flush_of_ne]
    · rfl
    · rw [hcopy]
      exact fun h => by cases h
  have hnil := hinv.acceptances_nil hopen.ne_accepted
  refine { hinv with row := ?_, alive := ?_, accepted := ?_, once := ?_, fresh := ?_ }
  · exact hsame ▸ hinv.row
  · intro h
    exact absurd hstatus h.ne_accepted
  · exact fun _ => hstatus
  · show s.acceptances.length + 1 ≤ 1
    rw [hnil]
    exact Nat.le_refl 1
  · intro acceptance hmem
    rw [hnil, List.mem_singleton] at hmem
    have halive := hinv.alive hopen
    rw [hmem]
    show s.dead.contains copy.tokenHash = false
    rw [← htoken]
    simpa using halive

/-- A revocation of a row that is not accepted. -/
theorem inv_revoke {s : State} (hinv : Inv s) {copy : TenantInvitation} (modifiedBy : Text)
    (haccepted : s.row.status ≠ .accepted)
    (hrevoked : copy.status = .revoked → s.row.status = .revoked) :
    Inv { s with
      row := flush copy (revoked modifiedBy copy) s.row
      dead := s.row.tokenHash :: s.dead } := by
  have htoken : (flush copy (revoked modifiedBy copy) s.row).tokenHash = s.row.tokenHash :=
    tokenHash_flush_of_eq rfl
  have hstatus : (flush copy (revoked modifiedBy copy) s.row).status = .revoked := by
    by_cases hcopy : copy.status = .revoked
    · rw [status_flush_of_eq hcopy.symm]
      exact hrevoked hcopy
    · rw [status_flush_of_ne]
      · rfl
      · exact fun h => hcopy h.symm
  refine { hinv with row := ?_, dead := ?_, alive := ?_, accepted := ?_ }
  · exact htoken ▸ hinv.row
  · intro token hmem
    rcases List.mem_cons.mp hmem with rfl | hold
    · exact hinv.row
    · exact hinv.dead token hold
  · intro h
    rcases h with hpending | hexpired
    · rw [hstatus] at hpending
      cases hpending
    · rw [hstatus] at hexpired
      cases hexpired
  · intro hne
    exact absurd (hinv.acceptances_nil haccepted) hne

/-- A resend with a token that is new. -/
theorem inv_resend {s : State} (hinv : Inv s) {copy : TenantInvitation} {tokenHash : Text}
    (modifiedBy : Text) (hnew : tokenHash ∉ s.issued) (hcopy : copy.tokenHash ∈ s.issued)
    (hopen : Open copy) (haccepted : copy.status = .expired → s.row.status ≠ .accepted) :
    Inv { s with
      row := flush copy (resent tokenHash s.clock modifiedBy copy) s.row
      issued := tokenHash :: s.issued
      dead := s.row.tokenHash :: s.dead } := by
  have htoken : (flush copy (resent tokenHash s.clock modifiedBy copy) s.row).tokenHash =
      tokenHash := by
    rw [tokenHash_flush_of_ne]
    · rfl
    · intro h
      have h : tokenHash = copy.tokenHash := h
      exact hnew (h ▸ hcopy)
  refine { hinv with row := ?_, dead := ?_, alive := ?_, calls := ?_, accepted := ?_ }
  · rw [htoken]
    exact List.mem_cons_self
  · intro token hmem
    rcases List.mem_cons.mp hmem with rfl | hold
    · exact List.mem_cons_of_mem _ hinv.row
    · exact List.mem_cons_of_mem _ (hinv.dead token hold)
  · intro _ hdead
    rw [htoken] at hdead
    rcases List.mem_cons.mp hdead with hrow | hold
    · exact hnew (hrow ▸ hinv.row)
    · exact hnew (hinv.dead _ hold)
  · intro c
    exact (hinv.calls c).mono fun token hmem => List.mem_cons_of_mem _ hmem
  · intro hne
    rcases hopen with hpending | hexpired
    · -- the copy was pending, so the status is not written
      have hstatus : (flush copy (resent tokenHash s.clock modifiedBy copy) s.row).status =
          s.row.status := status_flush_of_eq hpending.symm
      exact hstatus.trans (hinv.accepted hne)
    · exact absurd (hinv.acceptances_nil (haccepted hexpired)) hne

/-! ## Runs -/

/-- What one step keeps. -/
theorem inv_step {hashToken : Text → Text} {s t : State} {e : Event} (hinv : Inv s)
    (hmeets : Meets s e) (h : step hashToken s e = some t) : Inv t := by
  cases e with
  | tick clock =>
      simp only [step, Option.ite_none_right_eq_some, Option.some.injEq] at h
      obtain ⟨_, rfl⟩ := h
      exact { hinv with }
  | load c call =>
      simp only [step] at h
      split at h
      · cases h
        exact hinv.setCall (copyOk_load hinv.row)
      · cases h
  | decide c =>
      simp only [step] at h
      split at h
      · rename_i call copy hphase
        cases h
        have hcopy := hinv.calls c
        rw [hphase] at hcopy
        exact hinv.setCall (copyOk_decideOn hcopy)
      · cases h
  | expire c =>
      simp only [step] at h
      split at h
      · rename_i call copy hphase
        cases h
        have hcopy := hinv.calls c
        rw [hphase] at hcopy
        obtain ⟨hissued, _, hrevoke⟩ := hcopy
        exact (inv_expire hinv hmeets copy).setCall (copyOk_afterExpire hissued hrevoke)
      · cases h
  | grant c =>
      simp only [step] at h
      split at h
      · rename_i rawToken password copy hphase
        cases h
        have hcopy := hinv.calls c
        rw [hphase] at hcopy
        exact hinv.setCall hcopy.2
      · cases h
  | fail c =>
      simp only [step] at h
      split at h
      · cases h
        exact hinv.setCall trivial
      · cases h
  | commit c =>
      have hcopy := hinv.calls c
      simp only [step] at h
      simp only [Meets] at hmeets
      split at h
      · rename_i copy hphase
        cases h
        rw [hphase] at hcopy hmeets
        exact (inv_accept hinv hmeets.2 hcopy hmeets.1).setCall trivial
      · rename_i modifiedBy copy hphase
        cases h
        rw [hphase] at hmeets
        exact (inv_revoke hinv modifiedBy hmeets.1 hmeets.2).setCall trivial
      · rename_i rawToken modifiedBy copy hphase
        rw [hphase] at hcopy hmeets
        simp only [Option.ite_none_left_eq_some, Option.some.injEq] at h
        obtain ⟨hnew, rfl⟩ := h
        exact (inv_resend hinv modifiedBy hnew hcopy.1 hcopy.2 hmeets).setCall trivial
      · cases h

/-- An accepted row stays accepted. -/
theorem accepted_step {hashToken : Text → Text} {s t : State} {e : Event} (hinv : Inv s)
    (hmeets : Meets s e) (h : step hashToken s e = some t) (haccepted : s.row.status = .accepted) :
    t.row.status = s.row.status := by
  have hclosed : ¬ Open s.row := fun hopen => hopen.ne_accepted haccepted
  cases e with
  | tick clock =>
      simp only [step, Option.ite_none_right_eq_some, Option.some.injEq] at h
      obtain ⟨_, rfl⟩ := h
      rfl
  | load c call =>
      simp only [step] at h
      split at h
      · cases h
        rfl
      · cases h
  | decide c =>
      simp only [step] at h
      split at h
      · cases h
        rfl
      · cases h
  | expire c => exact absurd hmeets hclosed
  | grant c =>
      simp only [step] at h
      split at h
      · cases h
        rfl
      · cases h
  | fail c =>
      simp only [step] at h
      split at h
      · cases h
        rfl
      · cases h
  | commit c =>
      have hcopy := hinv.calls c
      simp only [step] at h
      simp only [Meets] at hmeets
      split at h
      · rename_i copy hphase
        rw [hphase] at hmeets
        exact absurd hmeets.2 hclosed
      · rename_i modifiedBy copy hphase
        rw [hphase] at hmeets
        exact absurd haccepted hmeets.1
      · rename_i rawToken modifiedBy copy hphase
        rw [hphase] at hcopy hmeets
        simp only [Option.ite_none_left_eq_some, Option.some.injEq] at h
        obtain ⟨_, rfl⟩ := h
        rcases hcopy.2 with hpending | hexpired
        · exact status_flush_of_eq hpending.symm
        · exact absurd haccepted (hmeets hexpired)
      · cases h

/-- In every run in which every commit finds what it needs, a token is consumed at most
once, by an acceptance whose token was neither revoked nor replaced when it committed, and
the status of the accepted invitation never changes. -/
theorem single_use {hashToken : Text → Text} {row : TenantInvitation} {clock : Int}
    {es : List Event} {s : State}
    (hrun : Run (step hashToken) Meets (State.start row clock) es s) :
    (s.acceptances.map Acceptance.tokenHash).Nodup ∧
    (∀ acceptance ∈ s.acceptances, acceptance.dead = false) ∧
    (∀ fs t, Run (step hashToken) Meets s fs t → s.row.status = .accepted →
      t.row.status = .accepted) := by
  have hinv : Inv s := hrun.invariant (inv_start row clock) fun _ _ _ hinv hmeets hstep =>
    inv_step hinv hmeets hstep
  refine ⟨?_, hinv.fresh, ?_⟩
  · have honce := hinv.once
    cases hlist : s.acceptances with
    | nil => exact List.nodup_nil
    | cons acceptance rest =>
        rw [hlist, List.length_cons] at honce
        have hnil : rest = [] := List.eq_nil_of_length_eq_zero (by omega)
        rw [hnil]
        exact List.nodup_singleton _
  · intro fs t hfs haccepted
    have hsame := hfs.frozen (fun s => s.row.status) (fun status => status = .accepted) hinv
      (fun _ _ _ hinv hmeets hstep => inv_step hinv hmeets hstep)
      (fun _ _ _ hinv hmeets hstep haccepted => accepted_step hinv hmeets hstep haccepted)
      haccepted
    exact hsame.trans haccepted

/-! ## Calls that overlap -/

/-- A pending invitation. -/
def invited : TenantInvitation :=
  ⟨['1'], ['t'], ['x', '@', 'y'], [], ['a'], .pending, 100, none, ['s'], ['s']⟩

/-- Load the row and check the copy. -/
def begin (c : Nat) (call : Call) : List Event := [.load c call, .decide c]

def accepting : Call := .accept (some ['a']) "password".toList

/-- A call that begins after the acceptance has committed changes nothing. -/
theorem single_use_in_turn :
    ∃ s : State, s.acceptances = [⟨['a'], false⟩] ∧
      (s.acceptances.map Acceptance.tokenHash).Nodup := by
  have hexec : (exec (step id) Meets (State.start invited 0)
      (begin 0 accepting ++ [.grant 0, .commit 0] ++ begin 1 accepting ++
        begin 2 (.revoke []))).map (fun s => s.acceptances) = some [⟨['a'], false⟩] := by
    decide +kernel
  obtain ⟨s, hrun, hvalue⟩ := run_of_exec_map hexec
  exact ⟨s, hvalue, (single_use hrun).1⟩

/-- Two acceptances that load the same pending row both succeed, the second after a
revocation has committed; and a revocation that loaded the row before the acceptance
committed takes the acceptance back. -/
theorem overlapping_calls :
    (∃ es s, Run (step id) (fun _ _ => True) (State.start invited 0) es s ∧
      s.acceptances = [⟨['a'], true⟩, ⟨['a'], false⟩]) ∧
    (∃ es fs s t, Run (step id) (fun _ _ => True) (State.start invited 0) es s ∧
      Run (step id) (fun _ _ => True) s fs t ∧ s.row.status = .accepted ∧
      t.row.status = .revoked) := by
  constructor
  · have hexec : (exec (step id) (fun _ _ => True) (State.start invited 0)
        (begin 0 accepting ++ begin 1 accepting ++ begin 2 (.revoke []) ++
          [.grant 0, .commit 0, .commit 2, .grant 1, .commit 1])).map
        (fun s => s.acceptances) = some [⟨['a'], true⟩, ⟨['a'], false⟩] := by decide +kernel
    obtain ⟨s, hrun, hvalue⟩ := run_of_exec_map hexec
    exact ⟨_, s, hrun, hvalue⟩
  · have hexec : ((exec (step id) (fun _ _ => True) (State.start invited 0)
        (begin 0 accepting ++ begin 2 (.revoke []) ++ [.grant 0, .commit 0])).bind fun s =>
          (exec (step id) (fun _ _ => True) s [.commit 2]).map fun t =>
            (s.row.status, t.row.status)) = some (.accepted, .revoked) := by decide +kernel
    obtain ⟨s, t, hrun, hrest, hvalue⟩ := run_of_exec_bind hexec
    obtain ⟨haccepted, hrevoked⟩ := Prod.mk.inj hvalue
    exact ⟨_, _, s, t, hrun, hrest, haccepted, hrevoked⟩

end M8flow.Invitation.SingleUse
