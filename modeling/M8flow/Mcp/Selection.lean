import M8flow.Lib.Run
import M8flow.Mcp.Organizations
import Mathlib.Logic.Function.Basic

/-!
# The selected tenant of a user

`_apply_tenant_context` of `middleware/tenant_context.py`, `finalize_tenant` and
`refresh_if_needed` of `auth/tenant_selection.py`, and `_finalize_and_store` of
`auth/oidc_tenant_proxy.py`, for the stored session of one user.  What runs between two
awaited calls is one step; the answer of the finalization endpoint is an input.

`Meets` is what a request or a selection must find when it stores a session:

- `inv_step` is what a step keeps under it;
- `latest_selection_kept` is what then holds of the store and of every later request;
- `lost_selection` is a run of a refresh and a selection that breaks both.
-/

namespace M8flow.Mcp

open M8flow.Lib M8flow.Auth M8flow.Keycloak

/-! ## Finalization -/

/-- `FinalizedSession`. -/
structure FinalizedSession where
  orgAlias : Text
  tenantId : Text
  accessToken : Text
  expiresAt : Int
  deriving Repr, DecidableEq

/-- `_TOKEN_REFRESH_MARGIN_SECONDS`. -/
def tokenRefreshMarginSeconds : Int := 60

/-- `FinalizedSession.is_fresh`. -/
def FinalizedSession.isFresh (session : FinalizedSession) (now : Int) : Bool :=
  now < session.expiresAt - tokenRefreshMarginSeconds

/-- What the finalization endpoint answers: nothing, or a status and two cookies. -/
inductive Response where
  | failed
  | answered (status : Nat) (tenantId accessToken : Option Text)

/-- `_raw_token`. -/
def rawToken (token : Text) : Text :=
  if "Bearer ".toList.isPrefixOf token then token.drop 7 else token

/-- `exp`, where it is a number; a Boolean is one. -/
def expiry (claims : Payload) : Option Int :=
  match Json.field claims "exp".toList with
  | some (.num n) => some n
  | some (.bool b) => some (if b then 1 else 0)
  | _ => none

namespace Selection

section Step

variable (decode : Text → Payload) (defaultTenantId : Option Text)

/-- `finalize_tenant`; `decode` is `decode_jwt_claims`. -/
def finalizeTenant (token orgAlias : Text) (now : Int) (response : Response) :
    Option FinalizedSession :=
  match response with
  | .failed => none
  | .answered status tenantId accessToken =>
      if 400 ≤ status then none
      else
        match truthy tenantId with
        | none => none
        | some tenantId =>
            let enrichedToken := (truthy accessToken).getD (rawToken token)
            some ⟨orgAlias, tenantId, enrichedToken,
              (expiry (decode enrichedToken)).getD (now + 900)⟩

/-- A request, with its session token and the step at which it began. -/
structure Request where
  token : Text
  begunAt : Nat
  deriving DecidableEq

/-- The tenant under which a request runs. -/
inductive Outcome where
  | installed (session : FinalizedSession)
  | resolved (resolution : Resolution)

/-- How far a request is; the awaited calls are the refresh, the automatic finalization
and the store. -/
inductive Phase where
  | idle
  | refreshing (request : Request) (stored : FinalizedSession)
  | finalizing (request : Request) (orgAlias : Text)
  | storing (request : Request) (session : FinalizedSession)
  | finished (request : Request) (outcome : Outcome)

/-- How far a selection is: the choice of a tenant on the selection page, or the login of
a user of one tenant. -/
inductive SelectPhase where
  | idle
  | finalizing (token orgAlias : Text) (begunAt : Nat)
  | storing (session : FinalizedSession) (begunAt : Nat)
  | finished
  | refused
  deriving DecidableEq

/-- The stored selection that the user began last. -/
structure Selected where
  orgAlias : Text
  begunAt : Nat
  storedAt : Nat
  deriving DecidableEq

/-- The user's entry of the store, the requests and the selections.  The number of steps
and the selection are kept for the statements only. -/
structure State where
  store : Option FinalizedSession
  requests : Nat → Phase
  selections : Nat → SelectPhase
  steps : Nat
  selected : Option Selected

/-- A server with whatever session is stored, of which no call has begun. -/
def State.start (store : Option FinalizedSession) : State :=
  { store, requests := fun _ => .idle, selections := fun _ => .idle, steps := 0,
    selected := none }

/-- A request or a selection does its next step. -/
inductive Event where
  | load (c : Nat) (token : Text) (now : Int)
  | respond (c : Nat) (response : Response) (now : Int)
  | store (c : Nat)
  | select (c : Nat) (token : Text) (choice : Option Text)
  | selectRespond (c : Nat) (response : Response) (now : Int)
  | selectStore (c : Nat)

def State.setRequest (s : State) (c : Nat) (phase : Phase) : State :=
  { s with requests := Function.update s.requests c phase }

def State.setSelection (s : State) (c : Nat) (phase : SelectPhase) : State :=
  { s with selections := Function.update s.selections c phase }

/-- The request goes on without a stored selection. -/
def withoutSelection (request : Request) : Phase :=
  match resolve (decode request.token) defaultTenantId with
  | .finalize orgAlias => .finalizing request orgAlias
  | resolution => .finished request (.resolved resolution)

/-- A request has loaded the stored session; `refresh_if_needed` hands on a fresh one. -/
def onLoad (stored : Option FinalizedSession) (request : Request) (now : Int) : Phase :=
  match stored with
  | none => withoutSelection decode defaultTenantId request
  | some session =>
      if session.isFresh now then .storing request session else .refreshing request session

/-- The selection page takes one of the user's tenants, a login the only one. -/
def onSelect (token : Text) (choice : Option Text) (begunAt : Nat) : SelectPhase :=
  let memberships := organizationMemberships (decode token)
  match choice, memberships with
  | some orgAlias, _ =>
      if orgAlias ∈ memberships.map Organization.orgAlias then .finalizing token orgAlias begunAt
      else .refused
  | none, [organization] => .finalizing token organization.orgAlias begunAt
  | none, _ => .refused

/-- The selection begun last, after one more is stored. -/
def latest (selected : Option Selected) (new : Selected) : Selected :=
  match selected with
  | some old => if old.begunAt ≤ new.begunAt then new else old
  | none => new

/-- What an event does, without the count of steps. -/
def State.apply (s : State) : Event → Option State
  | .load c token now =>
      match s.requests c with
      | .idle =>
          some (s.setRequest c (onLoad decode defaultTenantId s.store ⟨token, s.steps⟩ now))
      | _ => none
  | .respond c response now =>
      match s.requests c with
      | .refreshing request stored =>
          match finalizeTenant decode request.token stored.orgAlias now response with
          | some session => some (s.setRequest c (.storing request session))
          | none => some (s.setRequest c (withoutSelection decode defaultTenantId request))
      | .finalizing request orgAlias =>
          match finalizeTenant decode request.token orgAlias now response with
          | some session => some (s.setRequest c (.storing request session))
          | none => some (s.setRequest c (.finished request (.resolved .unresolved)))
      | _ => none
  | .store c =>
      match s.requests c with
      | .storing request session =>
          some ({ s with store := some session }.setRequest c
            (.finished request (.installed session)))
      | _ => none
  | .select c token choice =>
      match s.selections c with
      | .idle => some (s.setSelection c (onSelect decode token choice s.steps))
      | _ => none
  | .selectRespond c response now =>
      match s.selections c with
      | .finalizing token orgAlias begunAt =>
          match finalizeTenant decode token orgAlias now response with
          | some session => some (s.setSelection c (.storing session begunAt))
          | none => some (s.setSelection c .refused)
      | _ => none
  | .selectStore c =>
      match s.selections c with
      | .storing session begunAt =>
          some ({ s with
            store := some session
            selected := some (latest s.selected ⟨session.orgAlias, begunAt, s.steps⟩)
            }.setSelection c .finished)
      | _ => none

/-- One step of the server. -/
def step (s : State) (e : Event) : Option State :=
  (s.apply decode defaultTenantId e).map fun t => { t with steps := t.steps + 1 }

/-! ## What a store must find -/

/-- Once a selection is stored, a request stores a session only over one of the same
tenant. -/
def StoresBack (s : State) : Phase → Prop
  | .storing _ session =>
      s.selected = none ∨ ∀ current ∈ s.store, current.orgAlias = session.orgAlias
  | _ => True

/-- The refresh of a request that began after the selection was stored does not fail. -/
def Refreshes (s : State) (response : Response) (now : Int) : Phase → Prop
  | .refreshing request stored => ∀ selected ∈ s.selected, selected.storedAt < request.begunAt →
      finalizeTenant decode request.token stored.orgAlias now response ≠ none
  | _ => True

/-- No selection that the user began later is stored. -/
def InOrder (s : State) : SelectPhase → Prop
  | .storing _ begunAt => ∀ selected ∈ s.selected, selected.begunAt ≤ begunAt
  | _ => True

instance (s : State) : ∀ phase, Decidable (StoresBack s phase)
  | .storing _ session => inferInstanceAs
      (Decidable (s.selected = none ∨ ∀ current ∈ s.store, current.orgAlias = session.orgAlias))
  | .idle | .refreshing _ _ | .finalizing _ _ | .finished _ _ => inferInstanceAs (Decidable True)

instance (s : State) (response : Response) (now : Int) :
    ∀ phase, Decidable (Refreshes decode s response now phase)
  | .refreshing request stored => inferInstanceAs (Decidable
      (∀ selected ∈ s.selected, selected.storedAt < request.begunAt →
        finalizeTenant decode request.token stored.orgAlias now response ≠ none))
  | .idle | .storing _ _ | .finalizing _ _ | .finished _ _ => inferInstanceAs (Decidable True)

instance (s : State) : ∀ phase, Decidable (InOrder s phase)
  | .storing _ begunAt => inferInstanceAs
      (Decidable (∀ selected ∈ s.selected, selected.begunAt ≤ begunAt))
  | .idle | .finalizing _ _ _ | .finished | .refused => inferInstanceAs (Decidable True)

/-- The condition on a step. -/
def Meets (s : State) : Event → Prop
  | .respond c response now => Refreshes decode s response now (s.requests c)
  | .store c => StoresBack s (s.requests c)
  | .selectStore c => InOrder s (s.selections c)
  | _ => True

instance (s : State) : ∀ e, Decidable (Meets decode s e)
  | .respond c response now =>
      inferInstanceAs (Decidable (Refreshes decode s response now (s.requests c)))
  | .store c => inferInstanceAs (Decidable (StoresBack s (s.requests c)))
  | .selectStore c => inferInstanceAs (Decidable (InOrder s (s.selections c)))
  | .load _ _ _ | .select _ _ _ | .selectRespond _ _ _ => inferInstanceAs (Decidable True)

end Step

/-! ## The invariant -/

/-- The property holds of the selected tenant, if the request began after that selection
was stored. -/
def Follows (s : State) (request : Request) (P : Text → Prop) : Prop :=
  request.begunAt ≤ s.steps ∧
    ∀ selected ∈ s.selected, selected.storedAt < request.begunAt → P selected.orgAlias

/-- The request runs under the tenant. -/
def Outcome.Under (outcome : Outcome) (orgAlias : Text) : Prop :=
  ∃ session, outcome = .installed session ∧ session.orgAlias = orgAlias

/-- What holds of a request in each phase. -/
def PhaseInv (s : State) : Phase → Prop
  | .idle => True
  | .refreshing request stored => Follows s request fun orgAlias => stored.orgAlias = orgAlias
  | .finalizing request _ => Follows s request fun _ => False
  | .storing request session => Follows s request fun orgAlias => session.orgAlias = orgAlias
  | .finished request outcome => Follows s request outcome.Under

/-- What holds in every state of a run that meets the condition. -/
structure Inv (s : State) : Prop where
  past : ∀ selected ∈ s.selected, selected.storedAt ≤ s.steps
  stored : ∀ selected ∈ s.selected,
    ∃ session, s.store = some session ∧ session.orgAlias = selected.orgAlias
  requests : ∀ c, PhaseInv s (s.requests c)

theorem inv_start (store : Option FinalizedSession) : Inv (State.start store) where
  past _ h := by cases h
  stored _ h := by cases h
  requests _ := trivial

theorem Follows.mono {s : State} {request : Request} {P Q : Text → Prop}
    (h : Follows s request P) (hPQ : ∀ orgAlias, P orgAlias → Q orgAlias) :
    Follows s request Q :=
  ⟨h.1, fun selected hselected hafter => hPQ _ (h.2 selected hselected hafter)⟩

/-- A request that began no later than the selection was stored has nothing to follow. -/
theorem Follows.of_before {s : State} {request : Request} {P : Text → Prop}
    (hbegun : request.begunAt ≤ s.steps)
    (hbefore : ∀ selected ∈ s.selected, ¬ selected.storedAt < request.begunAt) :
    Follows s request P :=
  ⟨hbegun, fun selected hselected hafter => absurd hafter (hbefore selected hselected)⟩

theorem Follows.of_same {s t : State} {request : Request} {P : Text → Prop}
    (h : Follows s request P) (hsteps : s.steps ≤ t.steps) (hselected : t.selected = s.selected) :
    Follows t request P := by
  refine ⟨Nat.le_trans h.1 hsteps, ?_⟩
  rw [hselected]
  exact h.2

/-- What holds of a request goes on holding until another selection is stored. -/
theorem phaseInv_of_same {s t : State} {phase : Phase} (h : PhaseInv s phase)
    (hsteps : s.steps ≤ t.steps) (hselected : t.selected = s.selected) : PhaseInv t phase := by
  cases phase with
  | idle => trivial
  | refreshing request stored => exact Follows.of_same h hsteps hselected
  | finalizing request orgAlias =>
      have hfollows : Follows s request fun _ => False := h
      exact hfollows.of_same hsteps hselected
  | storing request session => exact Follows.of_same h hsteps hselected
  | finished request outcome => exact Follows.of_same h hsteps hselected

/-- A selection that is stored now was stored before no request. -/
theorem phaseInv_selected {s t : State} {phase : Phase} (h : PhaseInv s phase)
    (hsteps : t.steps = s.steps)
    (hselected : ∀ selected ∈ t.selected, selected.storedAt = s.steps) : PhaseInv t phase := by
  have hbefore : ∀ {request : Request} {P Q : Text → Prop}, Follows s request P →
      Follows t request Q := by
    intro request P Q hfollows
    have hbegun := hfollows.1
    apply Follows.of_before
    · omega
    · intro selected hmem hafter
      rw [hselected selected hmem] at hafter
      omega
  cases phase with
  | idle => trivial
  | refreshing request stored => exact hbefore h
  | finalizing request orgAlias =>
      have hfollows : Follows s request fun _ => False := h
      exact hbefore (Q := fun _ => False) hfollows
  | storing request session => exact hbefore h
  | finished request outcome => exact hbefore h

theorem Inv.setRequest {s : State} (hinv : Inv s) (c : Nat) {phase : Phase}
    (hphase : PhaseInv s phase) : Inv (s.setRequest c phase) where
  past := hinv.past
  stored := hinv.stored
  requests := by
    intro other
    show PhaseInv _ (Function.update s.requests c phase other)
    by_cases hother : other = c
    · rw [hother, Function.update_self]
      exact phaseInv_of_same hphase (Nat.le_refl _) rfl
    · rw [Function.update_of_ne hother]
      exact phaseInv_of_same (hinv.requests other) (Nat.le_refl _) rfl

theorem Inv.setSelection {s : State} (hinv : Inv s) (c : Nat) (phase : SelectPhase) :
    Inv (s.setSelection c phase) where
  past := hinv.past
  stored := hinv.stored
  requests other := phaseInv_of_same (hinv.requests other) (Nat.le_refl _) rfl

theorem Inv.count {s : State} (hinv : Inv s) : Inv { s with steps := s.steps + 1 } where
  past selected hselected := Nat.le_succ_of_le (hinv.past selected hselected)
  stored := hinv.stored
  requests c := phaseInv_of_same (hinv.requests c) (Nat.le_succ _) rfl

section Preserved

variable {decode : Text → Payload} {defaultTenantId : Option Text}

/-- A finalized session is of the tenant it was asked for. -/
theorem finalizeTenant_alias {token orgAlias : Text} {now : Int} {response : Response}
    {session : FinalizedSession}
    (h : finalizeTenant decode token orgAlias now response = some session) :
    session.orgAlias = orgAlias := by
  unfold finalizeTenant at h
  split at h
  · cases h
  · split at h
    · cases h
    · split at h
      · cases h
      · cases h
        rfl

/-- A request goes on without a selection only if none was stored when it began. -/
theorem phaseInv_withoutSelection {s : State} {request : Request}
    (hbegun : request.begunAt ≤ s.steps)
    (hbefore : ∀ selected ∈ s.selected, ¬ selected.storedAt < request.begunAt) :
    PhaseInv s (withoutSelection decode defaultTenantId request) := by
  have hfollows : ∀ {P : Text → Prop}, Follows s request P := Follows.of_before hbegun hbefore
  unfold withoutSelection
  split
  · exact hfollows (P := fun _ => False)
  · exact hfollows

/-- A request loads the session of the selected tenant. -/
theorem phaseInv_onLoad {s : State} (hinv : Inv s) (token : Text) (now : Int) :
    PhaseInv s (onLoad decode defaultTenantId s.store ⟨token, s.steps⟩ now) := by
  have hfollows : ∀ session, s.store = some session →
      Follows s ⟨token, s.steps⟩ fun orgAlias => session.orgAlias = orgAlias := by
    intro session hstore
    refine ⟨Nat.le_refl _, ?_⟩
    intro selected hselected _
    obtain ⟨current, hcurrent, halias⟩ := hinv.stored selected hselected
    rw [hstore] at hcurrent
    cases hcurrent
    exact halias
  unfold onLoad
  split
  · rename_i hnone
    apply phaseInv_withoutSelection (Nat.le_refl _)
    intro selected hselected _
    obtain ⟨current, hcurrent, _⟩ := hinv.stored selected hselected
    rw [hnone] at hcurrent
    cases hcurrent
  · rename_i session hstore
    split
    · exact hfollows session hstore
    · exact hfollows session hstore

/-- The answer to a refresh or an automatic finalization. -/
theorem inv_respond {s t : State} (hinv : Inv s) {c : Nat} {response : Response} {now : Int}
    (hmeets : Refreshes decode s response now (s.requests c))
    (h : s.apply decode defaultTenantId (.respond c response now) = some t) : Inv t := by
  have hphase := hinv.requests c
  simp only [State.apply] at h
  split at h
  · rename_i request stored hrequest
    rw [hrequest] at hphase hmeets
    split at h
    · rename_i session hsession
      cases h
      have hfollows : Follows s request fun orgAlias => stored.orgAlias = orgAlias := hphase
      apply hinv.setRequest
      rw [← finalizeTenant_alias hsession] at hfollows
      exact hfollows
    · rename_i hnone
      cases h
      apply hinv.setRequest
      apply phaseInv_withoutSelection hphase.1
      intro selected hselected hafter
      exact hmeets selected hselected hafter hnone
  · rename_i request orgAlias hrequest
    rw [hrequest] at hphase
    have hfollows : Follows s request fun _ => False := hphase
    split at h
    · cases h
      apply hinv.setRequest
      exact hfollows.mono fun _ hfalse => hfalse.elim
    · cases h
      apply hinv.setRequest
      exact hfollows.mono fun _ hfalse => hfalse.elim
  · cases h

/-- A request stores back over a session of its own tenant. -/
theorem inv_store {s t : State} (hinv : Inv s) {c : Nat}
    (hmeets : StoresBack s (s.requests c))
    (h : s.apply decode defaultTenantId (.store c) = some t) : Inv t := by
  have hphase := hinv.requests c
  simp only [State.apply] at h
  split at h
  · rename_i request session hrequest
    rw [hrequest] at hphase hmeets
    cases h
    have hstored : Inv { s with store := some session } := by
      refine ⟨hinv.past, ?_, fun c => phaseInv_of_same (hinv.requests c) (Nat.le_refl _) rfl⟩
      intro selected hselected
      refine ⟨session, rfl, ?_⟩
      rcases hmeets with hnone | hsame
      · rw [hnone] at hselected
        cases hselected
      · obtain ⟨current, hcurrent, halias⟩ := hinv.stored selected hselected
        rw [← halias, hsame current hcurrent]
    apply hstored.setRequest
    exact Follows.mono (Follows.of_same hphase (Nat.le_refl _) rfl)
      fun _ halias => ⟨session, rfl, halias⟩
  · cases h

/-- A selection that is stored in order is the one begun last. -/
theorem inv_selectStore {s t : State} (hinv : Inv s) {c : Nat}
    (hmeets : InOrder s (s.selections c))
    (h : s.apply decode defaultTenantId (.selectStore c) = some t) : Inv t := by
  simp only [State.apply] at h
  split at h
  · rename_i session begunAt hselection
    rw [hselection] at hmeets
    cases h
    have hlatest : latest s.selected ⟨session.orgAlias, begunAt, s.steps⟩ =
        ⟨session.orgAlias, begunAt, s.steps⟩ := by
      unfold latest
      split
      · rename_i old hold
        exact if_pos (hmeets old hold)
      · rfl
    rw [hlatest]
    apply Inv.setSelection
    refine ⟨?_, ?_, ?_⟩
    · intro selected hselected
      cases hselected
      exact Nat.le_refl _
    · intro selected hselected
      cases hselected
      exact ⟨session, rfl, rfl⟩
    · intro other
      refine phaseInv_selected (s := s) (hinv.requests other) rfl ?_
      intro selected hselected
      cases hselected
      rfl
  · cases h

/-- What a step keeps. -/
theorem inv_step {s t : State} {e : Event} (hinv : Inv s) (hmeets : Meets decode s e)
    (h : step decode defaultTenantId s e = some t) : Inv t := by
  obtain ⟨u, hu, rfl⟩ := Option.map_eq_some_iff.mp h
  apply Inv.count
  cases e with
  | load c token now =>
      simp only [State.apply] at hu
      split at hu
      · cases hu
        exact hinv.setRequest c (phaseInv_onLoad hinv token now)
      · cases hu
  | respond c response now => exact inv_respond hinv hmeets hu
  | store c => exact inv_store hinv hmeets hu
  | select c token choice =>
      simp only [State.apply] at hu
      split at hu
      · cases hu
        exact hinv.setSelection c _
      · cases hu
  | selectRespond c response now =>
      simp only [State.apply] at hu
      split at hu
      · split at hu
        · cases hu
          exact hinv.setSelection c _
        · cases hu
          exact hinv.setSelection c _
      · cases hu
  | selectStore c => exact inv_selectStore hinv hmeets hu

/-- In every run whose stores and refreshes find what they need, the store holds a session
of the tenant that the user selected last, and every request that began after that
selection was stored and has finished runs under that tenant. -/
theorem latest_selection_kept {store : Option FinalizedSession} {es : List Event} {s : State}
    {selected : Selected}
    (hrun : Run (step decode defaultTenantId) (Meets decode) (State.start store) es s)
    (hselected : s.selected = some selected) :
    (∃ session, s.store = some session ∧ session.orgAlias = selected.orgAlias) ∧
    ∀ c request outcome, s.requests c = .finished request outcome →
      selected.storedAt < request.begunAt → outcome.Under selected.orgAlias := by
  have hinv : Inv s :=
    hrun.invariant (inv_start store) fun _ _ _ hinv hmeets hstep => inv_step hinv hmeets hstep
  refine ⟨hinv.stored selected hselected, ?_⟩
  intro c request outcome hrequest hafter
  have hphase := hinv.requests c
  rw [hrequest] at hphase
  exact hphase.2 selected hselected hafter

end Preserved

/-! ## Runs -/

/-- The claims of a user of two tenants. -/
def twoTenants : Payload :=
  [("organization".toList, .arr [.str ['a'], .str ['b']]), ("exp".toList, .num 1000)]

/-- An expired session of the first tenant. -/
def staleSession : FinalizedSession := ⟨['a'], ['1'], ['t'], 0⟩

/-- The refresh of the first tenant, the selection of the second one and the store of the
refreshed session, in either order, and a request after them. -/
def refreshAndSelect (storedFirst : Bool) : List Event :=
  let refresh : List Event := [.respond 0 (.answered 302 (some ['1']) none) 0, .store 0]
  let select : List Event := [.selectRespond 0 (.answered 302 (some ['2']) none) 0, .selectStore 0]
  [.load 0 ['t'] 0, .select 0 ['t'] (some ['b'])] ++
    (if storedFirst then refresh ++ select else select ++ refresh) ++
    [.load 1 ['t'] 0, .store 1]

/-- The step at which a finished request began, and the tenant it ran under. -/
def Phase.under : Phase → Option (Nat × Text)
  | .finished request (.installed session) => some (request.begunAt, session.orgAlias)
  | _ => none

/-- A refresh that is stored before the selection does no harm. -/
theorem latest_selection_kept_after_refresh :
    ∃ s selected,
      Run (step (fun _ => twoTenants) none) (Meets fun _ => twoTenants)
        (State.start (some staleSession)) (refreshAndSelect true) s ∧
      s.selected = some selected ∧ selected.orgAlias = ['b'] ∧
      ∃ session, s.store = some session ∧ session.orgAlias = selected.orgAlias := by
  have hexec : (exec (step (fun _ => twoTenants) none) (Meets fun _ => twoTenants)
      (State.start (some staleSession)) (refreshAndSelect true)).map (fun s => s.selected) =
      some (some ⟨['b'], 1, 5⟩) := by decide +kernel
  obtain ⟨s, hrun, hselected⟩ := run_of_exec_map hexec
  exact ⟨s, _, hrun, hselected, rfl, (latest_selection_kept hrun hselected).1⟩

/-- A refresh that is stored after the selection puts the first tenant back, and the next
request runs under it. -/
theorem lost_selection :
    ∃ s,
      Run (step (fun _ => twoTenants) none) (fun _ _ => True)
        (State.start (some staleSession)) (refreshAndSelect false) s ∧
      s.selections 0 = .finished ∧ s.selected = some ⟨['b'], 1, 3⟩ ∧
      s.store.map (·.orgAlias) = some ['a'] ∧
      (s.requests 0).under = some (0, ['a']) ∧ (s.requests 1).under = some (6, ['a']) := by
  have hexec : (exec (step (fun _ => twoTenants) none) (fun _ _ => True)
      (State.start (some staleSession)) (refreshAndSelect false)).map (fun s =>
        decide (s.selections 0 = .finished ∧ s.selected = some ⟨['b'], 1, 3⟩ ∧
          s.store.map (·.orgAlias) = some ['a'] ∧
          (s.requests 0).under = some (0, ['a']) ∧ (s.requests 1).under = some (6, ['a']))) =
      some true := by decide +kernel
  obtain ⟨s, hrun, hvalue⟩ := run_of_exec_map hexec
  exact ⟨s, hrun, of_decide_eq_true hvalue⟩

end Selection

end M8flow.Mcp
