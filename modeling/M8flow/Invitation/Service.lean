import M8flow.Auth.Membership
import M8flow.Errors
import M8flow.Lib.Casing
import M8flow.Lib.Proc
import M8flow.Lib.Table
import Mathlib.Data.Char
import Mathlib.Data.List.Lex
import Mathlib.Data.List.Sort
import Mathlib.Data.List.MinMax

/-!
# The invitation service

`services/tenant_invitation_service.py`.  A call loads a row, decides on the loaded
copy, and at its commit writes the columns in which the copy then differs from what
was loaded (`flush`).  The decisions and the changes of the copies come first; they
are shared by the operations below, which run one after the other, and by the calls
of `Invitation.SingleUse`, which overlap.

What the directory, the mailer and the random sources answer are arguments of an
operation; so is the time that passes during it, between its two readings of the
clock.
-/

namespace M8flow.Invitation

open M8flow.Lib M8flow.Lib.Table

/-! ## Rows -/

inductive TenantInvitationStatus where
  | pending | accepted | revoked | expired
  deriving DecidableEq, Repr

/-- `status.value`. -/
def TenantInvitationStatus.value : TenantInvitationStatus → String
  | .pending => "PENDING"
  | .accepted => "ACCEPTED"
  | .revoked => "REVOKED"
  | .expired => "EXPIRED"

/-- `M8flowTenantInvitationModel`. -/
structure TenantInvitation where
  id : Text
  tenantId : Text
  email : Text
  roles : Text
  tokenHash : Text
  status : TenantInvitationStatus
  expiresAtInSeconds : Int
  acceptedAtInSeconds : Option Int
  createdBy : Text
  modifiedBy : Text
  deriving DecidableEq, Repr

/-- A column after a commit: the changed copy's value where it differs from the loaded
one. -/
def flushColumn {α : Type} [DecidableEq α] (loaded changed stored : α) : α :=
  if changed = loaded then stored else changed

/-- The stored row after the commit of a changed copy, for the columns that calls change. -/
def flush (loaded changed stored : TenantInvitation) : TenantInvitation :=
  { stored with
    tokenHash := flushColumn loaded.tokenHash changed.tokenHash stored.tokenHash
    status := flushColumn loaded.status changed.status stored.status
    expiresAtInSeconds :=
      flushColumn loaded.expiresAtInSeconds changed.expiresAtInSeconds stored.expiresAtInSeconds
    acceptedAtInSeconds :=
      flushColumn loaded.acceptedAtInSeconds changed.acceptedAtInSeconds
        stored.acceptedAtInSeconds
    modifiedBy := flushColumn loaded.modifiedBy changed.modifiedBy stored.modifiedBy }

theorem flushColumn_self {α : Type} [DecidableEq α] (loaded changed : α) :
    flushColumn loaded changed loaded = changed := by
  unfold flushColumn
  split
  · rename_i h
    exact h.symm
  · rfl

/-! ## Decisions -/

def defaultValidityDays : Int := 7
def maxValidityDays : Int := 30
def minPasswordLength : Nat := 8
def secondsPerDay : Int := 24 * 60 * 60

/-- `_normalized_email`. -/
def normalizedEmail (casing : Casing) (email : Option Text) : Text :=
  casing.lower (Text.strip (email.getD []))

/-- `_validity_days`; an absent or unreadable number counts as none. -/
def validityDays (days : Option Int) : Int :=
  max 1 (min (days.getD defaultValidityDays) maxValidityDays)

/-- `_is_expired`. -/
def isExpired (now : Int) (invitation : TenantInvitation) : Bool :=
  invitation.expiresAtInSeconds ≤ now

/-- The copy after `_maybe_expire`. -/
def maybeExpire (now : Int) (invitation : TenantInvitation) : TenantInvitation :=
  if invitation.status = .pending ∧ isExpired now invitation then
    { invitation with status := .expired }
  else invitation

/-- `_validated_roles`, joined. -/
def validatedRoles (roles : List Text) : Except ApiError Text :=
  let normalized := ((roles.map Text.strip).filter fun name =>
    name ∈ Auth.validTenantRoleNames).eraseDups
  if normalized = [] then
    .error (.of "invalid_roles" "At least one valid role is required." 400)
  else .ok ([','].intercalate (normalized.insertionSort fun a b => a ≤ b))

/-- The checks of `_pending_invitation_by_token` on the copy it found. -/
def checkPending (invitation : TenantInvitation) : Except ApiError Unit :=
  match invitation.status with
  | .expired => .error (.of "invitation_expired" "This invitation link has expired." 410)
  | .pending => .ok ()
  | .accepted | .revoked =>
      .error (.of "invitation_unusable" "This invitation link can no longer be used." 409)

/-- The check of `resend_invitation`. -/
def checkResendable (invitation : TenantInvitation) : Except ApiError Unit :=
  match invitation.status with
  | .pending | .expired => .ok ()
  | .accepted | .revoked =>
      .error (.of "invitation_not_resendable"
        ("Cannot resend an invitation with status '" ++ invitation.status.value ++ "'.") 409)

/-- The check of `revoke_invitation`. -/
def checkRevocable (invitation : TenantInvitation) : Except ApiError Unit :=
  if invitation.status = .accepted then
    .error (.of "invitation_already_accepted"
      "Cannot revoke an invitation that has already been accepted." 409)
  else .ok ()

/-- The token that `_pending_invitation_by_token` looks up. -/
def checkToken (rawToken : Option Text) : Except ApiError Text :=
  let token := Text.strip (rawToken.getD [])
  if token = [] then .error (.of "invalid_invitation" "Invitation token is required." 400)
  else .ok token

def checkPassword (password : Text) : Except ApiError Unit :=
  if password.length < minPasswordLength then
    .error (.of "weak_password" ("Password must be at least " ++ toString minPasswordLength ++
      " characters.") 400)
  else .ok ()

/-! ## Changed copies -/

/-- The copy that `accept_invitation` commits. -/
def accepted (now : Int) (invitation : TenantInvitation) : TenantInvitation :=
  { invitation with
    status := .accepted
    acceptedAtInSeconds := some now
    modifiedBy := invitation.email }

/-- The copy that `revoke_invitation` commits. -/
def revoked (modifiedBy : Text) (invitation : TenantInvitation) : TenantInvitation :=
  { invitation with status := .revoked, modifiedBy }

/-- The copy that `resend_invitation` commits. -/
def resent (tokenHash : Text) (now : Int) (modifiedBy : Text) (invitation : TenantInvitation) :
    TenantInvitation :=
  { invitation with
    tokenHash
    status := .pending
    expiresAtInSeconds := now + defaultValidityDays * secondsPerDay
    modifiedBy }

/-! ## Operations, one after the other -/

/-- What calls share that does not change. -/
structure Host where
  casing : Casing
  hashToken : Text → Text
  /-- The name of a tenant that exists. -/
  tenantName : Text → Option Text
  /-- `app_frontend_base_url`. -/
  frontendBaseUrl : Text

/-- The table and the clock. -/
structure World where
  invitations : List TenantInvitation
  clock : Int

/-- What a call raises: an API error, or an exception of the mailer or the directory. -/
inductive Failure where
  | api (error : ApiError)
  | other
  deriving DecidableEq

abbrev Service (α : Type) := Proc World Failure α

/-- `_now_seconds`. -/
def nowSeconds : Service Int := do
  let world ← Proc.read
  return world.clock

/-- Time passes. -/
def elapse (seconds : Nat) : Service Unit :=
  Proc.modify fun world => { world with clock := world.clock + seconds }

/-- Change a loaded row and commit. -/
def commit (loaded changed : TenantInvitation) : Service Unit :=
  Proc.modify fun world =>
    { world with
      invitations :=
        updateAt TenantInvitation.id loaded.id (flush loaded changed) world.invitations }

/-- `if condition: raise error`. -/
def raiseIf (condition : Bool) (error : ApiError) : Service Unit :=
  if condition then Proc.raise (.api error) else return ()

/-- `_send_invitation_email`, which raises or says whether it sent the mail. -/
def sendInvitationEmail (sent : Option Bool) : Service Bool :=
  match sent with
  | some sent => return sent
  | none => Proc.raise .other

/-- `TenantService.get_tenant_by_id`, of which only the name is used. -/
def getTenantById (host : Host) (tenantId : Text) : Service Text :=
  match host.tenantName tenantId with
  | some name => return name
  | none => Proc.raise (.api (.of "tenant_not_found"
      ("Tenant with ID '" ++ String.ofList tenantId ++ "' not found.") 404))

/-- `_maybe_expire`: the copy, committed; where it did not change, the commit changes
nothing. -/
def maybeExpireRow (invitation : TenantInvitation) : Service TenantInvitation := do
  let now ← nowSeconds
  commit invitation (maybeExpire now invitation)
  return maybeExpire now invitation

/-- The order of the expiry times, by which the latest row is found. -/
local instance instPreorderTime : Preorder Int := Int.instLinearOrder.toPreorder

/-- The pending row of the tenant and the email with the latest expiry. -/
def latestPending (tenantId email : Text) (rows : List TenantInvitation) :
    Option TenantInvitation :=
  (rows.filter fun row =>
    row.tenantId = tenantId ∧ row.email = email ∧ row.status = .pending).argmax
      TenantInvitation.expiresAtInSeconds

/-- `_has_active_pending_invitation`. -/
def hasActivePendingInvitation (tenantId email : Text) : Service Bool := do
  let world ← Proc.read
  match latestPending tenantId email world.invitations with
  | none => return false
  | some invitation =>
      let invitation ← maybeExpireRow invitation
      return invitation.status = .pending

/-- `_accept_url`. -/
def acceptUrl (host : Host) (rawToken : Text) : Text :=
  host.frontendBaseUrl ++ "/accept-invitation?token=".toList ++ rawToken

/-- The arguments of `create_invitation`, and what the world around it answers: whether the
directory has the user, and whether the mail was sent, if sending it does not raise. -/
structure Creation where
  tenantId : Text
  email : Option Text
  roles : List Text
  validityDays : Option Int
  createdBy : Text
  userExists : Bool
  sent : Option Bool
  rawToken : Text
  id : Text
  elapsed : Nat

/-- `create_invitation`: the row and the link of the response, if it has one. -/
def createInvitation (host : Host) (creation : Creation) :
    Service (TenantInvitation × Option Text) := do
  let email := normalizedEmail host.casing creation.email
  raiseIf (email = [] ∨ ¬ email.contains '@')
    (.of "invalid_email" "A valid email address is required." 400)
  let _ ← getTenantById host creation.tenantId
  let roles ← Proc.ofExcept Failure.api (validatedRoles creation.roles)
  let active ← hasActivePendingInvitation creation.tenantId email
  raiseIf active (.of "invitation_exists"
    ("A pending invitation already exists for '" ++ String.ofList email ++ "'.") 409)
  raiseIf creation.userExists (.of "user_exists"
    ("A user with email '" ++ String.ofList email ++ "' already exists.") 409)
  elapse creation.elapsed
  let now ← nowSeconds
  let invitation : TenantInvitation :=
    { id := creation.id
      tenantId := creation.tenantId
      email
      roles
      tokenHash := host.hashToken creation.rawToken
      status := .pending
      expiresAtInSeconds := now + validityDays creation.validityDays * secondsPerDay
      acceptedAtInSeconds := none
      createdBy := creation.createdBy
      modifiedBy := creation.createdBy }
  let sent ← sendInvitationEmail creation.sent
  Proc.modify fun world => { world with invitations := world.invitations ++ [invitation] }
  return (invitation, if sent then none else some (acceptUrl host creation.rawToken))

/-- `_invitation_or_error`. -/
def invitationOrError (tenantId invitationId : Text) : Service TenantInvitation := do
  let world ← Proc.read
  match world.invitations.find? fun row => row.id = invitationId ∧ row.tenantId = tenantId with
  | some invitation => return invitation
  | none => Proc.raise (.api (.of "invitation_not_found" "Invitation not found." 404))

/-- The arguments of `resend_invitation`, and what the world around it answers. -/
structure Resending where
  tenantId : Text
  invitationId : Text
  modifiedBy : Text
  sent : Option Bool
  rawToken : Text
  elapsed : Nat

/-- `resend_invitation`. -/
def resendInvitation (host : Host) (resending : Resending) :
    Service (TenantInvitation × Option Text) := do
  let _ ← getTenantById host resending.tenantId
  let invitation ← invitationOrError resending.tenantId resending.invitationId
  let invitation ← maybeExpireRow invitation
  Proc.ofExcept Failure.api (checkResendable invitation)
  elapse resending.elapsed
  let sent ← sendInvitationEmail resending.sent
  let now ← nowSeconds
  let changed := resent (host.hashToken resending.rawToken) now resending.modifiedBy invitation
  commit invitation changed
  return (changed, if sent then none else some (acceptUrl host resending.rawToken))

/-- `revoke_invitation`. -/
def revokeInvitation (host : Host) (tenantId invitationId modifiedBy : Text) :
    Service TenantInvitation := do
  let _ ← getTenantById host tenantId
  let invitation ← invitationOrError tenantId invitationId
  Proc.ofExcept Failure.api (checkRevocable invitation)
  commit invitation (revoked modifiedBy invitation)
  return revoked modifiedBy invitation

/-- `_pending_invitation_by_token`. -/
def pendingInvitationByToken (host : Host) (rawToken : Option Text) :
    Service TenantInvitation := do
  let token ← Proc.ofExcept Failure.api (checkToken rawToken)
  let world ← Proc.read
  match world.invitations.find? fun row => row.tokenHash = host.hashToken token with
  | none => Proc.raise (.api (.of "invalid_invitation" "This invitation link is invalid." 404))
  | some invitation =>
      let invitation ← maybeExpireRow invitation
      Proc.ofExcept Failure.api (checkPending invitation)
      return invitation

/-- `accept_invitation`; `membership` is how the writes to the directory end. -/
def acceptInvitation (host : Host) (rawToken : Option Text) (password : Text)
    (membership : Except Failure Unit) (elapsed : Nat) : Service TenantInvitation := do
  Proc.ofExcept Failure.api (checkPassword password)
  let invitation ← pendingInvitationByToken host rawToken
  let _ ← getTenantById host invitation.tenantId
  elapse elapsed
  Proc.ofExcept id membership
  let now ← nowSeconds
  commit invitation (accepted now invitation)
  return accepted now invitation

end M8flow.Invitation
