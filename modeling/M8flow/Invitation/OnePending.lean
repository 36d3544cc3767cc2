import M8flow.Invitation.Service
import M8flow.Lib.Run

/-!
# At most one live invitation

An invitation is live while it is pending and has not expired.  Every operation but
two leaves at most the invitations live that were live before.  Creating one looks at
the pending invitation of the tenant and the email that expires last, so it adds one
only where none is live.  Resending brings an invitation that is not live back to life
and looks at no other: that is the step that `Meets` is about.

- `settled_specs`: what each part of an operation does to the rows;
- `onePending_step` and `onePending_run`: at most one stays live;
- `resend_revives_second`: a run with two.
-/

namespace M8flow.Invitation

open M8flow.Lib M8flow.Lib.Table Proc

/-- Pending and not expired. -/
def Live (clock : Int) (invitation : TenantInvitation) : Prop :=
  invitation.status = .pending ∧ clock < invitation.expiresAtInSeconds

instance (clock : Int) (invitation : TenantInvitation) : Decidable (Live clock invitation) := by
  unfold Live
  infer_instance

theorem Live.earlier {clock clock' : Int} {invitation : TenantInvitation}
    (h : Live clock' invitation) (hle : clock ≤ clock') : Live clock invitation :=
  ⟨h.1, Int.lt_of_le_of_lt hle h.2⟩

/-- For every tenant and email at most one invitation is live. -/
def OnePending (w : World) : Prop :=
  ∀ a ∈ w.invitations, ∀ b ∈ w.invitations, a.tenantId = b.tenantId → a.email = b.email →
    Live w.clock a → Live w.clock b → a.id = b.id

/-- What holds in every state. -/
structure Inv (w : World) : Prop where
  ids : (w.invitations.map TenantInvitation.id).Nodup
  one : OnePending w

/-! ## Settling -/

/-- The rows are the earlier ones, with none of them live that was not. -/
structure Settled (before after : World) : Prop where
  clock : before.clock ≤ after.clock
  ids : after.invitations.map TenantInvitation.id = before.invitations.map TenantInvitation.id
  rows : ∀ b ∈ after.invitations, ∃ a ∈ before.invitations, a.id = b.id ∧
    a.tenantId = b.tenantId ∧ a.email = b.email ∧ ∀ clock, Live clock b → Live clock a

theorem settled_refl (w : World) : Settled w w :=
  ⟨Int.le_refl _, rfl, fun b hb => ⟨b, hb, rfl, rfl, rfl, fun _ h => h⟩⟩

theorem Settled.trans {u v w : World} (h : Settled u v) (h' : Settled v w) : Settled u w where
  clock := Int.le_trans h.clock h'.clock
  ids := h'.ids.trans h.ids
  rows c hc := by
    obtain ⟨b, hb, hid, htenant, hemail, hlive⟩ := h'.rows c hc
    obtain ⟨a, ha, hid', htenant', hemail', hlive'⟩ := h.rows b hb
    exact ⟨a, ha, hid'.trans hid, htenant'.trans htenant, hemail'.trans hemail,
      fun clock hc => hlive' clock (hlive clock hc)⟩

/-- At most one stays live. -/
theorem Inv.settled {before after : World} (hinv : Inv before) (h : Settled before after) :
    Inv after := by
  refine ⟨h.ids ▸ hinv.ids, ?_⟩
  intro a ha b hb htenant hemail halive hblive
  obtain ⟨a', ha', hida, htenanta, hemaila, hlivea⟩ := h.rows a ha
  obtain ⟨b', hb', hidb, htenantb, hemailb, hliveb⟩ := h.rows b hb
  have hsame := hinv.one a' ha' b' hb' (htenanta.trans (htenant.trans htenantb.symm))
    (hemaila.trans (hemail.trans hemailb.symm)) ((hlivea _ halive).earlier h.clock)
    ((hliveb _ hblive).earlier h.clock)
  rw [← hida, ← hidb]
  exact hsame

/-- Time passes. -/
theorem settled_elapse (w : World) (seconds : Nat) :
    Settled w { w with clock := w.clock + seconds } := by
  refine ⟨?_, rfl, fun b hb => ⟨b, hb, rfl, rfl, rfl, fun _ h => h⟩⟩
  show w.clock ≤ w.clock + seconds
  omega

/-- The row with an id, where ids are distinct. -/
theorem eq_of_id {rows : List TenantInvitation} (hids : (rows.map TenantInvitation.id).Nodup)
    {a b : TenantInvitation} (ha : a ∈ rows) (hb : b ∈ rows) (h : a.id = b.id) : a = b := by
  have hlooka := lookup_of_mem hids ha
  have hlookb := lookup_of_mem hids hb
  rw [h, hlookb] at hlooka
  exact (Option.some.inj hlooka).symm

/-- The world after the commit of a loaded row. -/
def committed (loaded changed : TenantInvitation) (w : World) : World :=
  { w with invitations := updateAt TenantInvitation.id loaded.id (flush loaded changed) w.invitations }

theorem flush_loaded (loaded changed : TenantInvitation) :
    flush loaded changed loaded =
      { changed with
        id := loaded.id, tenantId := loaded.tenantId, email := loaded.email,
        roles := loaded.roles, createdBy := loaded.createdBy } := by
  simp only [flush, flushColumn_self]

/-- The rows after the commit of a row of the table: the committed one and the others. -/
theorem mem_committed {w : World} (hids : (w.invitations.map TenantInvitation.id).Nodup)
    {loaded changed : TenantInvitation} (hmem : loaded ∈ w.invitations) {b : TenantInvitation}
    (hb : b ∈ (committed loaded changed w).invitations) :
    b = flush loaded changed loaded ∨ (b ∈ w.invitations ∧ b.id ≠ loaded.id) := by
  obtain ⟨a, ha, hsame⟩ := List.mem_map.mp hb
  split at hsame
  · rename_i hid
    have heq : a = loaded := eq_of_id hids ha hmem (of_decide_eq_true hid)
    left
    rw [← hsame, heq]
  · rename_i hid
    right
    rw [← hsame]
    exact ⟨ha, of_decide_eq_false (Bool.eq_false_iff.mpr hid)⟩

theorem ids_committed (loaded changed : TenantInvitation) (w : World) :
    (committed loaded changed w).invitations.map TenantInvitation.id =
      w.invitations.map TenantInvitation.id :=
  keys_updateWhere (f := flush loaded changed) (fun _ => rfl) _

/-- The committed row is in the table. -/
theorem flush_mem_committed {w : World} {loaded changed : TenantInvitation}
    (hmem : loaded ∈ w.invitations) :
    flush loaded changed loaded ∈ (committed loaded changed w).invitations := by
  refine List.mem_map.mpr ⟨loaded, hmem, ?_⟩
  rw [if_pos (decide_eq_true rfl)]

/-- A commit of a copy that is live only if the loaded one was. -/
theorem settled_committed {w : World} (hids : (w.invitations.map TenantInvitation.id).Nodup)
    {loaded changed : TenantInvitation} (hmem : loaded ∈ w.invitations)
    (hlive : ∀ clock, Live clock changed → Live clock loaded) :
    Settled w (committed loaded changed w) := by
  refine ⟨Int.le_refl _, ids_committed loaded changed w, ?_⟩
  intro b hb
  obtain rfl | ⟨hold, _⟩ := mem_committed hids hmem hb
  · refine ⟨loaded, hmem, rfl, rfl, rfl, ?_⟩
    intro clock h
    rw [flush_loaded] at h
    exact hlive clock h
  · exact ⟨b, hold, rfl, rfl, rfl, fun _ h => h⟩

/-- Expiry makes nothing live. -/
theorem live_maybeExpire {now clock : Int} {invitation : TenantInvitation}
    (h : Live clock (maybeExpire now invitation)) : Live clock invitation := by
  unfold maybeExpire at h
  split at h
  · cases h.1
  · exact h

theorem not_live_of_ne {clock : Int} {invitation : TenantInvitation}
    (h : invitation.status ≠ .pending) : ¬ Live clock invitation :=
  fun hlive => h hlive.1

/-! ## The parts of an operation -/

/-- The rows have settled since the operation began, and the clock is known. -/
def After (before : World) (clock : Int) (w : World) : Prop := Settled before w ∧ w.clock = clock

section Specs

variable {before : World} {clock : Int}

theorem getTenantById_spec (host : Host) (tenantId : Text) {P : World → Prop} :
    Triple P (getTenantById host tenantId) (fun _ => P) (fun _ => P) := by
  unfold getTenantById
  split
  · exact Triple.pure fun _ hw => hw
  · exact Triple.raise fun _ hw => hw

theorem raiseIf_spec (condition : Bool) (error : ApiError) {P : World → Prop} :
    Triple P (raiseIf condition error) (fun _ w => condition = false ∧ P w) (fun _ => P) := by
  unfold raiseIf
  split
  · exact Triple.raise fun _ hw => hw
  · rename_i hfalse
    exact Triple.pure fun _ hw => ⟨Bool.eq_false_iff.mpr hfalse, hw⟩

theorem sendInvitationEmail_spec (sent : Option Bool) {P : World → Prop} :
    Triple P (sendInvitationEmail sent) (fun _ w => sent.isSome ∧ P w) (fun _ => P) := by
  unfold sendInvitationEmail
  split
  · exact Triple.pure fun _ hw => ⟨rfl, hw⟩
  · exact Triple.raise fun _ hw => hw

theorem check_spec {δ α : Type} (wrap : δ → Failure) (check : Except δ α) {P : World → Prop} :
    Triple P (Proc.ofExcept wrap check) (fun a w => check = .ok a ∧ P w) (fun _ => P) :=
  Triple.ofExcept (fun _ _ hcheck hw => ⟨hcheck, hw⟩) fun _ _ _ hw => hw

/-- The loaded row expires if it must, and the copy is the row of the table. -/
theorem maybeExpireRow_spec (hids : (before.invitations.map TenantInvitation.id).Nodup)
    (invitation : TenantInvitation) {exc : Failure → World → Prop} :
    Triple (fun w => After before clock w ∧ invitation ∈ w.invitations)
      (maybeExpireRow invitation)
      (fun copy w => copy = maybeExpire clock invitation ∧ After before clock w ∧
        copy ∈ w.invitations) exc := by
  intro w ⟨hw, hmem⟩
  show maybeExpire w.clock invitation = _ ∧
    After before clock (committed invitation (maybeExpire w.clock invitation) w) ∧ _ ∈ _
  rw [hw.2]
  have hids' : (w.invitations.map TenantInvitation.id).Nodup := hw.1.ids ▸ hids
  refine ⟨rfl, ⟨hw.1.trans ?_, hw.2⟩, ?_⟩
  · exact settled_committed hids' hmem fun _ h => live_maybeExpire h
  · have hflush : flush invitation (maybeExpire clock invitation) invitation =
        maybeExpire clock invitation := by
      rw [flush_loaded]
      unfold maybeExpire
      split <;> rfl
    have hcommitted : flush invitation (maybeExpire clock invitation) invitation ∈
        (committed invitation (maybeExpire clock invitation) w).invitations :=
      flush_mem_committed hmem
    rw [hflush] at hcommitted
    exact hcommitted

/-- The row of a tenant and an id, which is what it was before the operation where nothing
was committed yet. -/
theorem invitationOrError_spec (tenantId invitationId : Text) :
    Triple (fun w => w = before) (invitationOrError tenantId invitationId)
      (fun invitation w => before.invitations.find? (fun row =>
          row.id = invitationId ∧ row.tenantId = tenantId) = some invitation ∧
        After before before.clock w ∧ invitation ∈ w.invitations)
      (fun _ => Settled before) := by
  refine Triple.bind (fun world w => world = before ∧ w = before) ?_ ?_
  · exact Triple.read fun w hw => ⟨hw, hw⟩
  · intro world
    apply Triple.assume
    rintro rfl
    split
    · rename_i invitation hfind
      refine Triple.pure ?_
      rintro w rfl
      exact ⟨hfind, ⟨settled_refl _, rfl⟩, List.mem_of_find?_eq_some hfind⟩
    · refine Triple.raise ?_
      rintro w rfl
      exact settled_refl _

/-- A commit of a copy that is not live. -/
theorem commit_spec (hids : (before.invitations.map TenantInvitation.id).Nodup)
    {loaded changed : TenantInvitation} (hlive : ∀ clock, ¬ Live clock changed)
    {exc : Failure → World → Prop} :
    Triple (fun w => Settled before w ∧ loaded ∈ w.invitations) (commit loaded changed)
      (fun _ => Settled before) exc := by
  refine Triple.modify ?_
  intro w ⟨hw, hmem⟩
  exact hw.trans (settled_committed (hw.ids ▸ hids) hmem fun clock h => absurd h (hlive clock))

/-! ## Revoking and accepting -/

theorem revokeInvitation_spec (hids : (before.invitations.map TenantInvitation.id).Nodup)
    (host : Host) (tenantId invitationId modifiedBy : Text) :
    Triple (fun w => w = before) (revokeInvitation host tenantId invitationId modifiedBy)
      (fun _ => Settled before) (fun _ => Settled before) := by
  have hstart : ∀ (e : Failure) (w : World), w = before → Settled before w := by
    rintro _ _ rfl
    exact settled_refl _
  refine Triple.bind (fun _ w => w = before)
    (Triple.consequence (getTenantById_spec host tenantId) (fun _ h => h) (fun _ _ h => h) hstart)
    fun _ => ?_
  refine Triple.bind _ (invitationOrError_spec tenantId invitationId) fun invitation => ?_
  refine Triple.bind (fun _ w => Settled before w ∧ invitation ∈ w.invitations) ?_ fun _ => ?_
  · exact Triple.consequence (check_spec Failure.api (checkRevocable invitation))
      (fun _ h => h.2) (fun _ _ h => ⟨h.2.1.1, h.2.2⟩) (fun _ _ h => h.1.1)
  refine Triple.bind (fun _ => Settled before) ?_ fun _ => Triple.pure fun _ h => h
  exact commit_spec hids fun clock =>
    not_live_of_ne (show TenantInvitationStatus.revoked ≠ .pending by decide)

theorem pendingInvitationByToken_spec
    (hids : (before.invitations.map TenantInvitation.id).Nodup) (host : Host)
    (rawToken : Option Text) :
    Triple (fun w => w = before) (pendingInvitationByToken host rawToken)
      (fun invitation w => After before before.clock w ∧ invitation ∈ w.invitations)
      (fun _ => Settled before) := by
  have hstart : ∀ (e : Failure) (w : World), w = before → Settled before w := by
    rintro _ _ rfl
    exact settled_refl _
  refine Triple.bind (fun _ w => w = before)
    (Triple.consequence (check_spec Failure.api (checkToken rawToken)) (fun _ h => h)
      (fun _ _ h => h.2) hstart) fun token => ?_
  refine Triple.bind (fun world w => world = before ∧ w = before)
    (Triple.read fun w hw => ⟨hw, hw⟩) fun world => ?_
  apply Triple.assume
  intro hworld
  rw [hworld]
  split
  · refine Triple.raise ?_
    rintro w rfl
    exact settled_refl _
  · rename_i found hfind
    have hloaded : ∀ w, w = before → After before before.clock w ∧ found ∈ w.invitations := by
      rintro w rfl
      exact ⟨⟨settled_refl _, rfl⟩, List.mem_of_find?_eq_some hfind⟩
    refine Triple.bind _ (Triple.consequence (maybeExpireRow_spec hids found) hloaded
      (fun _ _ h => h) (fun _ _ h => h)) fun invitation => ?_
    refine Triple.bind (fun _ w => After before before.clock w ∧ invitation ∈ w.invitations) ?_
      fun _ => Triple.pure fun _ h => h
    exact Triple.consequence (check_spec Failure.api (checkPending invitation))
      (fun _ h => h.2) (fun _ _ h => h.2) (fun _ _ h => h.1.1)

end Specs

theorem acceptInvitation_spec {before : World}
    (hids : (before.invitations.map TenantInvitation.id).Nodup) (host : Host)
    (rawToken : Option Text) (password : Text) (membership : Except Failure Unit)
    (elapsed : Nat) :
    Triple (fun w => w = before) (acceptInvitation host rawToken password membership elapsed)
      (fun _ => Settled before) (fun _ => Settled before) := by
  have hstart : ∀ (e : Failure) (w : World), w = before → Settled before w := by
    rintro _ _ rfl
    exact settled_refl _
  refine Triple.bind (fun _ w => w = before)
    (Triple.consequence (check_spec Failure.api (checkPassword password)) (fun _ h => h)
      (fun _ _ h => h.2) hstart) fun _ => ?_
  refine Triple.bind _ (pendingInvitationByToken_spec hids host rawToken) fun invitation => ?_
  refine Triple.bind (fun _ w => Settled before w ∧ invitation ∈ w.invitations) ?_ fun _ => ?_
  · exact Triple.consequence (getTenantById_spec host invitation.tenantId)
      (fun _ h => ⟨h.1.1, h.2⟩) (fun _ _ h => h) (fun _ _ h => h.1)
  refine Triple.bind (fun _ w => Settled before w ∧ invitation ∈ w.invitations) ?_ fun _ => ?_
  · exact Triple.modify fun w hw => ⟨hw.1.trans (settled_elapse w elapsed), hw.2⟩
  refine Triple.bind (fun _ w => Settled before w ∧ invitation ∈ w.invitations) ?_ fun _ => ?_
  · exact Triple.consequence (check_spec id membership) (fun _ h => h) (fun _ _ h => h.2)
      (fun _ _ h => h.1)
  refine Triple.bind (fun _ w => Settled before w ∧ invitation ∈ w.invitations) ?_ fun now => ?_
  · refine Triple.bind (fun _ w => Settled before w ∧ invitation ∈ w.invitations) ?_ fun _ =>
      Triple.pure fun _ h => h
    exact Triple.read fun _ h => h
  refine Triple.bind (fun _ => Settled before) ?_ fun _ => Triple.pure fun _ h => h
  exact commit_spec hids fun clock =>
    not_live_of_ne (show TenantInvitationStatus.accepted ≠ .pending by decide)

/-! ## Creating -/

/-- Where the pending invitation that expires last has expired, none is live. -/
theorem not_live_of_latest {rows : List TenantInvitation} {tenantId email : Text} {clock : Int}
    (h : ∀ latest, latestPending tenantId email rows = some latest →
      latest.expiresAtInSeconds ≤ clock) :
    ∀ row ∈ rows, row.tenantId = tenantId → row.email = email → ¬ Live clock row := by
  intro row hrow htenant hemail hlive
  have hmem : row ∈ rows.filter fun row =>
      row.tenantId = tenantId ∧ row.email = email ∧ row.status = .pending := by
    rw [List.mem_filter]
    exact ⟨hrow, decide_eq_true ⟨htenant, hemail, hlive.1⟩⟩
  cases hlatest : latestPending tenantId email rows with
  | none =>
      have hnil := List.argmax_eq_none.mp hlatest
      rw [hnil] at hmem
      cases hmem
  | some latest =>
      have hmax : row.expiresAtInSeconds ≤ latest.expiresAtInSeconds :=
        List.le_of_mem_argmax hmem hlatest
      have hexpired := h latest hlatest
      have hunexpired := hlive.2
      omega

/-- No row of the tenant and the email was live before the operation. -/
def NoneLive (before : World) (tenantId email : Text) : Prop :=
  ∀ row ∈ before.invitations, row.tenantId = tenantId → row.email = email →
    ¬ Live before.clock row

theorem hasActivePendingInvitation_spec {before : World}
    (hids : (before.invitations.map TenantInvitation.id).Nodup) (tenantId email : Text) :
    Triple (fun w => w = before) (hasActivePendingInvitation tenantId email)
      (fun active w => After before before.clock w ∧
        (active = false → NoneLive before tenantId email))
      (fun _ => Settled before) := by
  refine Triple.bind (fun world w => world = before ∧ w = before)
    (Triple.read fun w hw => ⟨hw, hw⟩) fun world => ?_
  apply Triple.assume
  intro hworld
  rw [hworld]
  split
  · rename_i hlatest
    refine Triple.pure ?_
    rintro w rfl
    refine ⟨⟨settled_refl _, rfl⟩, fun _ => not_live_of_latest ?_⟩
    intro latest hsome
    rw [hlatest] at hsome
    cases hsome
  · rename_i invitation hlatest
    have hfound : invitation ∈ before.invitations ∧ invitation.status = .pending := by
      have hmem := List.mem_filter.mp (List.argmax_mem hlatest)
      exact ⟨hmem.1, (of_decide_eq_true hmem.2).2.2⟩
    have hloaded : ∀ w, w = before →
        After before before.clock w ∧ invitation ∈ w.invitations := by
      rintro w rfl
      exact ⟨⟨settled_refl _, rfl⟩, hfound.1⟩
    refine Triple.bind _ (Triple.consequence (maybeExpireRow_spec hids invitation) hloaded
      (fun _ _ h => h) (fun _ _ h => h)) fun copy => ?_
    refine Triple.pure ?_
    intro w ⟨hcopy, hafter, _⟩
    refine ⟨hafter, ?_⟩
    intro hinactive
    apply not_live_of_latest
    intro latest hsome
    rw [hlatest] at hsome
    cases hsome
    -- a copy that is pending no more was expired by the call
    have hstatus : copy.status ≠ .pending := of_decide_eq_false hinactive
    by_contra hunexpired
    apply hstatus
    rw [hcopy, maybeExpire, if_neg]
    · exact hfound.2
    · intro hexpired
      exact hunexpired (of_decide_eq_true hexpired.2)

/-- A new row of a tenant and an email of which no row was live. -/
theorem inv_append {before w : World} (hinv : Inv before) (hsettled : Settled before w)
    {invitation : TenantInvitation}
    (hfresh : invitation.id ∉ before.invitations.map TenantInvitation.id)
    (hnone : NoneLive before invitation.tenantId invitation.email) :
    Inv { w with invitations := w.invitations ++ [invitation] } := by
  have hkept := hinv.settled hsettled
  have hothers : ∀ row ∈ w.invitations, row.tenantId = invitation.tenantId →
      row.email = invitation.email → ¬ Live w.clock row := by
    intro row hrow htenant hemail hlive
    obtain ⟨a, ha, _, htenant', hemail', hlive'⟩ := hsettled.rows row hrow
    exact hnone a ha (htenant'.trans htenant) (hemail'.trans hemail)
      ((hlive' _ hlive).earlier hsettled.clock)
  constructor
  · rw [List.map_append, hsettled.ids]
    exact List.Nodup.append hinv.ids (List.nodup_singleton _) (by simpa using hfresh)
  · intro a ha b hb htenant hemail halive hblive
    rcases List.mem_append.mp ha with haold | hanew
    · rcases List.mem_append.mp hb with hbold | hbnew
      · exact hkept.one a haold b hbold htenant hemail halive hblive
      · rw [List.mem_singleton] at hbnew
        subst hbnew
        exact absurd halive (hothers a haold htenant hemail)
    · rw [List.mem_singleton] at hanew
      subst hanew
      rcases List.mem_append.mp hb with hbold | hbnew
      · exact absurd hblive (hothers b hbold htenant.symm hemail.symm)
      · rw [List.mem_singleton] at hbnew
        rw [hbnew]

/-- Creating keeps the invariant. -/
theorem createInvitation_spec {before : World} (hinv : Inv before) (host : Host)
    (creation : Creation)
    (hfresh : creation.id ∉ before.invitations.map TenantInvitation.id) :
    Triple (fun w => w = before) (createInvitation host creation) (fun _ => Inv)
      (fun _ => Inv) := by
  have hstart : ∀ (e : Failure) (w : World), w = before → Inv w := by
    rintro _ _ rfl
    exact hinv
  unfold createInvitation
  generalize hemail : normalizedEmail host.casing creation.email = email
  refine Triple.bind (fun _ w => w = before)
    (Triple.consequence (raiseIf_spec _ _) (fun _ h => h) (fun _ _ h => h.2) hstart) fun _ => ?_
  refine Triple.bind (fun _ w => w = before)
    (Triple.consequence (getTenantById_spec host _) (fun _ h => h) (fun _ _ h => h) hstart)
    fun _ => ?_
  refine Triple.bind (fun _ w => w = before)
    (Triple.consequence (check_spec _ _) (fun _ h => h) (fun _ _ h => h.2) hstart) fun roles => ?_
  refine Triple.bind _ (Triple.consequence
    (hasActivePendingInvitation_spec hinv.ids creation.tenantId email) (fun _ h => h)
    (fun _ _ h => h) (fun _ _ h => hinv.settled h)) fun active => ?_
  refine Triple.bind (fun _ w => Settled before w ∧ NoneLive before creation.tenantId email)
    (Triple.consequence (raiseIf_spec active _) (fun _ h => h) (fun _ _ h => ⟨h.2.1.1, h.2.2 h.1⟩)
      (fun _ _ h => hinv.settled h.1.1)) fun _ => ?_
  refine Triple.bind (fun _ w => Settled before w ∧ NoneLive before creation.tenantId email)
    (Triple.consequence (raiseIf_spec creation.userExists _) (fun _ h => h) (fun _ _ h => h.2)
      (fun _ _ h => hinv.settled h.1)) fun _ => ?_
  refine Triple.bind (fun _ w => Settled before w ∧ NoneLive before creation.tenantId email)
    (Triple.modify fun w hw => ⟨hw.1.trans (settled_elapse w creation.elapsed), hw.2⟩) fun _ => ?_
  refine Triple.bind (fun _ w => Settled before w ∧ NoneLive before creation.tenantId email)
    ?_ fun now => ?_
  · exact Triple.bind (fun _ w => Settled before w ∧ NoneLive before creation.tenantId email)
      (Triple.read fun _ h => h) fun _ => Triple.pure fun _ h => h
  refine Triple.bind (fun _ w => Settled before w ∧ NoneLive before creation.tenantId email)
    (Triple.consequence (sendInvitationEmail_spec creation.sent) (fun _ h => h) (fun _ _ h => h.2)
      (fun _ _ h => hinv.settled h.1)) fun sent => ?_
  refine Triple.bind (fun _ => Inv) ?_ fun _ => Triple.pure fun _ h => h
  exact Triple.modify fun w hw => inv_append hinv hw.1 hfresh hw.2

/-! ## Resending -/

/-- The row that a resend addresses. -/
def Resending.row (resending : Resending) (w : World) : Option TenantInvitation :=
  w.invitations.find? fun row =>
    row.id = resending.invitationId ∧ row.tenantId = resending.tenantId

/-- A resend that brings an invitation back to life finds no other live one of its tenant
and email when it commits. -/
def RevivesAlone (w : World) (resending : Resending) : Prop :=
  ∀ row, resending.row w = some row → (row.status = .pending ∨ row.status = .expired) →
    resending.sent.isSome → ¬ Live w.clock row →
    ∀ other ∈ w.invitations, other.tenantId = row.tenantId → other.email = row.email →
      other.id ≠ row.id → ¬ Live (w.clock + resending.elapsed) other

theorem maybeExpire_id (now : Int) (invitation : TenantInvitation) :
    (maybeExpire now invitation).id = invitation.id ∧
      (maybeExpire now invitation).tenantId = invitation.tenantId ∧
      (maybeExpire now invitation).email = invitation.email := by
  unfold maybeExpire
  split
  · exact ⟨rfl, rfl, rfl⟩
  · exact ⟨rfl, rfl, rfl⟩

/-- A copy that may be resent is of a row that is pending or expired. -/
theorem resendable_status {now : Int} {invitation : TenantInvitation}
    (h : checkResendable (maybeExpire now invitation) = .ok ()) :
    invitation.status = .pending ∨ invitation.status = .expired := by
  unfold maybeExpire at h
  split at h
  · rename_i hexpired
    exact .inl hexpired.1
  · unfold checkResendable at h
    split at h
    · rename_i hstatus
      exact .inl hstatus
    · rename_i hstatus
      exact .inr hstatus
    · cases h
    · cases h

/-- The commit of a resent row. -/
theorem inv_resent {before w : World} (hinv : Inv before) {resending : Resending}
    (hafter : After before (before.clock + resending.elapsed) w)
    {row changed : TenantInvitation} (hrow : resending.row before = some row)
    (hstatus : row.status = .pending ∨ row.status = .expired) (hsent : resending.sent.isSome)
    (hmem : maybeExpire before.clock row ∈ w.invitations)
    (halone : RevivesAlone before resending) :
    Inv (committed (maybeExpire before.clock row) changed w) := by
  have hkept := hinv.settled hafter.1
  obtain ⟨hid, htenant, hemail⟩ := maybeExpire_id before.clock row
  have hrowmem : row ∈ before.invitations := List.mem_of_find?_eq_some hrow
  -- no other row of the tenant and the email is live any more
  have hothers : ∀ b ∈ w.invitations, b.id ≠ row.id → b.tenantId = row.tenantId →
      b.email = row.email → ¬ Live w.clock b := by
    intro b hb hne htenantb hemailb hlive
    obtain ⟨b', hb', hid', htenant', hemail', hlive'⟩ := hafter.1.rows b hb
    have hold : Live (before.clock + resending.elapsed) b' := hafter.2 ▸ hlive' _ hlive
    by_cases hrowlive : Live before.clock row
    · have hsame := hinv.one b' hb' row hrowmem (htenant'.trans htenantb)
        (hemail'.trans hemailb) (hold.earlier (by omega)) hrowlive
      exact hne (hid'.symm.trans hsame)
    · exact halone row hrow hstatus hsent hrowlive b' hb' (htenant'.trans htenantb)
        (hemail'.trans hemailb) (hid' ▸ hne) hold
  refine ⟨ids_committed _ changed w ▸ hkept.ids, ?_⟩
  intro a ha b hb htenantab hemailab halive hblive
  have hflush : ∀ {c : TenantInvitation},
      c = flush (maybeExpire before.clock row) changed (maybeExpire before.clock row) →
      c.id = row.id ∧ c.tenantId = row.tenantId ∧ c.email = row.email := by
    rintro _ rfl
    exact ⟨hid, htenant, hemail⟩
  obtain hanew | ⟨haold, hane⟩ := mem_committed hkept.ids hmem ha
  · obtain ⟨haid, hatenant, haemail⟩ := hflush hanew
    obtain hbnew | ⟨hbold, hbne⟩ := mem_committed hkept.ids hmem hb
    · rw [hanew, hbnew]
    · exact absurd hblive (hothers b hbold (hid ▸ hbne) (htenantab.symm.trans hatenant)
        (hemailab.symm.trans haemail))
  · obtain hbnew | ⟨hbold, _⟩ := mem_committed hkept.ids hmem hb
    · obtain ⟨_, hbtenant, hbemail⟩ := hflush hbnew
      exact absurd halive (hothers a haold (hid ▸ hane) (htenantab.trans hbtenant)
        (hemailab.trans hbemail))
    · exact hkept.one a haold b hbold htenantab hemailab halive hblive

/-- Resending keeps the invariant where it revives alone. -/
theorem resendInvitation_spec {before : World} (hinv : Inv before) (host : Host)
    (resending : Resending) (halone : RevivesAlone before resending) :
    Triple (fun w => w = before) (resendInvitation host resending) (fun _ => Inv)
      (fun _ => Inv) := by
  have hstart : ∀ (e : Failure) (w : World), w = before → Inv w := by
    rintro _ _ rfl
    exact hinv
  refine Triple.bind (fun _ w => w = before)
    (Triple.consequence (getTenantById_spec host _) (fun _ h => h) (fun _ _ h => h) hstart)
    fun _ => ?_
  refine Triple.bind _ (Triple.consequence (invitationOrError_spec _ _) (fun _ h => h)
    (fun _ _ h => h) (fun _ _ h => hinv.settled h)) fun row => ?_
  apply Triple.assume
  intro hrow
  refine Triple.bind _ (maybeExpireRow_spec hinv.ids row) fun copy => ?_
  apply Triple.assume
  rintro rfl
  refine Triple.bind _ (Triple.consequence (check_spec Failure.api (checkResendable _))
    (fun _ h => h) (fun _ _ h => h) (fun _ _ h => hinv.settled h.1.1)) fun _ => ?_
  apply Triple.assume
  intro hcheck
  have hstatus := resendable_status hcheck
  refine Triple.bind (fun _ w => After before (before.clock + resending.elapsed) w ∧
    maybeExpire before.clock row ∈ w.invitations) ?_ fun _ => ?_
  · refine Triple.modify fun w hw => ⟨⟨hw.1.1.trans (settled_elapse w resending.elapsed), ?_⟩, hw.2⟩
    show w.clock + resending.elapsed = before.clock + resending.elapsed
    rw [hw.1.2]
  refine Triple.bind _ (Triple.consequence (sendInvitationEmail_spec resending.sent)
    (fun _ h => h) (fun _ _ h => h) (fun _ _ h => hinv.settled h.1.1)) fun sent => ?_
  apply Triple.assume
  intro hsent
  refine Triple.bind (fun _ w => After before (before.clock + resending.elapsed) w ∧
    maybeExpire before.clock row ∈ w.invitations) ?_ fun now => ?_
  · exact Triple.bind (fun _ w => After before (before.clock + resending.elapsed) w ∧
      maybeExpire before.clock row ∈ w.invitations) (Triple.read fun _ h => h)
      fun _ => Triple.pure fun _ h => h
  refine Triple.bind (fun _ => Inv) ?_ fun _ => Triple.pure fun _ h => h
  exact Triple.modify fun w hw => inv_resent hinv hw.1 hrow hstatus hsent hw.2 halone

/-! ## Runs -/

/-- An operation of the service, or the passing of time. -/
inductive Operation where
  | create (creation : Creation)
  | resend (resending : Resending)
  | revoke (tenantId invitationId modifiedBy : Text)
  | accept (rawToken : Option Text) (password : Text) (membership : Except Failure Unit)
      (elapsed : Nat)
  | pass (seconds : Nat)

/-- One operation; a new row has a new id. -/
def step (host : Host) (w : World) : Operation → Option World
  | .create creation =>
      if creation.id ∈ w.invitations.map TenantInvitation.id then none
      else some (createInvitation host creation w).2
  | .resend resending => some (resendInvitation host resending w).2
  | .revoke tenantId invitationId modifiedBy =>
      some (revokeInvitation host tenantId invitationId modifiedBy w).2
  | .accept rawToken password membership elapsed =>
      some (acceptInvitation host rawToken password membership elapsed w).2
  | .pass seconds => some { w with clock := w.clock + seconds }

/-- A step is not a resend that brings a second invitation to life. -/
def Meets (w : World) : Operation → Prop
  | .resend resending => RevivesAlone w resending
  | _ => True

/-- What holds after a procedure, whether it returns or raises. -/
theorem of_triple {α : Type} {before : World} {x : Service α} {P : World → Prop}
    (h : Triple (fun w => w = before) x (fun _ => P) (fun _ => P)) : P (x before).2 := by
  have hpost := h before rfl
  rcases hrun : x before with ⟨result, w⟩
  rw [hrun] at hpost
  cases result with
  | ok a => exact hpost
  | error e => exact hpost

/-- What one operation keeps. -/
theorem onePending_step {host : Host} {w w' : World} {operation : Operation} (hinv : Inv w)
    (hmeets : Meets w operation) (h : step host w operation = some w') : Inv w' := by
  cases operation with
  | create creation =>
      simp only [step, Option.ite_none_left_eq_some, Option.some.injEq] at h
      obtain ⟨hfresh, rfl⟩ := h
      exact of_triple (createInvitation_spec hinv host creation hfresh)
  | resend resending =>
      cases h
      exact of_triple (resendInvitation_spec hinv host resending hmeets)
  | revoke tenantId invitationId modifiedBy =>
      cases h
      exact hinv.settled
        (of_triple (revokeInvitation_spec hinv.ids host tenantId invitationId modifiedBy))
  | accept rawToken password membership elapsed =>
      cases h
      exact hinv.settled
        (of_triple (acceptInvitation_spec hinv.ids host rawToken password membership elapsed))
  | pass seconds =>
      cases h
      exact hinv.settled (settled_elapse w seconds)

/-- In every run from the empty table in which each resend revives alone, at most one
invitation of a tenant and an email is pending and unexpired. -/
theorem onePending_run {host : Host} {clock : Int} {operations : List Operation} {w : World}
    (hrun : Run (step host) Meets ⟨[], clock⟩ operations w) : OnePending w := by
  have hstart : Inv ⟨[], clock⟩ := by
    refine ⟨List.nodup_nil, ?_⟩
    intro a ha
    cases ha
  have hinv : Inv w := hrun.invariant hstart fun _ _ _ hinv hmeets hstep =>
    onePending_step hinv hmeets hstep
  exact hinv.one

/-! ## Expired and sent again -/

instance (w : World) : Decidable (OnePending w) := by
  unfold OnePending
  infer_instance

instance (w : World) (resending : Resending) : Decidable (RevivesAlone w resending) :=
  inferInstanceAs (Decidable (∀ row ∈ resending.row w,
    (row.status = .pending ∨ row.status = .expired) → resending.sent.isSome →
      ¬ Live w.clock row → ∀ other ∈ w.invitations, other.tenantId = row.tenantId →
        other.email = row.email → other.id ≠ row.id →
          ¬ Live (w.clock + resending.elapsed) other))

instance (w : World) : ∀ operation, Decidable (Meets w operation)
  | .resend resending => inferInstanceAs (Decidable (RevivesAlone w resending))
  | .create _ | .revoke _ _ _ | .accept _ _ _ _ | .pass _ => inferInstanceAs (Decidable True)

/-- A host with every tenant, on which a token is its own hash. -/
def plainHost : Host := ⟨.ascii, id, some, []⟩

/-- An invitation of one address for a day. -/
def inviting (id rawToken : Text) : Operation :=
  .create ⟨['t'], some "x@y".toList, ["viewer".toList], some 1, ['s'], false, some true, rawToken,
    id, 0⟩

/-- The first invitation is sent again. -/
def resendingFirst : Operation := .resend ⟨['t'], ['1'], ['s'], some true, ['c'], 0⟩

/-- An expired invitation is sent again, with no other beside it. -/
theorem onePending_run_resend :
    ∃ w, Run (step plainHost) Meets ⟨[], 0⟩
      [inviting ['1'] ['a'], .pass 100000, resendingFirst] w ∧ OnePending w := by
  have hexec : (exec (step plainHost) Meets ⟨[], 0⟩
      [inviting ['1'] ['a'], .pass 100000, resendingFirst]).map (fun w => w.clock) =
      some 100000 := by decide +kernel
  obtain ⟨w, hrun, _⟩ := run_of_exec_map hexec
  exact ⟨w, hrun, onePending_run hrun⟩

/-- An invitation expires, the address is invited again, and the first invitation is sent
again: two are live. -/
theorem resend_revives_second :
    ∃ w, Run (step plainHost) (fun _ _ => True) ⟨[], 0⟩
      [inviting ['1'] ['a'], .pass 100000, inviting ['2'] ['b'], resendingFirst] w ∧
      ¬ OnePending w := by
  have hexec : (exec (step plainHost) (fun _ _ => True) ⟨[], 0⟩
      [inviting ['1'] ['a'], .pass 100000, inviting ['2'] ['b'], resendingFirst]).map
      (fun w => decide (OnePending w)) = some false := by decide +kernel
  obtain ⟨w, hrun, hvalue⟩ := run_of_exec_map hexec
  exact ⟨w, hrun, of_decide_eq_false hvalue⟩

end M8flow.Invitation
