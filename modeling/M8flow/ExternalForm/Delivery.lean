import M8flow.ExternalForm.Change

/-!
# Whose claim a send records

A notification worker claims a row, sends the email, and then records the send or
its failure with an update that compares only the status.  `Desk` adds to the
shared rows what the workers hold: the sends in flight, the clock they stamp
claims with, and, for the statements, whose claim each row carries.

The clock does not pass the lease of a send in flight (`Timely`).  A claim then
never lands on a row that is still being sent, but the row can leave `sending`
under the send and be claimed again.  `Unclaimed` excludes that, and
`send_claim_owned` says that a worker then records only its own claim.
-/

namespace M8flow.ExternalForm

open M8flow.Lib

/-- A send in flight: the worker, the row, and when it was claimed. -/
structure Send where
  worker : Nat
  requestId : Nat
  since : Int
  deriving Repr, DecidableEq

/-- The rows and sessions, the clock, the sends in flight, and the worker whose claim was
the last on each row. -/
structure Desk where
  forms : State
  now : Int
  sends : List Send
  owner : Nat → Option Nat

/-- No send is in flight. -/
def Desk.start (rows : List Request) (now : Int) : Desk where
  forms := State.start rows
  now := now
  sends := []
  owner := fun _ => none

/-- The send that a worker has in flight. -/
def Desk.sendOf (d : Desk) (worker : Nat) : Option Send :=
  d.sends.find? fun send => send.worker = worker

/-- The workers' steps, the clock, and everything else that happens to the rows. -/
inductive Action where
  | tick (now : Int)
  | claim (worker id : Nat) (ttl : Int)
  | markSent (worker : Nat)
  | releaseFailed (worker : Nat) (reason : Text)
  /-- The worker is done with its send, or has died. -/
  | done (worker : Nat)
  | event (e : Event)

/-- The event is one of the updates that workers make for a send. -/
def Event.isDelivery : Event → Bool
  | .claim _ _ _ _ | .markSent _ _ | .releaseFailed _ _ _ => true
  | _ => false

/-- One action. -/
def act (d : Desk) : Action → Option Desk
  | .tick now => if d.now ≤ now then some { d with now := now } else none
  | .claim worker id ttl =>
      match d.sendOf worker with
      | some _ => none
      | none =>
          (step d.forms (.claim worker id d.now ttl)).map fun forms =>
            -- `rowcount == 1`
            if (d.forms.row id).any (claimable d.now) then
              { forms
                now := d.now
                sends := ⟨worker, id, d.now⟩ :: d.sends
                owner := fun other => if other = id then some worker else d.owner other }
            else { d with forms }
  | .markSent worker =>
      match d.sendOf worker with
      | none => none
      -- the worker stays with the send: `_record_sent` repeats an update that raised
      | some send =>
          (step d.forms (.markSent worker send.requestId)).map fun forms => { d with forms }
  | .releaseFailed worker reason =>
      match d.sendOf worker with
      | none => none
      | some send =>
          (step d.forms (.releaseFailed worker send.requestId reason)).map fun forms =>
            { d with
              forms
              sends := d.sends.filter fun other => other.worker ≠ worker }
  | .done worker =>
      some { d with sends := d.sends.filter fun other => other.worker ≠ worker }
  | .event e =>
      if e.isDelivery then none else (step d.forms e).map fun forms => { d with forms }

/-- Every send finishes within the lease of its claim. -/
def Timely (d : Desk) : Action → Prop
  | .tick now => ∀ send ∈ d.sends, now ≤ send.since + sendLeaseSeconds
  | _ => True

/-- A claim that takes a row that is not being sent finds no send of the row in flight. -/
def Unclaimed (d : Desk) : Action → Prop
  | .claim _ id _ => ∀ row ∈ d.forms.row id, claimable d.now row → row.status ≠ .sending →
      ∀ send ∈ d.sends, send.requestId ≠ id
  | _ => True

instance (d : Desk) : ∀ a : Action, Decidable (Timely d a)
  | .tick now => inferInstanceAs
      (Decidable (∀ send ∈ d.sends, now ≤ send.since + sendLeaseSeconds))
  | .claim _ _ _ | .markSent _ | .releaseFailed _ _ | .done _ | .event _ =>
      inferInstanceAs (Decidable True)

instance (d : Desk) : ∀ a : Action, Decidable (Unclaimed d a)
  | .claim _ id _ => inferInstanceAs
      (Decidable (∀ row ∈ d.forms.row id, claimable d.now row → row.status ≠ .sending →
        ∀ send ∈ d.sends, send.requestId ≠ id))
  | .tick _ | .markSent _ | .releaseFailed _ _ | .done _ | .event _ =>
      inferInstanceAs (Decidable True)

/-- The action records the send of a worker, or its failure. -/
def Action.recordsFor (worker : Nat) : Action → Prop
  | .markSent other | .releaseFailed other _ => other = worker
  | _ => False

/-! ## The updates of a worker -/

section Updates

variable {s s' : State} {sid id : Nat} {row : Request}

/-- An effective claim stamps the row. -/
theorem row_claim {now ttl : Int} (h : step s (.claim sid id now ttl) = some s')
    (hrow : s.row id = some row) (hclaimable : claimable now row) :
    s'.row id = some (claimRow now ttl row) := by
  simp only [step] at h
  split at h
  · rw [commit_row h (fun _ => rfl) id, hrow, Option.map_some]
    simp [id_of_row hrow, hclaimable]
  · cases h

/-- Recording a send or its failure changes the row only while it is being sent. -/
theorem sending_of_commit {f : Request → Request} {requestId : Nat}
    (h : s.commit sid (fun row => row.id = requestId ∧ row.status = .sending) f .idle = some s')
    (hkey : ∀ row, (f row).id = row.id) (hchanged : s'.row id ≠ s.row id) :
    id = requestId ∧ ∃ row, s.row id = some row ∧ row.status = .sending := by
  rw [commit_row h hkey id] at hchanged
  cases hrow : s.row id with
  | none =>
      rw [hrow] at hchanged
      exact absurd rfl hchanged
  | some row =>
      rw [hrow, Option.map_some] at hchanged
      split at hchanged
      · rename_i hcond
        simp only [Bool.decide_and, Bool.and_eq_true, decide_eq_true_eq] at hcond
        exact ⟨(id_of_row hrow).symm.trans hcond.1, row, rfl, hcond.2⟩
      · exact absurd rfl hchanged

end Updates

/-! ## Ownership -/

/-- The sends in flight are within their lease, and each owns its row while the row is
being sent. -/
structure Owned (d : Desk) : Prop where
  timely : ∀ send ∈ d.sends, d.now ≤ send.since + sendLeaseSeconds
  present : ∀ send ∈ d.sends, ∃ row, d.forms.row send.requestId = some row
  owned : ∀ send ∈ d.sends, ∀ row, d.forms.row send.requestId = some row →
    row.status = .sending →
    d.owner send.requestId = some send.worker ∧ row.notifiedAtInSeconds = some send.since

theorem owned_start (rows : List Request) (now : Int) : Owned (Desk.start rows now) where
  timely _ h := by cases h
  present _ h := by cases h
  owned _ h := by cases h

/-- An event that claims none of the rows being sent, for some of the sends in flight. -/
theorem owned_event {d : Desk} (howned : Owned d) {e : Event} {forms : State} {sends : List Send}
    (hstep : step d.forms e = some forms) (hsends : ∀ send ∈ sends, send ∈ d.sends)
    (hclaim : ∀ send ∈ sends, ∀ sid now ttl row, e = .claim sid send.requestId now ttl →
      d.forms.row send.requestId = some row → ¬ claimable now row) :
    Owned { d with forms, sends } where
  timely send hsend := howned.timely send (hsends send hsend)
  present send hsend := by
    obtain ⟨row, hrow⟩ := howned.present send (hsends send hsend)
    obtain ⟨row', hrow', _⟩ := step_change hstep hrow
    exact ⟨row', hrow'⟩
  owned send hsend row' hrow' hsending := by
    obtain ⟨row, hrow⟩ := howned.present send (hsends send hsend)
    obtain ⟨found, hfound, hchange⟩ := step_change hstep hrow
    have hsame : found = row' := by
      rw [hfound] at hrow'
      exact Option.some.inj hrow'
    rw [hsame] at hchange
    rcases hchange.sending hsending with rfl | ⟨sid, now, ttl, he, hclaimable, _⟩
    · exact howned.owned send (hsends send hsend) row' hrow hsending
    · rw [id_of_row hrow] at he
      exact absurd hclaimable (hclaim send hsend sid now ttl row he hrow)

/-- A row that a claim takes has no send in flight. -/
theorem no_send_of_claimable {d : Desk} (howned : Owned d) {worker id : Nat} {ttl : Int}
    (hunclaimed : Unclaimed d (.claim worker id ttl)) {row : Request}
    (hrow : d.forms.row id = some row) (hclaimable : claimable d.now row) {send : Send}
    (hsend : send ∈ d.sends) : send.requestId ≠ id := by
  intro hid
  by_cases hsending : row.status = .sending
  · have hstamp := (howned.owned send hsend row (by rw [hid]; exact hrow) hsending).2
    have hlease := howned.timely send hsend
    -- the row is stamped with the time of the send, which is within its lease
    rw [claimable, hstamp] at hclaimable
    simp only [Bool.decide_and, Bool.and_eq_true, decide_eq_true_eq] at hclaimable
    have hlate := hclaimable.2
    omega
  · exact hunclaimed row hrow hclaimable hsending send hsend hid

/-- An effective claim starts a send that owns its row. -/
theorem owned_claim {d : Desk} (howned : Owned d) {worker id : Nat} {ttl : Int} {forms : State}
    (hunclaimed : Unclaimed d (.claim worker id ttl))
    (hstep : step d.forms (.claim worker id d.now ttl) = some forms) {row : Request}
    (hrow : d.forms.row id = some row) (hclaimable : claimable d.now row) :
    Owned
      { forms
        now := d.now
        sends := ⟨worker, id, d.now⟩ :: d.sends
        owner := fun other => if other = id then some worker else d.owner other } := by
  have hne : ∀ send ∈ d.sends, send.requestId ≠ id := fun send =>
    no_send_of_claimable howned hunclaimed hrow hclaimable
  have hrest : Owned { d with forms, sends := d.sends } := by
    apply owned_event howned hstep fun _ h => h
    intro send hsend sid now ttl' row' he
    simp only [Event.claim.injEq] at he
    exact absurd he.2.1.symm (hne send hsend)
  have hnew := row_claim hstep hrow hclaimable
  refine ⟨?_, ?_, ?_⟩
  · intro send hsend
    rcases List.mem_cons.mp hsend with rfl | hold
    · show d.now ≤ d.now + sendLeaseSeconds
      unfold sendLeaseSeconds
      omega
    · exact howned.timely send hold
  · intro send hsend
    rcases List.mem_cons.mp hsend with rfl | hold
    · exact ⟨_, hnew⟩
    · exact hrest.present send hold
  · intro send hsend row' hrow' hsending
    rcases List.mem_cons.mp hsend with rfl | hold
    · have hsame : claimRow d.now ttl row = row' := by
        rw [hnew] at hrow'
        exact Option.some.inj hrow'
      refine ⟨if_pos rfl, ?_⟩
      rw [← hsame]
      rfl
    · obtain ⟨howner, hstamp⟩ := hrest.owned send hold row' hrow' hsending
      exact ⟨(if_neg (hne send hold)).trans howner, hstamp⟩

theorem owned_act {d d' : Desk} {a : Action} (howned : Owned d) (htimely : Timely d a)
    (hunclaimed : Unclaimed d a) (h : act d a = some d') : Owned d' := by
  cases a with
  | tick now =>
      simp only [act] at h
      split at h
      · cases h
        exact ⟨htimely, howned.present, howned.owned⟩
      · cases h
  | claim worker id ttl =>
      simp only [act] at h
      split at h
      · cases h
      · obtain ⟨forms, hstep, rfl⟩ := Option.map_eq_some_iff.mp h
        split
        · rename_i hany
          rw [Option.any_eq_true] at hany
          obtain ⟨row, hrow, hclaimable⟩ := hany
          exact owned_claim howned hunclaimed hstep hrow hclaimable
        · rename_i hnone
          apply owned_event howned hstep fun _ h => h
          intro send _ sid now ttl' row he hrow hclaimable
          simp only [Event.claim.injEq] at he
          apply hnone
          rw [he.2.1, hrow, he.2.2.1]
          exact hclaimable
  | markSent worker =>
      simp only [act] at h
      split at h
      · cases h
      · obtain ⟨forms, hstep, rfl⟩ := Option.map_eq_some_iff.mp h
        exact owned_event howned hstep (fun _ h => h) (by intro send _ sid now ttl row he; cases he)
  | releaseFailed worker reason =>
      simp only [act] at h
      split at h
      · cases h
      · obtain ⟨forms, hstep, rfl⟩ := Option.map_eq_some_iff.mp h
        exact owned_event howned hstep (fun _ h => List.mem_of_mem_filter h)
          (by intro send _ sid now ttl row he; cases he)
  | done worker =>
      cases h
      refine ⟨?_, ?_, ?_⟩
      · intro send hsend
        exact howned.timely send (List.mem_of_mem_filter hsend)
      · intro send hsend
        exact howned.present send (List.mem_of_mem_filter hsend)
      · intro send hsend
        exact howned.owned send (List.mem_of_mem_filter hsend)
  | event e =>
      simp only [act] at h
      split at h
      · cases h
      · rename_i hdelivery
        obtain ⟨forms, hstep, rfl⟩ := Option.map_eq_some_iff.mp h
        apply owned_event howned hstep fun _ h => h
        intro send _ sid now ttl row he
        rw [he] at hdelivery
        exact absurd rfl hdelivery

/-- In every run of timely sends whose claims meet the condition, what a worker records
takes effect only on a row that carries its own claim. -/
theorem send_claim_owned {rows : List Request} {start : Int} {acts : List Action} {d d' : Desk}
    (hrun : Run act (fun d a => Timely d a ∧ Unclaimed d a) (Desk.start rows start) acts d)
    {worker id : Nat} {a : Action} (hrecords : a.recordsFor worker) (h : act d a = some d')
    (hchanged : d'.forms.row id ≠ d.forms.row id) :
    ∃ send ∈ d.sends, send.worker = worker ∧ send.requestId = id ∧
      d.owner id = some worker ∧
      ∃ row, d.forms.row id = some row ∧ row.notifiedAtInSeconds = some send.since := by
  have howned : Owned d := hrun.invariant (owned_start rows start)
    fun _ _ _ howned hguard hact => owned_act howned hguard.1 hguard.2 hact
  have howner : ∀ send, d.sendOf worker = some send → id = send.requestId →
      (∃ row, d.forms.row id = some row ∧ row.status = .sending) →
      ∃ send ∈ d.sends, send.worker = worker ∧ send.requestId = id ∧
        d.owner id = some worker ∧
        ∃ row, d.forms.row id = some row ∧ row.notifiedAtInSeconds = some send.since := by
    intro send hsend hid hsending
    obtain ⟨row, hrow, hstatus⟩ := hsending
    have hmem : send ∈ d.sends := List.mem_of_find?_eq_some hsend
    have hworker : send.worker = worker := by simpa using List.find?_some hsend
    subst hid
    obtain ⟨howner, hstamp⟩ := howned.owned send hmem row hrow hstatus
    exact ⟨send, hmem, hworker, rfl, hworker ▸ howner, row, hrow, hstamp⟩
  cases a with
  | markSent other =>
      have hother : other = worker := hrecords
      subst hother
      simp only [act] at h
      split at h
      · cases h
      · rename_i send hsend
        obtain ⟨forms, hstep, rfl⟩ := Option.map_eq_some_iff.mp h
        simp only [step] at hstep
        split at hstep
        · obtain ⟨hid, hsending⟩ := sending_of_commit hstep (fun _ => rfl) hchanged
          exact howner send hsend hid hsending
        · cases hstep
  | releaseFailed other reason =>
      have hother : other = worker := hrecords
      subst hother
      simp only [act] at h
      split at h
      · cases h
      · rename_i send hsend
        obtain ⟨forms, hstep, rfl⟩ := Option.map_eq_some_iff.mp h
        simp only [step] at hstep
        split at hstep
        · obtain ⟨hid, hsending⟩ := sending_of_commit hstep (fun _ => rfl) hchanged
          exact howner send hsend hid hsending
        · cases hstep
  | tick now => cases hrecords
  | claim other id ttl => cases hrecords
  | done other => cases hrecords
  | event e => cases hrecords

/-- One worker claims a pending link and records its own send within the lease. -/
theorem worker_records_own_send :
    ∃ d d', Run act (fun d a => Timely d a ∧ Unclaimed d a)
        (Desk.start [reviewLink 1 .pending none] 100) [.claim 1 1 3600, .tick 130] d ∧
      act d (.markSent 1) = some d' ∧ d'.forms.statusOf 1 = some .notified ∧
      d.owner 1 = some 1 := by
  have hrun : ∃ d, Run act (fun d a => Timely d a ∧ Unclaimed d a)
      (Desk.start [reviewLink 1 .pending none] 100) [.claim 1 1 3600, .tick 130] d ∧
      (d.forms.statusOf 1, (act d (.markSent 1)).map fun d' => d'.forms.statusOf 1) =
        (some .sending, some (some .notified)) := run_of_exec_map (by decide)
  obtain ⟨d, hrun, hvalue⟩ := hrun
  obtain ⟨hbefore, hafter⟩ := Prod.mk.inj hvalue
  obtain ⟨d', hact, hnotified⟩ := Option.map_eq_some_iff.mp hafter
  have hchanged : d'.forms.row 1 ≠ d.forms.row 1 := by
    intro hsame
    unfold State.statusOf at hbefore hnotified
    rw [hsame, hbefore] at hnotified
    cases hnotified
  have hrecords : (Action.markSent 1).recordsFor 1 := rfl
  obtain ⟨send, _, _, _, howner, _⟩ := send_claim_owned hrun hrecords hact hchanged
  exact ⟨d, d', hrun, hact, hnotified, howner⟩

/-- While worker 1 sends, the recipient's submission fails, an admin re-issues the failed
link, and worker 2 claims it; all within one lease.  Worker 1 then records worker 2's claim
as sent, or as failed. -/
theorem send_recorded_on_reissued_claim :
    ∃ d, Run act Timely (Desk.start [reviewLink 1 .pending none] 100)
        [.claim 1 1 3600, .tick 110,
          .event (.submit 8 "ref-1" [] 110 (some reviewTask) true),
          .event (.completeFails 8 "service task failed".toList), .event (.recordFailure 8),
          .tick 120, .event (.reissue 9 1 "t1" "ref-9" 120 3600 (some reviewTask)),
          .tick 130, .claim 2 1 3600, .tick 140] d ∧
      d.owner 1 = some 2 ∧ d.forms.statusOf 1 = some .sending ∧
      (act d (.markSent 1)).map (fun d' => d'.forms.statusOf 1) = some (some .notified) ∧
      (act d (.releaseFailed 1 "timeout".toList)).map (fun d' => d'.forms.statusOf 1) =
        some (some .failed) := by
  have hrun : ∃ d, Run act Timely (Desk.start [reviewLink 1 .pending none] 100)
      [.claim 1 1 3600, .tick 110,
        .event (.submit 8 "ref-1" [] 110 (some reviewTask) true),
        .event (.completeFails 8 "service task failed".toList), .event (.recordFailure 8),
        .tick 120, .event (.reissue 9 1 "t1" "ref-9" 120 3600 (some reviewTask)),
        .tick 130, .claim 2 1 3600, .tick 140] d ∧
      (d.owner 1, d.forms.statusOf 1,
        (act d (.markSent 1)).map fun d' => d'.forms.statusOf 1,
        (act d (.releaseFailed 1 "timeout".toList)).map fun d' => d'.forms.statusOf 1) =
      (some 2, some .sending, some (some .notified), some (some .failed)) :=
    run_of_exec_map (by decide)
  obtain ⟨d, hrun, hvalue⟩ := hrun
  simp only [Prod.mk.injEq] at hvalue
  exact ⟨d, hrun, hvalue⟩

end M8flow.ExternalForm
