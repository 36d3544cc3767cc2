import M8flow.Lib.Run
import M8flow.Lib.Text

/-!
# The NATS trigger consumer

`process_message` of `trigger_event_consumer.py`, from the point where an event is
verified to its acknowledgement.  Its effects are separate: the idempotency key
is created in a key-value bucket, core commits the instance in a session of its
own, the failure is recorded in the audit table, the key is released, and the
message is acknowledged.  A consumer may crash between any two of them, any
number of consumers run at once, and an event may be delivered any number of
times.

The bucket is available and its keys do not expire.
-/

namespace M8flow.Nats

open M8flow.Lib

/-- The tenant and the id of a verified trigger event; a blank id is absent. -/
structure TriggerEvent where
  tenantId : Text
  eventId : Text
  deriving Repr, DecidableEq

/-- The outcomes that a failed start is recorded with. -/
inductive Outcome where
  | userNotFound
  | modelNotFound
  | transientError
  deriving Repr, DecidableEq

/-- The key that `check_idempotency` joins. -/
def dedupKey (ev : TriggerEvent) : Text := ev.tenantId ++ '-' :: ev.eventId

/-- `if event_id and tenant_id`: the event is one that is checked at all. -/
def TriggerEvent.checked (ev : TriggerEvent) : Bool := ev.eventId ≠ [] ∧ ev.tenantId ≠ []

/-- The key an event is processed under. -/
def TriggerEvent.key (ev : TriggerEvent) : Option Text :=
  if ev.checked then some (dedupKey ev) else none

/-- Where one consumer stands in `process_message`. -/
inductive Phase where
  | idle
  /-- Signature, api key and scope hold. -/
  | verified (ev : TriggerEvent)
  /-- The key exists: the event counts as a duplicate. -/
  | duplicate (ev : TriggerEvent)
  /-- `instantiate_process` is running. -/
  | starting (ev : TriggerEvent) (key : Option Text)
  /-- Core has committed the instance. -/
  | started (ev : TriggerEvent) (key : Option Text)
  /-- The message is acknowledged, the reply is still to be sent. -/
  | replying (ev : TriggerEvent) (key : Option Text)
  /-- The exception handler is entered. -/
  | failing (ev : TriggerEvent) (key : Option Text) (outcome : Outcome)
  /-- The failure is recorded, unless the audit write failed. -/
  | releasing (ev : TriggerEvent) (key : Option Text) (recorded : Bool)
  /-- The key is released; the error reply and the acknowledgement remain. -/
  | discarding (ev : TriggerEvent)
  deriving Repr, DecidableEq

/-- The bucket, the instances and failures by event, the events acknowledged as
duplicates, and the phases of `n` consumers. -/
structure State (n : Nat) where
  kv : List Text
  instances : List TriggerEvent
  failures : List (TriggerEvent × Outcome)
  duplicates : List TriggerEvent
  phase : Fin n → Phase

variable {n : Nat}

/-- No key, no instance, every consumer idle. -/
def State.start (n : Nat) : State n where
  kv := []
  instances := []
  failures := []
  duplicates := []
  phase := fun _ => .idle

/-- Consumer `c` moves to `phase`. -/
def State.set (s : State n) (c : Fin n) (phase : Phase) : State n :=
  { s with phase := fun other => if other = c then phase else s.phase other }

/-- The events of the system. -/
inductive Event (n : Nat) where
  | deliver (c : Fin n) (ev : TriggerEvent)
  | checkIdempotency (c : Fin n)
  | ackDuplicate (c : Fin n)
  | startFails (c : Fin n) (outcome : Outcome)
  | startCommits (c : Fin n)
  | ack (c : Fin n)
  | reply (c : Fin n)
  /-- An exception outside `instantiate_process`, or in it after core's commit. -/
  | raises (c : Fin n)
  | recordFailure (c : Fin n) (written : Bool)
  | release (c : Fin n)
  | discard (c : Fin n)
  | crash (c : Fin n)
  deriving Repr, DecidableEq

/-- One effect of one consumer. -/
def step (s : State n) : Event n → Option (State n)
  | .deliver c ev =>
      match s.phase c with
      | .idle => some (s.set c (.verified ev))
      | _ => none
  | .checkIdempotency c =>
      match s.phase c with
      | .verified ev =>
          match ev.key with
          | none => some (s.set c (.starting ev none))
          | some key =>
              if key ∈ s.kv then some (s.set c (.duplicate ev))
              else some { s.set c (.starting ev (some key)) with kv := key :: s.kv }
      | _ => none
  | .ackDuplicate c =>
      match s.phase c with
      | .duplicate ev => some { s.set c .idle with duplicates := ev :: s.duplicates }
      | _ => none
  | .startFails c outcome =>
      match s.phase c with
      | .starting ev key => some (s.set c (.failing ev key outcome))
      | _ => none
  | .startCommits c =>
      match s.phase c with
      | .starting ev key =>
          some { s.set c (.started ev key) with instances := ev :: s.instances }
      | _ => none
  | .ack c =>
      match s.phase c with
      | .started ev key => some (s.set c (.replying ev key))
      | _ => none
  | .reply c =>
      match s.phase c with
      | .replying _ _ => some (s.set c .idle)
      | _ => none
  | .raises c =>
      match s.phase c with
      -- `dedup_key` is still, or again, `None` here
      | .verified ev => some (s.set c (.failing ev none .transientError))
      | .duplicate ev => some (s.set c (.failing ev none .transientError))
      | .started ev key => some (s.set c (.failing ev key .transientError))
      | .replying ev key => some (s.set c (.failing ev key .transientError))
      | _ => none
  | .recordFailure c written =>
      match s.phase c with
      | .failing ev key outcome =>
          some { s.set c (.releasing ev key written) with
            failures := if written then (ev, outcome) :: s.failures else s.failures }
      | _ => none
  | .release c =>
      match s.phase c with
      | .releasing ev none _ => some (s.set c (.discarding ev))
      | .releasing ev (some key) _ =>
          some { s.set c (.discarding ev) with kv := s.kv.filter fun other => other ≠ key }
      | _ => none
  | .discard c =>
      match s.phase c with
      | .discarding _ => some (s.set c .idle)
      | _ => none
  | .crash c => some (s.set c .idle)

/-! ## Keys -/

/-- Tenant ids of one length make the joined key determine the event. -/
theorem dedupKey_inj_of_length {ev ev' : TriggerEvent}
    (hlength : ev.tenantId.length = ev'.tenantId.length) (h : dedupKey ev = dedupKey ev') :
    ev = ev' := by
  obtain ⟨htenant, hrest⟩ := List.append_inj h hlength
  cases ev
  cases ev'
  simp_all

/-- Otherwise two events of different tenants can share a key. -/
example : dedupKey ⟨"a-b".toList, "c".toList⟩ = dedupKey ⟨"a".toList, "b-c".toList⟩ := by
  decide

/-- A trigger event to run the model on. -/
def orderPlaced : TriggerEvent := ⟨"t1".toList, "e1".toList⟩

end M8flow.Nats
