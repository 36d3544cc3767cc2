import M8flow.Auth.Tenant
import M8flow.Lib.Run
import Mathlib.Logic.Function.Basic

/-!
# Temporary tenant membership

`temporary_tenant_membership` and `_write_tenant_field_3` of `identity/__init__.py`, for
one user.  Each core command runs inside a wrapper in a session of its own thread.  A
session keeps its copy of the user after a commit, and a commit writes the column only if
the session changed it.

A wrapper that core already lets through changes nothing and is not kept; the others are
open from their grant to the end of their revert.

- `inv_step` is what a step keeps, as long as `Meets` holds at each revert;
- `membership_undone` is what then holds whenever no wrapper is open;
- `overlap_leaves_grant` is a run of two wrappers that leaves the tenant of the first.
-/

namespace M8flow.Identity.TemporaryMembership

open M8flow.Lib M8flow.Auth

/-- The value of `external_user_id`; whether a wrapper granted it is kept for the
statements only. -/
structure Field where
  value : Option Text
  granted : Bool
  deriving DecidableEq

/-- A wrapper that has made its grant. -/
structure Wrapper where
  name : Nat
  session : Nat
  previous : Field
  deriving DecidableEq

/-- The stored field, the copies of the sessions, and the open wrappers. -/
structure State where
  field : Field
  copies : Nat → Option Field
  opened : List Wrapper

/-- The user before the first wrapper. -/
def State.start (original : Option Text) : State :=
  { field := ⟨original, false⟩, copies := fun _ => none, opened := [] }

/-- A session reads the row, at first or after a rollback; a wrapper begins, where
`member` is what core's `user_belongs_to_tenant` answers; or its command has ended,
raised or not, and the revert is made, or cannot be written and fails. -/
inductive Event where
  | load (session : Nat)
  | enter (name session : Nat) (tenantId : Option Text) (member : Bool)
  | exit (name : Nat) (raised written : Bool)

/-- The wrapper of a name, if it is open. -/
def State.holder (s : State) (name : Nat) : Option Wrapper := s.opened.find? (·.name = name)

/-- The open wrappers of other names. -/
def State.others (s : State) (name : Nat) : List Wrapper := s.opened.filter (·.name ≠ name)

/-- The session's copy shows another value. -/
def Changes (copy : Option Field) (value : Option Text) : Bool :=
  copy.any fun field => field.value ≠ value

/-- `_write_tenant_field_3`: the column is written if the session's copy changes. -/
def State.write (s : State) (session : Nat) (new : Field) : State :=
  if Changes (s.copies session) new.value then
    { s with field := new, copies := Function.update s.copies session (some new) }
  else s

/-- One step.  The `finally` of the wrapper runs whether or not the command raised. -/
def step (s : State) : Event → Option State
  | .load session => some { s with copies := Function.update s.copies session (some s.field) }
  | .enter name session tenantId member =>
      match s.copies session, nonblank tenantId with
      | none, _ => none
      | some _, none => some s
      | some previous, some tenant =>
          if member then some s
          else if (s.holder name).isSome then none
          else
            some { s.write session ⟨some tenant, true⟩ with
              opened := ⟨name, session, previous⟩ :: s.opened }
  | .exit name _ written =>
      match s.holder name with
      | none => none
      | some wrapper =>
          if written then
            if (s.copies wrapper.session).isNone then none
            else
              some { s.write wrapper.session wrapper.previous with opened := s.others name }
          else
            some { s with
              copies := Function.update s.copies wrapper.session none
              opened := s.others name }

/-- The revert of a wrapper changes the column. -/
def State.Reverts (s : State) (wrapper : Wrapper) (written : Bool) : Prop :=
  written = true ∧ Changes (s.copies wrapper.session) wrapper.previous.value = true

instance (s : State) (wrapper : Wrapper) (written : Bool) :
    Decidable (s.Reverts wrapper written) := by
  unfold State.Reverts
  infer_instance

/-- If the wrapper is the last one open, then the value it saved, or the stored one where
the revert does not change it, was not granted by a wrapper. -/
def Restores (s : State) (name : Nat) (written : Bool) (wrapper : Wrapper) : Prop :=
  s.others name = [] →
    (s.Reverts wrapper written → wrapper.previous.granted = false) ∧
    (¬ s.Reverts wrapper written → s.field.granted = false)

instance (s : State) (name : Nat) (written : Bool) (wrapper : Wrapper) :
    Decidable (Restores s name written wrapper) := by
  unfold Restores
  infer_instance

/-- What the revert of a wrapper must find. -/
def Meets (s : State) : Event → Prop
  | .load _ => True
  | .enter _ _ _ _ => True
  | .exit name _ written => ∀ wrapper ∈ s.holder name, Restores s name written wrapper

instance (s : State) : ∀ e, Decidable (Meets s e)
  | .load _ => inferInstanceAs (Decidable True)
  | .enter _ _ _ _ => inferInstanceAs (Decidable True)
  | .exit name _ written =>
      inferInstanceAs (Decidable (∀ wrapper ∈ s.holder name, Restores s name written wrapper))

/-! ## The invariant -/

/-- A value that no wrapper granted is the original one. -/
def Field.Of (original : Option Text) (field : Field) : Prop :=
  field.granted = false → field.value = original

/-- What holds in every state of a run that meets the condition. -/
structure Inv (original : Option Text) (s : State) : Prop where
  field : s.field.Of original
  copies : ∀ session, ∀ copy ∈ s.copies session, copy.Of original
  opened : ∀ wrapper ∈ s.opened, wrapper.previous.Of original
  closed : s.opened = [] → s.field.granted = false

theorem inv_start (original : Option Text) : Inv original (State.start original) where
  field _ := rfl
  copies _ _ h := by cases h
  opened _ h := by cases h
  closed _ := rfl

/-- Nothing is asked of a value that a wrapper granted. -/
theorem Field.of_granted (original tenant : Option Text) : Field.Of original ⟨tenant, true⟩ := by
  intro h
  cases h

theorem copies_update {original : Option Text} {s : State} (hinv : Inv original s)
    (session : Nat) {new : Option Field} (hnew : ∀ copy ∈ new, copy.Of original) :
    ∀ other, ∀ copy ∈ Function.update s.copies session new other, copy.Of original := by
  intro other copy hcopy
  by_cases hother : other = session
  · rw [hother, Function.update_self] at hcopy
    exact hnew copy hcopy
  · rw [Function.update_of_ne hother] at hcopy
    exact hinv.copies other copy hcopy

/-- What the field holds after a write. -/
theorem write_field (s : State) (session : Nat) (new : Field) :
    (s.write session new).field =
      if Changes (s.copies session) new.value then new else s.field := by
  unfold State.write
  split <;> rfl

/-- A write puts in an original value or a grant, and touches one copy. -/
theorem write_of {original : Option Text} {s : State} (hinv : Inv original s) (session : Nat)
    {new : Field} (hnew : new.Of original) :
    (s.write session new).field.Of original ∧
      ∀ other, ∀ copy ∈ (s.write session new).copies other, copy.Of original := by
  unfold State.write
  split
  · refine ⟨hnew, copies_update hinv session ?_⟩
    intro copy hcopy
    cases hcopy
    exact hnew
  · exact ⟨hinv.field, hinv.copies⟩

theorem mem_of_holder {s : State} {name : Nat} {wrapper : Wrapper}
    (h : s.holder name = some wrapper) : wrapper ∈ s.opened := List.mem_of_find?_eq_some h

/-- A wrapper that makes its grant is open, so nothing is asked of the field. -/
theorem inv_grant {original : Option Text} {s : State} (hinv : Inv original s)
    {name session : Nat} {previous : Field} (tenant : Text)
    (hcopy : s.copies session = some previous) :
    Inv original { s.write session ⟨some tenant, true⟩ with
      opened := ⟨name, session, previous⟩ :: s.opened } := by
  obtain ⟨hfield, hcopies⟩ := write_of hinv session (Field.of_granted original (some tenant))
  refine ⟨hfield, hcopies, ?_, ?_⟩
  · intro wrapper hwrapper
    rcases List.mem_cons.mp hwrapper with rfl | hold
    · exact hinv.copies session previous hcopy
    · exact hinv.opened wrapper hold
  · intro hnil
    cases hnil

/-- A revert that is written puts the saved value back; if no other wrapper is open, that
is the original one. -/
theorem inv_revert {original : Option Text} {s : State} (hinv : Inv original s) {name : Nat}
    {wrapper : Wrapper} (hholder : s.holder name = some wrapper)
    (hmeets : Restores s name true wrapper) :
    Inv original { s.write wrapper.session wrapper.previous with opened := s.others name } := by
  have hprevious := hinv.opened wrapper (mem_of_holder hholder)
  obtain ⟨hfield, hcopies⟩ := write_of hinv wrapper.session hprevious
  refine ⟨hfield, hcopies, ?_, ?_⟩
  · intro other hother
    exact hinv.opened other (List.mem_filter.mp hother).1
  · intro hlast
    obtain ⟨hchanges, hsame⟩ := hmeets hlast
    show (s.write wrapper.session wrapper.previous).field.granted = false
    rw [write_field]
    split
    · rename_i hchange
      exact hchanges ⟨rfl, hchange⟩
    · rename_i hchange
      exact hsame fun hreverts => hchange hreverts.2

/-- A revert that fails leaves the field as it is. -/
theorem inv_failed {original : Option Text} {s : State} (hinv : Inv original s) {name : Nat}
    {wrapper : Wrapper} (hmeets : Restores s name false wrapper) :
    Inv original { s with
      copies := Function.update s.copies wrapper.session none
      opened := s.others name } := by
  refine ⟨hinv.field, copies_update hinv wrapper.session (fun _ h => by cases h), ?_, ?_⟩
  · intro other hother
    exact hinv.opened other (List.mem_filter.mp hother).1
  · intro hlast
    have hunwritten : ¬ s.Reverts wrapper false := fun hreverts => by cases hreverts.1
    exact (hmeets hlast).2 hunwritten

/-- What a step keeps. -/
theorem inv_step {original : Option Text} {s t : State} {e : Event} (hinv : Inv original s)
    (hmeets : Meets s e) (h : step s e = some t) : Inv original t := by
  cases e with
  | load session =>
      cases h
      refine ⟨hinv.field, copies_update hinv session ?_, hinv.opened, hinv.closed⟩
      intro copy hcopy
      cases hcopy
      exact hinv.field
  | enter name session tenantId member =>
      simp only [step] at h
      split at h
      · cases h
      · cases h
        exact hinv
      · rename_i previous tenant hcopy _
        split at h
        · cases h
          exact hinv
        · split at h
          · cases h
          · cases h
            exact inv_grant hinv tenant hcopy
  | exit name raised written =>
      simp only [step] at h
      split at h
      · cases h
      · rename_i wrapper hholder
        have hrestores : Restores s name written wrapper := hmeets wrapper hholder
        split at h
        · rename_i hwritten
          rw [hwritten] at hrestores
          split at h
          · cases h
          · cases h
            exact inv_revert hinv hholder hrestores
        · rename_i hwritten
          rw [Bool.not_eq_true] at hwritten
          rw [hwritten] at hrestores
          cases h
          exact inv_failed hinv hrestores

/-- In every run whose reverts find what they need, the field holds its original value
whenever no wrapper is open. -/
theorem membership_undone {original : Option Text} {es : List Event} {s : State}
    (hrun : Run step Meets (State.start original) es s) (hdone : s.opened = []) :
    s.field.value = original := by
  have hinv : Inv original s :=
    hrun.invariant (inv_start original) fun _ _ _ hinv hmeets hstep => inv_step hinv hmeets hstep
  exact hinv.field (hinv.closed hdone)

/-! ## Runs -/

/-- Two wrappers of different tenants, the second one inside the first or overlapping it. -/
def twoWrappers (first second : Nat) : List Event :=
  [.load 0, .enter 0 0 (some ['a']) false, .load 1, .enter 1 1 (some ['b']) false,
    .exit first false true, .exit second true true]

/-- The second wrapper ends inside the first, and its command raises. -/
theorem membership_undone_nested :
    ∃ s, Run step Meets (State.start none) (twoWrappers 1 0) s ∧ s.field.value = none := by
  have hexec : (exec step Meets (State.start none) (twoWrappers 1 0)).map State.opened =
      some [] := by decide +kernel
  obtain ⟨s, hrun, hopened⟩ := run_of_exec_map hexec
  exact ⟨s, hrun, membership_undone hrun hopened⟩

/-- The first wrapper ends before the second, which then puts back the first one's tenant. -/
theorem overlap_leaves_grant :
    ∃ es s, Run step (fun _ _ => True) (State.start none) es s ∧ s.opened = [] ∧
      s.field.value = some ['a'] := by
  have hexec : (exec step (fun _ _ => True) (State.start none) (twoWrappers 0 1)).map
      (fun s => (s.opened, s.field.value)) = some ([], some ['a']) := by decide +kernel
  obtain ⟨s, hrun, hvalue⟩ := run_of_exec_map hexec
  obtain ⟨hopened, hfield⟩ := Prod.mk.inj hvalue
  exact ⟨_, s, hrun, hopened, hfield⟩

end M8flow.Identity.TemporaryMembership
