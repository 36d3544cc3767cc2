import M8flow.Nats.Consumer
import Mathlib.Data.List.Count

/-!
# At most one instance per event

The key of an event stands for one of two things: a consumer is processing the
event right now, or the event is settled, with an instance created or a failure
recorded.  A run keeps this as long as no consumer crashes while its event is
neither, no exception follows core's commit, no delivery is checked while
another consumer is processing the same key, and distinct events have distinct
keys.  Then every event has at most one instance, and only settled events are
acknowledged as duplicates.
-/

namespace M8flow.Nats

open M8flow.Lib

variable {n : Nat}

/-! ## What a phase holds -/

/-- The event a phase works on. -/
def Phase.event : Phase → Option TriggerEvent
  | .idle => none
  | .verified ev | .duplicate ev | .starting ev _ | .started ev _ | .replying ev _
  | .failing ev _ _ | .releasing ev _ _ | .discarding ev => some ev

/-- The key a phase holds in the bucket. -/
def Phase.heldKey : Phase → Option Text
  | .starting _ key | .started _ key | .replying _ key | .failing _ key _
  | .releasing _ key _ => key
  | _ => none

/-- The key of a phase that has created no instance. -/
def Phase.unstartedKey : Phase → Option Text
  | .starting _ key | .failing _ key _ | .releasing _ key _ => key
  | _ => none

/-- The key of a phase that has created no instance and recorded no failure. -/
def Phase.pendingKey : Phase → Option Text
  | .starting _ key | .failing _ key _ | .releasing _ key false => key
  | _ => none

/-- The key of a phase whose instance core has committed. -/
def Phase.committedKey : Phase → Option Text
  | .started _ key | .replying _ key => key
  | _ => none

/-- The key that a phase is about to check. -/
def Phase.newKey : Phase → Option Text
  | .verified ev => ev.key
  | _ => none

theorem heldKey_of_unstartedKey {phase : Phase} {key : Text}
    (h : phase.unstartedKey = some key) : phase.heldKey = some key := by
  cases phase <;> simp_all [Phase.unstartedKey, Phase.heldKey]

theorem unstartedKey_of_pendingKey {phase : Phase} {key : Text}
    (h : phase.pendingKey = some key) : phase.unstartedKey = some key := by
  cases phase with
  | releasing ev held recorded =>
      cases recorded
      · exact h
      · cases h
  | starting ev held => exact h
  | failing ev held outcome => exact h
  | _ => cases h

/-- An instance was created for the event, or its failure was recorded. -/
def Settled (s : State n) (ev : TriggerEvent) : Prop :=
  ev ∈ s.instances ∨ ∃ outcome, (ev, outcome) ∈ s.failures

/-- What a step must meet, in the state before it, for the guarantee to hold.
`trusted` is the set of verified events of the run. -/
def Safe (trusted : TriggerEvent → Prop) (s : State n) : Event n → Prop
  | .deliver _ ev => trusted ev
  -- a key that is taken is not one that a consumer is still working under
  | .checkIdempotency c => ∀ key ∈ (s.phase c).newKey, key ∈ s.kv →
      ∀ other, (s.phase other).pendingKey ≠ some key
  | .raises c => (s.phase c).committedKey = none
  | .crash c => (s.phase c).pendingKey = none
  | .ackDuplicate _ | .startFails _ _ | .startCommits _ | .ack _ | .reply _
  | .recordFailure _ _ | .release _ | .discard _ => True

instance (trusted : TriggerEvent → Prop) [DecidablePred trusted] (s : State n) :
    ∀ e : Event n, Decidable (Safe trusted s e)
  | .deliver _ ev => inferInstanceAs (Decidable (trusted ev))
  | .checkIdempotency c => inferInstanceAs (Decidable (∀ key ∈ (s.phase c).newKey, key ∈ s.kv →
      ∀ other, (s.phase other).pendingKey ≠ some key))
  | .raises c => inferInstanceAs (Decidable ((s.phase c).committedKey = none))
  | .crash c => inferInstanceAs (Decidable ((s.phase c).pendingKey = none))
  | .ackDuplicate _ | .startFails _ _ | .startCommits _ | .ack _ | .reply _
  | .recordFailure _ _ | .release _ | .discard _ => inferInstanceAs (Decidable True)

/-! ## The invariant -/

/-- What holds in every state of a safe run. -/
structure Inv (trusted : TriggerEvent → Prop) (s : State n) : Prop where
  trustedPhase : ∀ c ev, (s.phase c).event = some ev → trusted ev
  startingKey : ∀ c ev key, s.phase c = .starting ev key → key = ev.key
  ownKey : ∀ c ev key, (s.phase c).event = some ev → (s.phase c).heldKey = some key →
    ev.key = some key
  exclusive : ∀ c c' key, (s.phase c).heldKey = some key → (s.phase c').heldKey = some key →
    c = c'
  held : ∀ c key, (s.phase c).heldKey = some key → key ∈ s.kv
  fresh : ∀ c ev key, (s.phase c).event = some ev → (s.phase c).unstartedKey = some key →
    ev ∉ s.instances
  trustedInstance : ∀ ev ∈ s.instances, trusted ev
  instanceKey : ∀ ev ∈ s.instances, ∀ key, ev.key = some key → key ∈ s.kv
  once : ∀ ev, ev.checked → s.instances.count ev ≤ 1
  standsFor : ∀ key ∈ s.kv, (∃ c, (s.phase c).pendingKey = some key) ∨
    ∃ ev, trusted ev ∧ ev.key = some key ∧ Settled s ev
  duplicatePhase : ∀ c ev, s.phase c = .duplicate ev → Settled s ev
  duplicates : ∀ ev ∈ s.duplicates, Settled s ev

theorem inv_start (trusted : TriggerEvent → Prop) : Inv trusted (State.start n) where
  trustedPhase _ _ h := by cases h
  startingKey _ _ _ h := by cases h
  ownKey _ _ _ h := by cases h
  exclusive _ _ _ h := by cases h
  held _ _ h := by cases h
  fresh _ _ _ h := by cases h
  trustedInstance _ h := by cases h
  instanceKey _ h := by cases h
  once ev _ := by
    show [].count ev ≤ 1
    rw [List.count_nil]
    omega
  standsFor _ h := by cases h
  duplicatePhase _ _ h := by cases h
  duplicates _ h := by cases h

@[simp] theorem set_self (s : State n) (c : Fin n) (phase : Phase) :
    (s.set c phase).phase c = phase := by
  simp [State.set]

theorem set_ne (s : State n) {c other : Fin n} (phase : Phase) (h : other ≠ c) :
    (s.set c phase).phase other = s.phase other := by
  simp [State.set, h]

/-- Distinct trusted events are processed under distinct keys. -/
def KeysDistinct (trusted : TriggerEvent → Prop) : Prop :=
  ∀ ev ev' key, trusted ev → trusted ev' → ev.key = some key → ev'.key = some key → ev = ev'

theorem dedupKey_of_key {ev : TriggerEvent} {key : Text} (h : ev.key = some key) :
    dedupKey ev = key := by
  unfold TriggerEvent.key at h
  split at h
  · exact Option.some.inj h
  · cases h

/-- Tenant ids of one length, such as UUIDs, are enough for that. -/
theorem keysDistinct_of_length {trusted : TriggerEvent → Prop} {length : Nat}
    (hlength : ∀ ev, trusted ev → ev.tenantId.length = length) : KeysDistinct trusted := by
  intro ev ev' key h h' hkey hkey'
  apply dedupKey_inj_of_length
  · rw [hlength ev h, hlength ev' h']
  · rw [dedupKey_of_key hkey, dedupKey_of_key hkey']

/-- A consumer that acquires no key and drops none that stands for unsettled work
may change its phase. -/
theorem inv_set {trusted : TriggerEvent → Prop} {s : State n} (hinv : Inv trusted s)
    {c : Fin n} {phase : Phase}
    (htrusted : ∀ ev, phase.event = some ev → trusted ev)
    (hstarting : ∀ ev key, phase = .starting ev key → key = ev.key)
    (hheld : ∀ key, phase.heldKey = some key →
      (s.phase c).heldKey = some key ∧ phase.event = (s.phase c).event)
    (hfresh : ∀ key, phase.unstartedKey = some key → (s.phase c).unstartedKey = some key)
    (hpending : ∀ key, (s.phase c).pendingKey = some key → phase.pendingKey = some key ∨
      ∃ ev, trusted ev ∧ ev.key = some key ∧ Settled s ev)
    (hduplicate : ∀ ev, phase = .duplicate ev → Settled s ev) :
    Inv trusted (s.set c phase) where
  trustedPhase other ev h := by
    by_cases hother : other = c
    · subst hother
      rw [set_self] at h
      exact htrusted ev h
    · rw [set_ne s phase hother] at h
      exact hinv.trustedPhase other ev h
  startingKey other ev key h := by
    by_cases hother : other = c
    · subst hother
      rw [set_self] at h
      exact hstarting ev key h
    · rw [set_ne s phase hother] at h
      exact hinv.startingKey other ev key h
  ownKey other ev key hev hkey := by
    by_cases hother : other = c
    · subst hother
      rw [set_self] at hev hkey
      obtain ⟨hold, hsame⟩ := hheld key hkey
      exact hinv.ownKey other ev key (hsame ▸ hev) hold
    · rw [set_ne s phase hother] at hev hkey
      exact hinv.ownKey other ev key hev hkey
  exclusive first second key hfirst hsecond := by
    have hback : ∀ other, ((s.set c phase).phase other).heldKey = some key →
        (s.phase other).heldKey = some key := by
      intro other h
      by_cases hother : other = c
      · subst hother
        rw [set_self] at h
        exact (hheld key h).1
      · rw [set_ne s phase hother] at h
        exact h
    exact hinv.exclusive first second key (hback first hfirst) (hback second hsecond)
  held other key h := by
    by_cases hother : other = c
    · subst hother
      rw [set_self] at h
      exact hinv.held other key (hheld key h).1
    · rw [set_ne s phase hother] at h
      exact hinv.held other key h
  fresh other ev key hev hkey := by
    by_cases hother : other = c
    · subst hother
      rw [set_self] at hev hkey
      obtain ⟨_, hsame⟩ := hheld key (heldKey_of_unstartedKey hkey)
      exact hinv.fresh other ev key (hsame ▸ hev) (hfresh key hkey)
    · rw [set_ne s phase hother] at hev hkey
      exact hinv.fresh other ev key hev hkey
  trustedInstance := hinv.trustedInstance
  instanceKey := hinv.instanceKey
  once := hinv.once
  standsFor key hmem := by
    rcases hinv.standsFor key hmem with ⟨other, hother⟩ | hsettled
    · by_cases hsame : other = c
      · subst hsame
        rcases hpending key hother with hstill | hsettled
        · left
          refine ⟨other, ?_⟩
          rw [set_self]
          exact hstill
        · exact Or.inr hsettled
      · left
        refine ⟨other, ?_⟩
        rw [set_ne s phase hsame]
        exact hother
    · exact Or.inr hsettled
  duplicatePhase other ev h := by
    by_cases hother : other = c
    · subst hother
      rw [set_self] at h
      exact hduplicate ev h
    · rw [set_ne s phase hother] at h
      exact hinv.duplicatePhase other ev h
  duplicates := hinv.duplicates

/-- A consumer that leaves off, with nothing unsettled under its key. -/
theorem inv_set_idle {trusted : TriggerEvent → Prop} {s : State n} (hinv : Inv trusted s)
    {c : Fin n} (hpending : (s.phase c).pendingKey = none) : Inv trusted (s.set c .idle) := by
  apply inv_set hinv
  · intro ev h
    cases h
  · intro ev key h
    cases h
  · intro key h
    cases h
  · intro key h
    cases h
  · intro key h
    rw [hpending] at h
    cases h
  · intro ev h
    cases h

/-! ## Steps that change more than a phase -/

section Steps

variable {trusted : TriggerEvent → Prop} {s : State n} {c : Fin n} {ev : TriggerEvent}

/-- The key is new: the consumer takes it. -/
theorem inv_takeKey (hinv : Inv trusted s) (hphase : s.phase c = .verified ev) {key : Text}
    (hkey : ev.key = some key) (hnew : key ∉ s.kv) :
    Inv trusted { s.set c (.starting ev (some key)) with kv := key :: s.kv } := by
  have htrusted : trusted ev := hinv.trustedPhase c ev (by rw [hphase]; rfl)
  have hothers : ∀ other, other ≠ c → (s.phase other).heldKey ≠ some key := by
    intro other _ h
    exact hnew (hinv.held other key h)
  refine ⟨?_, ?_, ?_, ?_, ?_, ?_, hinv.trustedInstance, ?_, hinv.once, ?_, ?_, hinv.duplicates⟩
  · intro other found h
    by_cases hother : other = c
    · subst hother
      simp only [set_self, Phase.event, Option.some.injEq] at h
      exact h ▸ htrusted
    · simp only [set_ne s _ hother] at h
      exact hinv.trustedPhase other found h
  · intro other found foundKey h
    by_cases hother : other = c
    · subst hother
      simp only [set_self, Phase.starting.injEq] at h
      rw [← h.1, ← h.2, hkey]
    · simp only [set_ne s _ hother] at h
      exact hinv.startingKey other found foundKey h
  · intro other found foundKey hev h
    by_cases hother : other = c
    · subst hother
      simp only [set_self, Phase.event, Phase.heldKey, Option.some.injEq] at hev h
      rw [← hev, ← h, hkey]
    · simp only [set_ne s _ hother] at hev h
      exact hinv.ownKey other found foundKey hev h
  · intro first second foundKey hfirst hsecond
    by_cases h1 : first = c
    · by_cases h2 : second = c
      · rw [h1, h2]
      · subst h1
        simp only [set_self, Phase.heldKey, Option.some.injEq] at hfirst
        simp only [set_ne s _ h2] at hsecond
        exact absurd (hfirst ▸ hsecond) (hothers second h2)
    · by_cases h2 : second = c
      · subst h2
        simp only [set_self, Phase.heldKey, Option.some.injEq] at hsecond
        simp only [set_ne s _ h1] at hfirst
        exact absurd (hsecond ▸ hfirst) (hothers first h1)
      · simp only [set_ne s _ h1] at hfirst
        simp only [set_ne s _ h2] at hsecond
        exact hinv.exclusive first second foundKey hfirst hsecond
  · intro other foundKey h
    by_cases hother : other = c
    · subst hother
      simp only [set_self, Phase.heldKey, Option.some.injEq] at h
      rw [← h]
      exact List.mem_cons_self
    · simp only [set_ne s _ hother] at h
      exact List.mem_cons_of_mem _ (hinv.held other foundKey h)
  · intro other found foundKey hev h
    by_cases hother : other = c
    · subst hother
      simp only [set_self, Phase.event, Option.some.injEq] at hev
      intro hmem
      -- an instance of the event would have put its key in the bucket
      exact hnew (hinv.instanceKey found hmem key (hev ▸ hkey))
    · simp only [set_ne s _ hother] at hev h
      exact hinv.fresh other found foundKey hev h
  · intro found hmem foundKey h
    exact List.mem_cons_of_mem _ (hinv.instanceKey found hmem foundKey h)
  · intro foundKey hmem
    rcases List.mem_cons.mp hmem with rfl | hold
    · left
      refine ⟨c, ?_⟩
      simp only [set_self, Phase.pendingKey]
    · rcases hinv.standsFor foundKey hold with ⟨other, hother⟩ | hsettled
      · left
        have hne : other ≠ c := by
          rintro rfl
          rw [hphase] at hother
          cases hother
        refine ⟨other, ?_⟩
        simp only [set_ne s _ hne]
        exact hother
      · exact Or.inr hsettled
  · intro other found h
    by_cases hother : other = c
    · subst hother
      simp only [set_self] at h
      cases h
    · simp only [set_ne s _ hother] at h
      exact hinv.duplicatePhase other found h

/-- Recording more failures keeps the invariant. -/
theorem inv_failures (hinv : Inv trusted s) (failures : List (TriggerEvent × Outcome))
    (hmore : ∀ failure ∈ s.failures, failure ∈ failures) :
    Inv trusted { s with failures := failures } := by
  have hsettled : ∀ found, Settled s found → Settled { s with failures := failures } found := by
    intro found h
    rcases h with hinstance | ⟨outcome, hfailure⟩
    · exact Or.inl hinstance
    · exact Or.inr ⟨outcome, hmore _ hfailure⟩
  refine ⟨hinv.trustedPhase, hinv.startingKey, hinv.ownKey, hinv.exclusive, hinv.held,
    hinv.fresh, hinv.trustedInstance, hinv.instanceKey, hinv.once, ?_, ?_, ?_⟩
  · intro key hmem
    rcases hinv.standsFor key hmem with hpending | ⟨found, htrusted, hkey, hfound⟩
    · exact Or.inl hpending
    · exact Or.inr ⟨found, htrusted, hkey, hsettled found hfound⟩
  · intro other found h
    exact hsettled found (hinv.duplicatePhase other found h)
  · intro found hmem
    exact hsettled found (hinv.duplicates found hmem)

/-- Acknowledging a settled event as a duplicate keeps the invariant. -/
theorem inv_duplicates (hinv : Inv trusted s) (hsettled : Settled s ev) :
    Inv trusted { s with duplicates := ev :: s.duplicates } := by
  refine ⟨hinv.trustedPhase, hinv.startingKey, hinv.ownKey, hinv.exclusive, hinv.held,
    hinv.fresh, hinv.trustedInstance, hinv.instanceKey, hinv.once, hinv.standsFor,
    hinv.duplicatePhase, ?_⟩
  intro found hmem
  rcases List.mem_cons.mp hmem with rfl | hold
  · exact hsettled
  · exact hinv.duplicates found hold

theorem settled_instances (hsettled : Settled s ev) (created : TriggerEvent) (phase : Phase) :
    Settled { s.set c phase with instances := created :: s.instances } ev := by
  rcases hsettled with hinstance | hfailure
  · exact Or.inl (List.mem_cons_of_mem _ hinstance)
  · exact Or.inr hfailure

/-- Core commits the instance of the event that the consumer is starting. -/
theorem inv_startCommits (hinv : Inv trusted s) {key : Option Text}
    (hphase : s.phase c = .starting ev key) :
    Inv trusted { s.set c (.started ev key) with instances := ev :: s.instances } := by
  have htrusted : trusted ev := hinv.trustedPhase c ev (by rw [hphase]; rfl)
  have hown : key = ev.key := hinv.startingKey c ev key hphase
  have hheldBefore : ∀ found, ((s.set c (.started ev key)).phase c).heldKey = some found →
      (s.phase c).heldKey = some found := by
    intro found h
    rw [set_self] at h
    rw [hphase]
    exact h
  have hback : ∀ other found, ((s.set c (.started ev key)).phase other).heldKey = some found →
      (s.phase other).heldKey = some found := by
    intro other found h
    by_cases hother : other = c
    · subst hother
      exact hheldBefore found h
    · rw [set_ne s _ hother] at h
      exact h
  have hnew : ∀ found, ev.key = some found → ev ∉ s.instances := by
    intro found hkey
    apply hinv.fresh c ev found (by rw [hphase]; rfl)
    rw [hphase, hown]
    exact hkey
  refine ⟨?_, ?_, ?_, ?_, ?_, ?_, ?_, ?_, ?_, ?_, ?_, ?_⟩
  · intro other found h
    by_cases hother : other = c
    · subst hother
      simp only [set_self, Phase.event, Option.some.injEq] at h
      exact h ▸ htrusted
    · simp only [set_ne s _ hother] at h
      exact hinv.trustedPhase other found h
  · intro other found foundKey h
    by_cases hother : other = c
    · subst hother
      simp only [set_self] at h
      cases h
    · simp only [set_ne s _ hother] at h
      exact hinv.startingKey other found foundKey h
  · intro other found foundKey hev h
    by_cases hother : other = c
    · subst hother
      simp only [set_self, Phase.event, Phase.heldKey, Option.some.injEq] at hev h
      rw [← hev, ← hown, h]
    · simp only [set_ne s _ hother] at hev h
      exact hinv.ownKey other found foundKey hev h
  · intro first second foundKey hfirst hsecond
    exact hinv.exclusive first second foundKey (hback first foundKey hfirst)
      (hback second foundKey hsecond)
  · intro other foundKey h
    exact hinv.held other foundKey (hback other foundKey h)
  · intro other found foundKey hev hkey hmem
    by_cases hother : other = c
    · subst hother
      simp only [set_self] at hkey
      cases hkey
    · simp only [set_ne s _ hother] at hev hkey
      have hholds := heldKey_of_unstartedKey hkey
      rcases List.mem_cons.mp hmem with rfl | hold
      · -- the key has one holder, and that is the consumer that started
        have hfoundKey := hinv.ownKey other found foundKey hev hholds
        have hsame : other = c := by
          apply hinv.exclusive other c foundKey hholds
          rw [hphase, hown]
          exact hfoundKey
        exact hother hsame
      · exact hinv.fresh other found foundKey hev hkey hold
  · intro found hmem
    rcases List.mem_cons.mp hmem with rfl | hold
    · exact htrusted
    · exact hinv.trustedInstance found hold
  · intro found hmem foundKey hkey
    rcases List.mem_cons.mp hmem with rfl | hold
    · apply hinv.held c foundKey
      rw [hphase, hown]
      exact hkey
    · exact hinv.instanceKey found hold foundKey hkey
  · intro found hchecked
    show (ev :: s.instances).count found ≤ 1
    by_cases hsame : ev = found
    · subst hsame
      have hkey : ev.key = some (dedupKey ev) := by
        unfold TriggerEvent.key
        rw [if_pos hchecked]
      rw [List.count_cons_self, List.count_eq_zero_of_not_mem (hnew _ hkey)]
    · rw [List.count_cons_of_ne hsame]
      exact hinv.once found hchecked
  · intro foundKey hmem
    rcases hinv.standsFor foundKey hmem with ⟨other, hother⟩ | ⟨found, hfound, hkey, hset⟩
    · by_cases hsame : other = c
      · subst hsame
        rw [hphase, hown] at hother
        exact Or.inr ⟨ev, htrusted, hother, Or.inl List.mem_cons_self⟩
      · left
        refine ⟨other, ?_⟩
        simp only [set_ne s _ hsame]
        exact hother
    · exact Or.inr ⟨found, hfound, hkey, settled_instances hset ev _⟩
  · intro other found h
    by_cases hother : other = c
    · subst hother
      simp only [set_self] at h
      cases h
    · simp only [set_ne s _ hother] at h
      exact settled_instances (hinv.duplicatePhase other found h) ev _
  · intro found hmem
    exact settled_instances (hinv.duplicates found hmem) ev _

/-- The failed start releases its key, for which there is no instance. -/
theorem inv_release (hdistinct : KeysDistinct trusted) (hinv : Inv trusted s) {key : Text}
    {recorded : Bool} (hphase : s.phase c = .releasing ev (some key) recorded) :
    Inv trusted
      { s.set c (.discarding ev) with kv := s.kv.filter fun other => other ≠ key } := by
  have htrusted : trusted ev := hinv.trustedPhase c ev (by rw [hphase]; rfl)
  have hown : ev.key = some key := hinv.ownKey c ev key (by rw [hphase]; rfl) (by rw [hphase]; rfl)
  have hholds : (s.phase c).heldKey = some key := by rw [hphase]; rfl
  have hnew : ev ∉ s.instances :=
    hinv.fresh c ev key (by rw [hphase]; rfl) (by rw [hphase]; rfl)
  have hback : ∀ other found, ((s.set c (.discarding ev)).phase other).heldKey = some found →
      other ≠ c ∧ (s.phase other).heldKey = some found := by
    intro other found h
    by_cases hother : other = c
    · subst hother
      rw [set_self] at h
      cases h
    · rw [set_ne s _ hother] at h
      exact ⟨hother, h⟩
  have hkeep : ∀ found ∈ s.kv, found ≠ key →
      found ∈ s.kv.filter fun other => other ≠ key := by
    intro found hmem hne
    exact List.mem_filter.mpr ⟨hmem, by simpa using hne⟩
  refine ⟨?_, ?_, ?_, ?_, ?_, ?_, hinv.trustedInstance, ?_, hinv.once, ?_, ?_, hinv.duplicates⟩
  · intro other found h
    by_cases hother : other = c
    · subst hother
      simp only [set_self, Phase.event, Option.some.injEq] at h
      exact h ▸ htrusted
    · simp only [set_ne s _ hother] at h
      exact hinv.trustedPhase other found h
  · intro other found foundKey h
    by_cases hother : other = c
    · subst hother
      simp only [set_self] at h
      cases h
    · simp only [set_ne s _ hother] at h
      exact hinv.startingKey other found foundKey h
  · intro other found foundKey hev h
    obtain ⟨hother, hbefore⟩ := hback other foundKey h
    simp only [set_ne s _ hother] at hev
    exact hinv.ownKey other found foundKey hev hbefore
  · intro first second foundKey hfirst hsecond
    exact hinv.exclusive first second foundKey (hback first foundKey hfirst).2
      (hback second foundKey hsecond).2
  · intro other foundKey h
    obtain ⟨hother, hbefore⟩ := hback other foundKey h
    apply hkeep foundKey (hinv.held other foundKey hbefore)
    rintro rfl
    exact hother (hinv.exclusive other c foundKey hbefore hholds)
  · intro other found foundKey hev hkey
    obtain ⟨hother, _⟩ := hback other foundKey (heldKey_of_unstartedKey hkey)
    simp only [set_ne s _ hother] at hev hkey
    exact hinv.fresh other found foundKey hev hkey
  · intro found hmem foundKey hkey
    apply hkeep foundKey (hinv.instanceKey found hmem foundKey hkey)
    rintro rfl
    -- the released key would be the key of an event that has an instance
    rw [hdistinct found ev _ (hinv.trustedInstance found hmem) htrusted hkey hown] at hmem
    exact hnew hmem
  · intro foundKey hmem
    obtain ⟨hold, hne⟩ := List.mem_filter.mp hmem
    rcases hinv.standsFor foundKey hold with ⟨other, hother⟩ | hsettled
    · left
      have hotherNe : other ≠ c := by
        rintro rfl
        have hheld := heldKey_of_unstartedKey (unstartedKey_of_pendingKey hother)
        rw [hholds] at hheld
        cases hheld
        simp at hne
      refine ⟨other, ?_⟩
      simp only [set_ne s _ hotherNe]
      exact hother
    · exact Or.inr hsettled
  · intro other found h
    by_cases hother : other = c
    · subst hother
      simp only [set_self] at h
      cases h
    · simp only [set_ne s _ hother] at h
      exact hinv.duplicatePhase other found h

/-- A consumer that keeps its event, its key and its unsettled work moves on. -/
theorem inv_advance (hinv : Inv trusted s) {phase : Phase}
    (hevent : phase.event = (s.phase c).event)
    (hheld : ∀ key, phase.heldKey = some key → (s.phase c).heldKey = some key)
    (hunstarted : ∀ key, phase.unstartedKey = some key → (s.phase c).unstartedKey = some key)
    (hpending : ∀ key, (s.phase c).pendingKey = some key → phase.pendingKey = some key)
    (hstarting : ∀ ev key, phase ≠ .starting ev key)
    (hduplicate : ∀ ev, phase ≠ .duplicate ev) : Inv trusted (s.set c phase) := by
  apply inv_set hinv
  · intro ev h
    exact hinv.trustedPhase c ev (hevent ▸ h)
  · intro ev key h
    exact absurd h (hstarting ev key)
  · intro key h
    exact ⟨hheld key h, hevent⟩
  · exact hunstarted
  · intro key h
    exact Or.inl (hpending key h)
  · intro ev h
    exact absurd h (hduplicate ev)

/-- The idempotency check: an unchecked event is started without a key, a new key
is taken, and a taken one makes the event a duplicate. -/
theorem inv_checkIdempotency {s' : State n} (hdistinct : KeysDistinct trusted)
    (hinv : Inv trusted s) (hsafe : Safe trusted s (.checkIdempotency c))
    (h : step s (.checkIdempotency c) = some s') : Inv trusted s' := by
  simp only [step] at h
  split at h
  · rename_i ev hphase
    have htrusted : trusted ev := hinv.trustedPhase c ev (by rw [hphase]; rfl)
    split at h
    · rename_i hkey
      cases h
      apply inv_set hinv
      · intro found hfound
        cases hfound
        exact htrusted
      · intro found key hfound
        cases hfound
        exact hkey.symm
      · intro key hheld
        cases hheld
      · intro key hheld
        cases hheld
      · intro key hpending
        rw [hphase] at hpending
        cases hpending
      · intro found hfound
        cases hfound
    · rename_i key hkey
      split at h
      · rename_i htaken
        cases h
        apply inv_set hinv
        · intro found hfound
          cases hfound
          exact htrusted
        · intro found key hfound
          cases hfound
        · intro key hheld
          cases hheld
        · intro key hheld
          cases hheld
        · intro key hpending
          rw [hphase] at hpending
          cases hpending
        · intro found hfound
          cases hfound
          -- no consumer works under the key, so it stands for a settled event
          rcases hinv.standsFor key htaken with ⟨other, hother⟩ | ⟨settled, hset, hkey', hsettled⟩
          · simp only [Safe, hphase] at hsafe
            exact absurd hother (hsafe key hkey htaken other)
          · rw [hdistinct ev settled key htrusted hset hkey hkey']
            exact hsettled
      · rename_i hnew
        cases h
        exact inv_takeKey hinv hphase hkey hnew
  · cases h

/-- The failure is recorded, or the audit write failed. -/
theorem inv_recordFailure (hinv : Inv trusted s) {key : Option Text} {outcome : Outcome}
    (hphase : s.phase c = .failing ev key outcome) (written : Bool) :
    Inv trusted { s.set c (.releasing ev key written) with
      failures := if written then (ev, outcome) :: s.failures else s.failures } := by
  cases written with
  | false =>
      apply inv_advance hinv
      · rw [hphase]
        rfl
      · intro found h
        rw [hphase]
        exact h
      · intro found h
        rw [hphase]
        exact h
      · intro found h
        rw [hphase] at h
        exact h
      · intro found found' h
        cases h
      · intro found h
        cases h
  | true =>
      have hrecorded := inv_failures hinv ((ev, outcome) :: s.failures) fun _ hmem =>
        List.mem_cons_of_mem _ hmem
      apply inv_set (s := { s with failures := (ev, outcome) :: s.failures }) hrecorded
      · intro found h
        cases h
        exact hinv.trustedPhase c ev (by rw [hphase]; rfl)
      · intro found found' h
        cases h
      · intro found h
        show (s.phase c).heldKey = some found ∧ _ = (s.phase c).event
        rw [hphase]
        exact ⟨h, rfl⟩
      · intro found h
        show (s.phase c).unstartedKey = some found
        rw [hphase]
        exact h
      · intro found h
        right
        have hheld := heldKey_of_unstartedKey (unstartedKey_of_pendingKey h)
        refine ⟨ev, ?_, ?_, Or.inr ⟨outcome, List.mem_cons_self⟩⟩
        · exact hinv.trustedPhase c ev (by rw [hphase]; rfl)
        · exact hinv.ownKey c ev found (by rw [hphase]; rfl) hheld
      · intro found h
        cases h

end Steps

/-! ## Runs -/

theorem inv_step {trusted : TriggerEvent → Prop} (hdistinct : KeysDistinct trusted)
    {s s' : State n} {e : Event n} (hinv : Inv trusted s) (hsafe : Safe trusted s e)
    (h : step s e = some s') : Inv trusted s' := by
  cases e with
  | deliver c ev =>
      simp only [step] at h
      split at h
      · rename_i hphase
        cases h
        apply inv_set hinv
        · intro found hfound
          cases hfound
          exact hsafe
        · intro found key hfound
          cases hfound
        · intro key hheld
          cases hheld
        · intro key hheld
          cases hheld
        · intro key hpending
          rw [hphase] at hpending
          cases hpending
        · intro found hfound
          cases hfound
      · cases h
  | checkIdempotency c => exact inv_checkIdempotency hdistinct hinv hsafe h
  | ackDuplicate c =>
      simp only [step] at h
      split at h
      · rename_i ev hphase
        cases h
        have hidle := inv_set_idle hinv (c := c) (by rw [hphase]; rfl)
        exact inv_duplicates hidle (hinv.duplicatePhase c ev hphase)
      · cases h
  | startFails c outcome =>
      simp only [step] at h
      split at h
      · rename_i ev key hphase
        cases h
        apply inv_advance hinv <;> simp [hphase, Phase.event, Phase.heldKey,
          Phase.unstartedKey, Phase.pendingKey]
      · cases h
  | startCommits c =>
      simp only [step] at h
      split at h
      · rename_i ev key hphase
        cases h
        exact inv_startCommits hinv hphase
      · cases h
  | ack c =>
      simp only [step] at h
      split at h
      · rename_i ev key hphase
        cases h
        apply inv_advance hinv <;> simp [hphase, Phase.event, Phase.heldKey,
          Phase.unstartedKey, Phase.pendingKey]
      · cases h
  | reply c =>
      simp only [step] at h
      split at h
      · rename_i ev key hphase
        cases h
        exact inv_set_idle hinv (by rw [hphase]; rfl)
      · cases h
  | raises c =>
      simp only [step] at h
      split at h
      · rename_i ev hphase
        cases h
        apply inv_advance hinv <;> simp [hphase, Phase.event, Phase.heldKey,
          Phase.unstartedKey, Phase.pendingKey]
      · rename_i ev hphase
        cases h
        apply inv_advance hinv <;> simp [hphase, Phase.event, Phase.heldKey,
          Phase.unstartedKey, Phase.pendingKey]
      · rename_i ev key hphase
        cases h
        cases key with
        | none =>
            apply inv_advance hinv <;> simp [hphase, Phase.event, Phase.heldKey,
              Phase.unstartedKey, Phase.pendingKey]
        | some key =>
            simp [Safe, hphase, Phase.committedKey] at hsafe
      · rename_i ev key hphase
        cases h
        cases key with
        | none =>
            apply inv_advance hinv <;> simp [hphase, Phase.event, Phase.heldKey,
              Phase.unstartedKey, Phase.pendingKey]
        | some key =>
            simp [Safe, hphase, Phase.committedKey] at hsafe
      · cases h
  | recordFailure c written =>
      simp only [step] at h
      split at h
      · rename_i ev key outcome hphase
        cases h
        exact inv_recordFailure hinv hphase written
      · cases h
  | release c =>
      simp only [step] at h
      split at h
      · rename_i ev recorded hphase
        cases h
        apply inv_advance hinv <;> cases recorded <;> simp [hphase, Phase.event,
          Phase.heldKey, Phase.unstartedKey, Phase.pendingKey]
      · rename_i ev key recorded hphase
        cases h
        exact inv_release hdistinct hinv hphase
      · cases h
  | discard c =>
      simp only [step] at h
      split at h
      · rename_i ev hphase
        cases h
        exact inv_set_idle hinv (by rw [hphase]; rfl)
      · cases h
  | crash c =>
      cases h
      exact inv_set_idle hinv hsafe

/-- In every state of a safe run, an event that is checked has at most one
instance, and every event acknowledged as a duplicate is settled. -/
theorem trigger_exactly_once {trusted : TriggerEvent → Prop} (hdistinct : KeysDistinct trusted)
    {es : List (Event n)} {t : State n} (hrun : Run step (Safe trusted) (State.start n) es t) :
    (∀ ev, ev.checked → t.instances.count ev ≤ 1) ∧ ∀ ev ∈ t.duplicates, Settled t ev := by
  have hinv : Inv trusted t := hrun.invariant (inv_start trusted) fun _ _ _ => inv_step hdistinct
  exact ⟨hinv.once, hinv.duplicates⟩

/-- Two deliveries of one event, one after the other: one instance, one duplicate. -/
theorem redelivery_is_duplicate :
    ∃ t : State 2, Run step (Safe fun ev => ev = orderPlaced) (State.start 2)
        [.deliver 0 orderPlaced, .checkIdempotency 0, .startCommits 0, .ack 0, .reply 0,
          .deliver 1 orderPlaced, .checkIdempotency 1, .ackDuplicate 1] t ∧
      t.duplicates = [orderPlaced] ∧ Settled t orderPlaced ∧
      t.instances.count orderPlaced ≤ 1 := by
  have hdistinct : KeysDistinct fun ev => ev = orderPlaced := by
    intro ev ev' key h h' _ _
    rw [h, h']
  have hrun : ∃ t : State 2, Run step (Safe fun ev => ev = orderPlaced) (State.start 2)
      [.deliver 0 orderPlaced, .checkIdempotency 0, .startCommits 0, .ack 0, .reply 0,
        .deliver 1 orderPlaced, .checkIdempotency 1, .ackDuplicate 1] t ∧
      t.duplicates = [orderPlaced] := run_of_exec_map (by decide)
  obtain ⟨t, hrun, hduplicates⟩ := hrun
  have honce := trigger_exactly_once hdistinct hrun
  refine ⟨t, hrun, hduplicates, ?_, ?_⟩
  · apply honce.2
    rw [hduplicates]
    exact List.mem_singleton_self _
  · exact honce.1 orderPlaced (by decide)

/-- A consumer crashes after it created the key: the redelivery is acknowledged as
a duplicate of an event that was never started.  An acknowledgement fails after
core's commit: the handler releases the key and the redelivery starts again. -/
theorem event_lost_or_doubled :
    (∃ t : State 1, Run step (fun _ _ => True) (State.start 1)
        [.deliver 0 orderPlaced, .checkIdempotency 0, .crash 0,
          .deliver 0 orderPlaced, .checkIdempotency 0, .ackDuplicate 0] t ∧
      (t.duplicates, t.instances, t.failures) = ([orderPlaced], [], [])) ∧
    ∃ t : State 1, Run step (fun _ _ => True) (State.start 1)
        [.deliver 0 orderPlaced, .checkIdempotency 0, .startCommits 0, .raises 0,
          .recordFailure 0 true, .release 0, .crash 0,
          .deliver 0 orderPlaced, .checkIdempotency 0, .startCommits 0] t ∧
      t.instances.count orderPlaced = 2 :=
  ⟨run_of_exec_map (by decide), run_of_exec_map (by decide)⟩

end M8flow.Nats
