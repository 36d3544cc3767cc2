import M8flow.Auth.Membership
import M8flow.Lib.Run
import Mathlib.Logic.Function.Basic

/-!
# The membership cache

`integrations/auth/core/cache.py`, with `directory_memberships`, `invalidate` and
`directory_admin` of `core/service.py`.  Calls of `get_or_load`, invalidations and
directory writes run in threads of one process; what a thread does under the lock
of the cache is one step.

A loaded value carries the call that loaded it, the key it was loaded for, and the
step and the clock at which its loader was called.

- `inv_step` is what one step keeps, `inv_run` what a run keeps;
- `cache_safe` says which values a finished call can have returned, and that a
  finished membership write has invalidated its user.
-/

namespace M8flow.Auth.MembershipCache

open M8flow.Lib

/-! ## Keys, times and writes -/

/-- `AuthService.membership_cache_scope`; `hook` is the provider's own, if it has one. -/
def membershipCacheScope (hook : Option (Option Text → Option Text)) (issuer : Option Text) :
    Option Text :=
  match hook with
  | some scope => nonblank (scope issuer)
  | none => nonblank issuer

/-- The scope and the username with which `AuthService.directory_memberships` asks the
cache, if it asks it. -/
def cacheKey (hook : Option (Option Text → Option Text)) (username : Text)
    (issuer : Option Text) (useCache : Bool) : Option (Text × Text) :=
  match nonblank (some username) with
  | none => none
  | some cleaned =>
      if useCache then (membershipCacheScope hook issuer).map fun scope => (scope, cleaned)
      else none

/-- `_MEMBERSHIP_WRITES`. -/
def membershipWrites : List String :=
  ["add_member", "remove_member", "add_group_member", "remove_group_member", "assign_roles",
    "remove_roles", "set_group_roles", "rename_group", "delete_group", "delete_user",
    "delete_tenant"]

/-- What `InvalidatingDirectoryAdmin` invalidates after a write: `kwargs.get("username") or
None`, stripped by `AuthService.invalidate`. -/
def writeTarget (username : Option Text) : Option Text := (truthy username).map Text.strip

/-- An invalidation of `target` is one of the user, or of everyone. -/
def Covers (target : Option Text) (username : Text) : Prop :=
  target = none ∨ target = some username

instance (target : Option Text) (username : Text) : Decidable (Covers target username) := by
  unfold Covers
  infer_instance

/-- A write that names a user, with whatever white space, invalidates the key under which
lookups of that user are cached. -/
theorem covers_cacheKey {hook : Option (Option Text → Option Text)} {username written : Text}
    {issuer : Option Text} {useCache : Bool} {key : Text × Text}
    (h : cacheKey hook username issuer useCache = some key)
    (hwritten : written.strip = username.strip) : Covers (writeTarget (some written)) key.2 := by
  unfold cacheKey at h
  cases hclean : nonblank (some username) with
  | none => simp [hclean] at h
  | some cleaned =>
      obtain ⟨given, hgiven, hstrip, hne⟩ := nonblank_eq_some.mp hclean
      cases hgiven
      rw [hclean] at h
      have hkey : key.2 = cleaned := by
        simp only [Option.ite_none_right_eq_some, Option.map_eq_some_iff] at h
        obtain ⟨_, scope, _, rfl⟩ := h
        rfl
      have hnonempty : written ≠ [] := by
        intro hnil
        rw [hnil, Text.strip_nil] at hwritten
        exact hne (hstrip ▸ hwritten.symm)
      right
      have htruthy : truthy (some written) = some written := truthy_eq_some.mpr ⟨rfl, hnonempty⟩
      rw [writeTarget, htruthy, Option.map_some, hkey, hwritten, hstrip]

/-! ## The cache -/

/-- The memberships that a loader returned, with where they come from. -/
structure Loaded where
  memberships : List Membership
  loader : Nat
  scope : Text
  username : Text
  ttl : Int
  startedAt : Nat
  startedTime : Int
  deriving DecidableEq

/-- An entry: when it expires, and the value. -/
structure Entry where
  expires : Int
  value : Loaded
  deriving DecidableEq

/-- `_entries`. -/
abbrev Entries := Text × Text → Option Entry

/-- `_prune_expired`. -/
def pruneExpired (now : Int) (entries : Entries) : Entries :=
  fun key => (entries key).filter fun entry => now < entry.expires

/-- The entries after `invalidate`. -/
def dropped (target : Option Text) (entries : Entries) : Entries :=
  fun key => if Covers target key.2 then none else entries key

/-- A call of `get_or_load`; `now` is its reading of the clock. -/
structure Call where
  scope : Text
  username : Text
  ttl : Int
  now : Int
  begunAt : Nat
  deriving DecidableEq

/-- How far a call is.  The generation is what a caching call read under the lock; a call
without a positive ttl has none. -/
inductive Phase where
  | idle
  | begun (call : Call)
  | missed (call : Call) (generation : Option Nat)
  | loading (call : Call) (generation : Option Nat) (startedAt : Nat) (startedTime : Int)
  | loaded (call : Call) (generation : Option Nat) (value : Loaded)
  | returning (call : Call) (cached : Bool) (value : Loaded)
  | returned (call : Call) (cached : Bool) (value : Loaded) (time : Int)
  | raised (call : Call)
  deriving DecidableEq

/-- A write through `InvalidatingDirectoryAdmin`. -/
inductive WritePhase where
  | idle
  | writing (method : String) (username : Option Text) (startedAt : Nat)
  | finished (method : String) (username : Option Text) (startedAt : Nat) (raised : Bool)
  deriving DecidableEq

/-- The process: the clock, the cache, and the threads.  The number of steps and the
invalidations, with the step of each, are kept for the statements only. -/
structure State where
  clock : Int
  entries : Entries
  generation : Nat
  calls : Nat → Phase
  writes : Nat → WritePhase
  steps : Nat
  invalidations : List (Nat × Option Text)

/-- A process that has done nothing yet. -/
def State.start (clock : Int) : State :=
  { clock, entries := fun _ => none, generation := 0, calls := fun _ => .idle,
    writes := fun _ => .idle, steps := 0, invalidations := [] }

/-- A call or a write of one thread does its next step, the clock moves, or something
else of the host invalidates. -/
inductive Event where
  | tick (clock : Int)
  | begin (c : Nat) (scope username : Text) (ttl : Int)
  | lookup (c : Nat)
  | load (c : Nat)
  | loaderReturns (c : Nat) (memberships : List Membership)
  | loaderRaises (c : Nat)
  | store (c : Nat)
  | finish (c : Nat)
  | invalidate (target : Option Text)
  | beginWrite (w : Nat) (method : String) (username : Option Text)
  | endWrite (w : Nat) (raised : Bool)

/-- The state with another phase of a call. -/
def State.setCall (s : State) (c : Nat) (phase : Phase) : State :=
  { s with calls := Function.update s.calls c phase }

def State.setWrite (s : State) (w : Nat) (phase : WritePhase) : State :=
  { s with writes := Function.update s.writes w phase }

/-- `MembershipCache.invalidate`. -/
def State.invalidate (s : State) (target : Option Text) : State :=
  { s with
    generation := s.generation + 1
    entries := dropped target s.entries
    invalidations := (s.steps, target) :: s.invalidations }

/-- The first locked part of `get_or_load`: a hit, or the generation for the load. -/
def State.lookup (s : State) (call : Call) : Phase :=
  match s.entries (call.scope, call.username) with
  | some entry =>
      if call.now < entry.expires then .returning call true entry.value
      else .missed call (some s.generation)
  | none => .missed call (some s.generation)

/-- The entries after the second locked part of `get_or_load`. -/
def State.stored (s : State) (call : Call) (generation : Nat) (value : Loaded) : Entries :=
  if s.generation = generation then
    Function.update (pruneExpired call.now s.entries) (call.scope, call.username)
      (some ⟨call.now + call.ttl, value⟩)
  else s.entries

/-- What an event does, without the count of steps. -/
def State.apply (s : State) : Event → Option State
  | .tick clock => if s.clock ≤ clock then some { s with clock } else none
  | .begin c scope username ttl =>
      match s.calls c with
      | .idle =>
          let call : Call := ⟨scope, username, ttl, s.clock, s.steps⟩
          some (s.setCall c (if ttl ≤ 0 then .missed call none else .begun call))
      | _ => none
  | .lookup c =>
      match s.calls c with
      | .begun call => some (s.setCall c (s.lookup call))
      | _ => none
  | .load c =>
      match s.calls c with
      | .missed call generation =>
          some (s.setCall c (.loading call generation s.steps s.clock))
      | _ => none
  | .loaderReturns c memberships =>
      match s.calls c with
      | .loading call generation startedAt startedTime =>
          some (s.setCall c (.loaded call generation
            ⟨memberships, c, call.scope, call.username, call.ttl, startedAt, startedTime⟩))
      | _ => none
  | .loaderRaises c =>
      match s.calls c with
      | .loading call _ _ _ => some (s.setCall c (.raised call))
      | _ => none
  | .store c =>
      match s.calls c with
      | .loaded call (some generation) value =>
          some ({ s with entries := s.stored call generation value }.setCall c
            (.returning call false value))
      | .loaded call none value => some (s.setCall c (.returning call false value))
      | _ => none
  | .finish c =>
      match s.calls c with
      | .returning call cached value => some (s.setCall c (.returned call cached value s.clock))
      | _ => none
  | .invalidate target => some (s.invalidate target)
  | .beginWrite w method username =>
      match s.writes w with
      | .idle => some (s.setWrite w (.writing method username s.steps))
      | _ => none
  | .endWrite w raised =>
      match s.writes w with
      | .writing method username startedAt =>
          let s := if method ∈ membershipWrites then s.invalidate (writeTarget username) else s
          some (s.setWrite w (.finished method username startedAt raised))
      | _ => none

/-- One step of the process. -/
def step (s : State) (e : Event) : Option State :=
  (s.apply e).map fun t => { t with steps := s.steps + 1 }

/-! ## The invariant -/

/-- A call that has read the clock and has begun. -/
def Begun (s : State) (call : Call) : Prop := call.now ≤ s.clock ∧ call.begunAt ≤ s.steps

/-- No invalidation came after the load began, if the generation is still the same. -/
def Current (s : State) (generation : Option Nat) (startedAt : Nat) : Prop :=
  ∀ n, generation = some n → n ≤ s.generation ∧
    (n = s.generation → ∀ p ∈ s.invalidations, p.1 < startedAt)

/-- The value is of the call's own key. -/
structure OfKey (scope username : Text) (value : Loaded) : Prop where
  scope : value.scope = scope
  username : value.username = username

/-- The call loaded the value itself. -/
structure Own (c : Nat) (call : Call) (value : Loaded) : Prop where
  loader : value.loader = c
  key : OfKey call.scope call.username value
  ttl : value.ttl = call.ttl
  startedAt : call.begunAt ≤ value.startedAt
  startedTime : call.now ≤ value.startedTime

/-- What holds of a value that a call returns. -/
structure Result (s : State) (c : Nat) (call : Call) (cached : Bool) (value : Loaded) :
    Prop where
  key : OfKey call.scope call.username value
  /-- Every invalidation of the user before the call began came before the load began. -/
  fresh : ∀ p ∈ s.invalidations, Covers p.2 call.username → p.1 < call.begunAt →
    p.1 < value.startedAt
  own : cached = false → value.loader = c
  age : cached = true → call.now < value.startedTime + value.ttl

/-- What holds of a call in each phase. -/
def PhaseInv (s : State) (c : Nat) : Phase → Prop
  | .idle => True
  | .begun call => Begun s call
  | .missed call generation => Begun s call ∧ ∀ n, generation = some n → n ≤ s.generation
  | .loading call generation startedAt startedTime =>
      Begun s call ∧ call.begunAt ≤ startedAt ∧ call.now ≤ startedTime ∧
        Current s generation startedAt
  | .loaded call generation value =>
      Begun s call ∧ Own c call value ∧ Current s generation value.startedAt
  | .returning call cached value => Begun s call ∧ Result s c call cached value
  | .returned call cached value _ => Begun s call ∧ Result s c call cached value
  | .raised _ => True

/-- A finished membership write has invalidated its target. -/
def WriteInv (s : State) : WritePhase → Prop
  | .idle => True
  | .writing _ _ startedAt => startedAt ≤ s.steps
  | .finished method username startedAt _ => method ∈ membershipWrites →
      ∃ p ∈ s.invalidations, startedAt ≤ p.1 ∧ p.2 = writeTarget username

/-- What holds of an entry. -/
structure EntryInv (s : State) (key : Text × Text) (entry : Entry) : Prop where
  ofKey : OfKey key.1 key.2 entry.value
  fresh : ∀ p ∈ s.invalidations, Covers p.2 key.2 → p.1 < entry.value.startedAt
  age : entry.expires ≤ entry.value.startedTime + entry.value.ttl

/-- What holds in every state of a run. -/
structure Inv (s : State) : Prop where
  past : ∀ p ∈ s.invalidations, p.1 < s.steps
  calls : ∀ c, PhaseInv s c (s.calls c)
  writes : ∀ w, WriteInv s (s.writes w)
  entries : ∀ key entry, s.entries key = some entry → EntryInv s key entry

theorem inv_start (clock : Int) : Inv (State.start clock) where
  past _ h := by cases h
  calls _ := trivial
  writes _ := trivial
  entries _ _ h := by cases h

/-- What a step can do to what the invariant looks at: time goes on, and an invalidation
comes with a new generation. -/
structure Later (s t : State) : Prop where
  clock : s.clock ≤ t.clock
  steps : s.steps ≤ t.steps
  generation : s.generation ≤ t.generation
  same : t.generation = s.generation → t.invalidations = s.invalidations
  old : ∀ p ∈ s.invalidations, p ∈ t.invalidations
  recent : ∀ p ∈ t.invalidations, p ∈ s.invalidations ∨ s.steps ≤ p.1

theorem Begun.later {s t : State} {call : Call} (h : Begun s call) (hlater : Later s t) :
    Begun t call :=
  ⟨Int.le_trans h.1 hlater.clock, Nat.le_trans h.2 hlater.steps⟩

theorem Current.later {s t : State} {generation : Option Nat} {startedAt : Nat}
    (h : Current s generation startedAt) (hlater : Later s t) :
    Current t generation startedAt := by
  intro n hn
  obtain ⟨hle, hbefore⟩ := h n hn
  refine ⟨Nat.le_trans hle hlater.generation, ?_⟩
  intro heq
  have hgeneration := hlater.generation
  have hsame : t.generation = s.generation := by omega
  rw [hlater.same hsame]
  exact hbefore (heq.trans hsame)

theorem Result.later {s t : State} {c : Nat} {call : Call} {cached : Bool} {value : Loaded}
    (h : Result s c call cached value) (hbegun : Begun s call) (hlater : Later s t) :
    Result t c call cached value where
  key := h.key
  fresh := by
    intro p hp hcovers hbefore
    rcases hlater.recent p hp with hold | hrecent
    · exact h.fresh p hold hcovers hbefore
    · have hsteps := hbegun.2
      omega
  own := h.own
  age := h.age

/-- What holds of a call goes on holding. -/
theorem phaseInv_later {s t : State} {c : Nat} {phase : Phase} (h : PhaseInv s c phase)
    (hlater : Later s t) : PhaseInv t c phase := by
  cases phase with
  | idle => trivial
  | begun call => exact Begun.later h hlater
  | missed call generation =>
      exact ⟨h.1.later hlater, fun n hn => Nat.le_trans (h.2 n hn) hlater.generation⟩
  | loading call generation startedAt startedTime =>
      obtain ⟨hbegun, hstarted, htime, hcurrent⟩ := h
      exact ⟨hbegun.later hlater, hstarted, htime, hcurrent.later hlater⟩
  | loaded call generation value =>
      exact ⟨h.1.later hlater, h.2.1, h.2.2.later hlater⟩
  | returning call cached value => exact ⟨h.1.later hlater, h.2.later h.1 hlater⟩
  | returned call cached value time => exact ⟨h.1.later hlater, h.2.later h.1 hlater⟩
  | raised call => trivial

theorem writeInv_later {s t : State} {phase : WritePhase} (h : WriteInv s phase)
    (hlater : Later s t) : WriteInv t phase := by
  cases phase with
  | idle => trivial
  | writing method username startedAt => exact Nat.le_trans h hlater.steps
  | finished method username startedAt raised =>
      intro hmethod
      obtain ⟨p, hp, hstarted, htarget⟩ := h hmethod
      exact ⟨p, hlater.old p hp, hstarted, htarget⟩

/-! ## One step -/

/-- States that differ in what the invariant of a thread does not look at. -/
theorem later_of_same {s t : State} (hclock : s.clock ≤ t.clock) (hsteps : s.steps ≤ t.steps)
    (hgeneration : t.generation = s.generation) (hsame : t.invalidations = s.invalidations) :
    Later s t where
  clock := hclock
  steps := hsteps
  generation := Nat.le_of_eq hgeneration.symm
  same _ := hsame
  old p hp := by
    rw [hsame]
    exact hp
  recent p hp := .inl (hsame ▸ hp)

/-- A step keeps the invariant if it keeps that of the phases and entries it changes. -/
theorem Inv.later {s t : State} (hinv : Inv s) (hlater : Later s t)
    (hpast : ∀ p ∈ t.invalidations, p.1 < t.steps)
    (hcalls : ∀ c, t.calls c = s.calls c ∨ PhaseInv s c (t.calls c))
    (hwrites : ∀ w, t.writes w = s.writes w ∨ WriteInv s (t.writes w))
    (hentries : ∀ key entry, t.entries key = some entry → EntryInv t key entry) : Inv t where
  past := hpast
  calls c := by
    apply phaseInv_later _ hlater
    rcases hcalls c with hsame | hnew
    · rw [hsame]
      exact hinv.calls c
    · exact hnew
  writes w := by
    apply writeInv_later _ hlater
    rcases hwrites w with hsame | hnew
    · rw [hsame]
      exact hinv.writes w
    · exact hnew
  entries := hentries

theorem EntryInv.of_same {s t : State} {key : Text × Text} {entry : Entry}
    (h : EntryInv s key entry) (hsame : t.invalidations = s.invalidations) :
    EntryInv t key entry :=
  ⟨h.ofKey, fun p hp => h.fresh p (hsame ▸ hp), h.age⟩

/-- Time goes on. -/
theorem inv_tick {s : State} (hinv : Inv s) {clock : Int} (hclock : s.clock ≤ clock) :
    Inv { s with clock, steps := s.steps + 1 } := by
  refine hinv.later (later_of_same hclock (Nat.le_succ _) rfl rfl) ?_ (fun c => .inl rfl)
    (fun w => .inl rfl) ?_
  · intro p hp
    exact Nat.lt_succ_of_lt (hinv.past p hp)
  · exact fun key entry hentry => (hinv.entries key entry hentry).of_same rfl

/-- A call goes to a phase whose invariant holds. -/
theorem inv_setCall {s : State} (hinv : Inv s) {c : Nat} {phase : Phase}
    (hphase : PhaseInv s c phase) : Inv (s.setCall c phase) := by
  refine hinv.later (later_of_same (Int.le_refl _) (Nat.le_refl _) rfl rfl) hinv.past ?_
    (fun w => .inl rfl) ?_
  · intro other
    by_cases hother : other = c
    · right
      have hself : (s.setCall c phase).calls c = phase := Function.update_self _ _ _
      rw [hother, hself]
      exact hphase
    · left
      exact Function.update_of_ne hother phase s.calls
  · exact fun key entry hentry => (hinv.entries key entry hentry).of_same rfl

theorem inv_setWrite {s : State} (hinv : Inv s) {w : Nat} {phase : WritePhase}
    (hphase : WriteInv s phase) : Inv (s.setWrite w phase) := by
  refine hinv.later (later_of_same (Int.le_refl _) (Nat.le_refl _) rfl rfl) hinv.past
    (fun c => .inl rfl) ?_ ?_
  · intro other
    by_cases hother : other = w
    · right
      have hself : (s.setWrite w phase).writes w = phase := Function.update_self _ _ _
      rw [hother, hself]
      exact hphase
    · left
      exact Function.update_of_ne hother phase s.writes
  · exact fun key entry hentry => (hinv.entries key entry hentry).of_same rfl

/-- After an invalidation no entry is left that it covers. -/
theorem inv_invalidate {s : State} (hinv : Inv s) (target : Option Text) :
    Inv { s.invalidate target with steps := s.steps + 1 } := by
  refine hinv.later ⟨Int.le_refl _, Nat.le_succ _, Nat.le_succ _, ?_, ?_, ?_⟩ ?_
    (fun c => .inl rfl) (fun w => .inl rfl) ?_
  · intro hgeneration
    have hne : s.generation + 1 = s.generation := hgeneration
    omega
  · exact fun p hp => List.mem_cons_of_mem _ hp
  · intro p hp
    rcases List.mem_cons.mp hp with rfl | hold
    · exact .inr (Nat.le_refl _)
    · exact .inl hold
  · intro p hp
    rcases List.mem_cons.mp hp with rfl | hold
    · exact Nat.lt_succ_self _
    · exact Nat.lt_succ_of_lt (hinv.past p hold)
  · intro key entry hentry
    have hentry : dropped target s.entries key = some entry := hentry
    unfold dropped at hentry
    split at hentry
    · cases hentry
    · rename_i hcovers
      obtain ⟨hkey, hfresh, hage⟩ := hinv.entries key entry hentry
      refine ⟨hkey, ?_, hage⟩
      intro p hp hp'
      rcases List.mem_cons.mp hp with rfl | hold
      · exact absurd hp' hcovers
      · exact hfresh p hold hp'

/-- A value is stored only if nothing was invalidated since its load began. -/
theorem inv_store {s : State} (hinv : Inv s) {c : Nat} {call : Call} {generation : Nat}
    {value : Loaded} (hown : Own c call value)
    (hcurrent : Current s (some generation) value.startedAt) :
    Inv { s with entries := s.stored call generation value } := by
  refine hinv.later (later_of_same (Int.le_refl _) (Nat.le_refl _) rfl rfl) hinv.past
    (fun c => .inl rfl) (fun w => .inl rfl) ?_
  intro key entry hentry
  have hentry : s.stored call generation value key = some entry := hentry
  unfold State.stored at hentry
  split at hentry
  · rename_i hgeneration
    by_cases hkey : key = (call.scope, call.username)
    · rw [hkey, Function.update_self] at hentry
      cases hentry
      have hbefore := (hcurrent generation rfl).2 hgeneration.symm
      have htime := hown.startedTime
      have httl := hown.ttl
      refine ⟨hkey ▸ hown.key, fun p hp _ => hbefore p hp, ?_⟩
      show call.now + call.ttl ≤ value.startedTime + value.ttl
      omega
    · rw [Function.update_of_ne hkey] at hentry
      exact (hinv.entries key entry (Option.filter_eq_some_iff.mp hentry).1).of_same rfl
  · exact (hinv.entries key entry hentry).of_same rfl

/-- What a lookup answers. -/
theorem phaseInv_lookup {s : State} (hinv : Inv s) (c : Nat) {call : Call} (h : Begun s call) :
    PhaseInv s c (s.lookup call) := by
  have hmissed : PhaseInv s c (.missed call (some s.generation)) := by
    refine ⟨h, ?_⟩
    intro n hn
    cases hn
    exact Nat.le_refl _
  unfold State.lookup
  split
  · rename_i entry hentry
    split
    · rename_i hfresh
      have hvalue := hinv.entries _ _ hentry
      refine ⟨h, hvalue.ofKey, ?_, ?_, ?_⟩
      · intro p hp hcovers _
        exact hvalue.fresh p hp hcovers
      · intro hcached
        cases hcached
      · intro _
        have hage := hvalue.age
        omega
    · exact hmissed
  · exact hmissed

/-- A value that the call loaded itself is fresh, whether or not it is stored. -/
theorem phaseInv_own {s : State} {c : Nat} {call : Call} {value : Loaded} (h : Begun s call)
    (hown : Own c call value) : PhaseInv s c (.returning call false value) := by
  refine ⟨h, hown.key, ?_, fun _ => hown.loader, ?_⟩
  · intro p _ _ hbefore
    have hstarted := hown.startedAt
    omega
  · intro hcached
    cases hcached

/-- What one step of any thread keeps. -/
theorem inv_step {s t : State} {e : Event} (hinv : Inv s) (h : step s e = some t) : Inv t := by
  obtain ⟨u, hu, rfl⟩ := Option.map_eq_some_iff.mp h
  have hcount : Inv { s with steps := s.steps + 1 } := inv_tick hinv (Int.le_refl _)
  have hlater : Later s { s with steps := s.steps + 1 } :=
    later_of_same (Int.le_refl _) (Nat.le_succ _) rfl rfl
  cases e with
  | tick clock =>
      simp only [State.apply, Option.ite_none_right_eq_some, Option.some.injEq] at hu
      obtain ⟨hclock, rfl⟩ := hu
      exact inv_tick hinv hclock
  | begin c scope username ttl =>
      simp only [State.apply] at hu
      split at hu
      · cases hu
        have hbegun : Begun { s with steps := s.steps + 1 }
            ⟨scope, username, ttl, s.clock, s.steps⟩ := ⟨Int.le_refl _, Nat.le_succ _⟩
        apply inv_setCall hcount
        split
        · refine ⟨hbegun, ?_⟩
          intro n hn
          cases hn
        · exact hbegun
      · cases hu
  | lookup c =>
      simp only [State.apply] at hu
      split at hu
      · rename_i call hphase
        cases hu
        have hcall := hinv.calls c
        rw [hphase] at hcall
        exact inv_setCall hcount (phaseInv_later (phaseInv_lookup hinv c hcall) hlater)
      · cases hu
  | load c =>
      simp only [State.apply] at hu
      split at hu
      · rename_i call generation hphase
        cases hu
        have hcall := hinv.calls c
        rw [hphase] at hcall
        obtain ⟨hbegun, hgeneration⟩ := hcall
        apply inv_setCall hcount
        refine ⟨hbegun.later hlater, hbegun.2, hbegun.1, ?_⟩
        intro n hn
        exact ⟨hgeneration n hn, fun _ p hp => hinv.past p hp⟩
      · cases hu
  | loaderReturns c memberships =>
      simp only [State.apply] at hu
      split at hu
      · rename_i call generation startedAt startedTime hphase
        cases hu
        have hcall := hinv.calls c
        rw [hphase] at hcall
        obtain ⟨hbegun, hstarted, htime, hcurrent⟩ := hcall
        apply inv_setCall hcount
        exact ⟨hbegun.later hlater, ⟨rfl, ⟨rfl, rfl⟩, rfl, hstarted, htime⟩,
          hcurrent.later hlater⟩
      · cases hu
  | loaderRaises c =>
      simp only [State.apply] at hu
      split at hu
      · cases hu
        exact inv_setCall hcount trivial
      · cases hu
  | store c =>
      simp only [State.apply] at hu
      split at hu
      · rename_i call generation value hphase
        cases hu
        have hcall := hinv.calls c
        rw [hphase] at hcall
        obtain ⟨hbegun, hown, hcurrent⟩ := hcall
        have hstored := inv_store hinv hown hcurrent
        have hphase' : PhaseInv { s with entries := s.stored call generation value } c
            (.returning call false value) := phaseInv_own hbegun hown
        exact inv_tick (inv_setCall hstored hphase') (Int.le_refl _)
      · rename_i call value hphase
        cases hu
        have hcall := hinv.calls c
        rw [hphase] at hcall
        exact inv_setCall hcount (phaseInv_later (phaseInv_own hcall.1 hcall.2.1) hlater)
      · cases hu
  | finish c =>
      simp only [State.apply] at hu
      split at hu
      · rename_i call cached value hphase
        cases hu
        have hcall := hinv.calls c
        rw [hphase] at hcall
        apply inv_setCall hcount
        exact ⟨hcall.1.later hlater, hcall.2.later hcall.1 hlater⟩
      · cases hu
  | invalidate target =>
      simp only [State.apply, Option.some.injEq] at hu
      subst hu
      exact inv_invalidate hinv target
  | beginWrite w method username =>
      simp only [State.apply] at hu
      split at hu
      · cases hu
        exact inv_setWrite hcount (Nat.le_succ _)
      · cases hu
  | endWrite w raised =>
      simp only [State.apply] at hu
      split at hu
      · rename_i method username startedAt hphase
        cases hu
        have hwrite := hinv.writes w
        rw [hphase] at hwrite
        split
        · have hinvalidated := inv_invalidate hinv (writeTarget username)
          apply inv_setWrite hinvalidated
          exact fun _ => ⟨_, List.mem_cons_self, hwrite, rfl⟩
        · rename_i hmethod
          apply inv_setWrite hcount
          exact fun h => absurd h hmethod
      · cases hu

/-- What a run keeps. -/
theorem inv_run {s t : State} {es : List Event}
    (hrun : Run step (fun _ _ => True) s es t) (hinv : Inv s) : Inv t :=
  hrun.invariant hinv fun _ _ _ hinv _ hstep => inv_step hinv hstep

/-- Whatever the interleaving, every value that a call has returned is of the call's scope
and user; no invalidation that covers the user lies between the beginning of its load and
the beginning of the call; a value that is not from the cache was loaded by the call, and a
cached one was looked up, by the clock of the call, less than its ttl after its load began.
Every finished membership write, raised or not, has invalidated its user or everyone. -/
theorem cache_safe {clock : Int} {es : List Event} {s : State}
    (hrun : Run step (fun _ _ => True) (State.start clock) es s) :
    (∀ c call cached value time, s.calls c = .returned call cached value time →
      value.scope = call.scope ∧ value.username = call.username ∧
      (∀ i target, (i, target) ∈ s.invalidations → Covers target call.username →
        ¬ (value.startedAt ≤ i ∧ i < call.begunAt)) ∧
      (cached = false → value.loader = c) ∧
      (cached = true → call.now < value.startedTime + value.ttl)) ∧
    (∀ w method username startedAt raised,
      s.writes w = .finished method username startedAt raised → method ∈ membershipWrites →
      ∃ i target, (i, target) ∈ s.invalidations ∧ startedAt ≤ i ∧
        target = writeTarget username) := by
  have hinv := inv_run hrun (inv_start clock)
  constructor
  · intro c call cached value time hphase
    have hcall := hinv.calls c
    rw [hphase] at hcall
    obtain ⟨_, hkey, hfresh, hown, hage⟩ := hcall
    refine ⟨hkey.scope, hkey.username, ?_, hown, hage⟩
    intro i target hmem hcovers hbetween
    have hbefore : i < value.startedAt := hfresh (i, target) hmem hcovers hbetween.2
    omega
  · intro w method username startedAt raised hphase hmethod
    have hwrite := hinv.writes w
    rw [hphase] at hwrite
    obtain ⟨p, hp, hstarted, htarget⟩ := hwrite hmethod
    exact ⟨p.1, p.2, hp, hstarted, htarget⟩

/-! ## Runs -/

/-- The steps of a call that misses, whose loader takes until the given time. -/
def missingCall (c : Nat) (done : Int) : List Event :=
  [.begin c ['s'] ['u'] 10, .lookup c, .load c, .tick done, .loaderReturns c [], .store c,
    .finish c]

/-- The value that a call in `missingCall` loads. -/
def slowValue (startedAt : Nat) (startedTime : Int) : Loaded :=
  ⟨[], 0, ['s'], ['u'], 10, startedAt, startedTime⟩

/-- A second call is served from the cache, and a write that raises has invalidated. -/
theorem cache_safe_hit :
    ∃ s : State,
      s.calls 1 = .returned ⟨['s'], ['u'], 10, 3, 7⟩ true (slowValue 2 0) 3 ∧
      (3 : Int) < (slowValue 2 0).startedTime + (slowValue 2 0).ttl ∧
      ∃ i target, (i, target) ∈ s.invalidations ∧ 10 ≤ i ∧ target = some ['u'] := by
  have hexec : (exec step (fun _ _ => True) (State.start 0)
      (missingCall 0 3 ++ [.begin 1 ['s'] ['u'] 10, .lookup 1, .finish 1,
        .beginWrite 0 "add_member" (some [' ', 'u']), .endWrite 0 true])).map
      (fun s => (s.calls 1, s.writes 0)) =
      some (.returned ⟨['s'], ['u'], 10, 3, 7⟩ true (slowValue 2 0) 3,
        .finished "add_member" (some [' ', 'u']) 10 true) := by decide +kernel
  obtain ⟨s, hrun, hvalue⟩ := run_of_exec_map hexec
  obtain ⟨hcall, hwrite⟩ := Prod.mk.inj hvalue
  obtain ⟨hcalls, hwrites⟩ := cache_safe hrun
  refine ⟨s, hcall, (hcalls 1 _ _ _ _ hcall).2.2.2.2 rfl, ?_⟩
  obtain ⟨i, target, hmem, hstarted, htarget⟩ := hwrites 0 _ _ _ _ hwrite (by decide)
  exact ⟨i, target, hmem, hstarted, htarget.trans (by decide)⟩

/-- A call whose loader takes longer than the ttl returns its value later than the ttl after
the loader was called. -/
theorem slow_load_outlives_ttl :
    ∃ es s, Run step (fun _ _ => True) (State.start 0) es s ∧
      ∃ call value time, s.calls 0 = .returned call false value time ∧
        value.startedTime + value.ttl < time := by
  have hexec : (exec step (fun _ _ => True) (State.start 0) (missingCall 0 20)).map
      (fun s => s.calls 0) =
      some (.returned ⟨['s'], ['u'], 10, 0, 0⟩ false (slowValue 2 0) 20) := by decide +kernel
  obtain ⟨s, hrun, hcall⟩ := run_of_exec_map hexec
  exact ⟨_, s, hrun, _, _, _, hcall, by decide⟩

end M8flow.Auth.MembershipCache
