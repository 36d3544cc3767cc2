import M8flow.Nats.Audit
import Mathlib.Data.List.Count

/-!
# What the audit trail keeps

The overwrite rule and the counter are evaluated on the row as it was looked up,
and written to the row as it is by then.

- `stays_iff` is the exact condition under which a commit leaves an instantiated
  row alone; `instantiated_is_final` carries it over runs.
- `tight_step` is the exact condition under which a step keeps the counter of an
  event equal to the duplicates recorded for it; `duplicate_count_iff` carries it
  over runs, in both directions.
-/

namespace M8flow.Nats.Audit

open M8flow.Lib

variable {n : Nat}

/-- Every step is allowed. -/
def Any (_ : State n) (_ : Event n) : Prop := True

instance (s : State n) (e : Event n) : Decidable (Any s e) := inferInstanceAs (Decidable True)

/-! ## The invariant -/

/-- The ids and keys of the committed rows. -/
def State.index (s : State n) : List (Nat × Key) := s.rows.map fun row => (row.id, row.key)

/-- The call of a transaction and the row that it has loaded. -/
def Phase.held : Phase → Option (Call × Row)
  | .looked call (some row) => some (call, row)
  | .written call (.update loaded _) => some (call, loaded)
  | _ => none

/-- The write is what the call leaves in its session; one that changes no column issues
no statement. -/
def Call.leaves (call : Call) (write : Write) : Prop :=
  (∃ found, call.write found = write) ∨
    write = .nothing ∧ ∃ row, call.write (some row) = .update row row

/-- What holds in every state. -/
structure Inv (s : State n) : Prop where
  ids : (s.index.map Prod.fst).Nodup
  below : ∀ p ∈ s.index, p.1 < s.nextId
  keys : ∀ p ∈ s.index, ∀ q ∈ s.index, p.2.constrained → q.2 = p.2 → q = p
  held : ∀ c call row, (s.phase c).held = some (call, row) →
    (row.id, row.key) ∈ s.index ∧ row.key = call.message.key ∧ row.key.constrained
  wrote : ∀ c call write, s.phase c = .written call write → call.leaves write
  fresh : ∀ c key, (s.phase c).insertedKey = some key → ∀ p ∈ s.index, p.2 ≠ key
  exclusive : ∀ c c' key, (s.phase c).insertedKey = some key →
    (s.phase c').insertedKey = some key → c = c'

theorem inv_start : Inv (State.start n) where
  ids := List.nodup_nil
  below _ h := by cases h
  keys _ h := by cases h
  held _ _ _ h := by cases h
  wrote _ _ _ h := by cases h
  fresh _ _ h := by cases h
  exclusive _ _ _ h := by cases h

theorem constrained_of_insertedKey {phase : Phase} {key : Key}
    (h : phase.insertedKey = some key) : key.constrained := by
  unfold Phase.insertedKey at h
  split at h
  · split at h
    · rename_i hconstrained
      cases h
      exact hconstrained
    · cases h
  · cases h

/-- A writer may move to a phase that holds a row of the table, writes what its call
leaves, and inserts a key that nobody else has. -/
theorem inv_set {s : State n} (hinv : Inv s) {c : Fin n} {phase : Phase}
    (hheld : ∀ call row, phase.held = some (call, row) →
      (row.id, row.key) ∈ s.index ∧ row.key = call.message.key ∧ row.key.constrained)
    (hwrote : ∀ call write, phase = .written call write → call.leaves write)
    (hfresh : ∀ key, phase.insertedKey = some key → (∀ p ∈ s.index, p.2 ≠ key) ∧
      ∀ other, (s.phase other).insertedKey ≠ some key) :
    Inv (s.set c phase) where
  ids := hinv.ids
  below := hinv.below
  keys := hinv.keys
  held other call row h := by
    by_cases hother : other = c
    · subst hother
      rw [set_self] at h
      exact hheld call row h
    · rw [set_ne s phase hother] at h
      exact hinv.held other call row h
  wrote other call write h := by
    by_cases hother : other = c
    · subst hother
      rw [set_self] at h
      exact hwrote call write h
    · rw [set_ne s phase hother] at h
      exact hinv.wrote other call write h
  fresh other key h := by
    by_cases hother : other = c
    · subst hother
      rw [set_self] at h
      exact (hfresh key h).1
    · rw [set_ne s phase hother] at h
      exact hinv.fresh other key h
  exclusive first second key hfirst hsecond := by
    by_cases h1 : first = c
    · by_cases h2 : second = c
      · rw [h1, h2]
      · subst h1
        rw [set_self] at hfirst
        rw [set_ne s phase h2] at hsecond
        exact absurd hsecond ((hfresh key hfirst).2 second)
    · by_cases h2 : second = c
      · subst h2
        rw [set_self] at hsecond
        rw [set_ne s phase h1] at hfirst
        exact absurd hfirst ((hfresh key hsecond).2 first)
      · rw [set_ne s phase h1] at hfirst
        rw [set_ne s phase h2] at hsecond
        exact hinv.exclusive first second key hfirst hsecond

theorem inv_set_idle {s : State n} (hinv : Inv s) (c : Fin n) : Inv (s.set c .idle) := by
  apply inv_set hinv
  · intro call row h
    cases h
  · intro call write h
    cases h
  · intro key h
    cases h

/-- What is recorded does not matter to the invariant. -/
theorem inv_done {s : State n} (hinv : Inv s) (c : Fin n) (call : Call) : Inv (s.done c call) := by
  have hidle := inv_set_idle hinv c
  exact ⟨hidle.ids, hidle.below, hidle.keys, hidle.held, hidle.wrote, hidle.fresh,
    hidle.exclusive⟩

/-- An update that keeps the loaded key keeps every id and key. -/
theorem index_update (s : State n) {loaded new : Row} (hkey : new.key = loaded.key) :
    (s.apply (.update loaded new)).index = s.index := by
  have hset : ∀ row, ((Row.set loaded new row).id, (Row.set loaded new row).key) =
      (row.id, row.key) := by
    intro row
    simp [Row.set, hkey]
  exact Table.keys_updateWhere hset s.rows

/-- The update of a transaction keeps the invariant. -/
theorem inv_update {s : State n} (hinv : Inv s) {loaded new : Row}
    (hkey : new.key = loaded.key) : Inv (s.apply (.update loaded new)) := by
  have hindex := index_update s hkey
  refine ⟨?_, ?_, ?_, ?_, hinv.wrote, ?_, hinv.exclusive⟩
  · rw [hindex]
    exact hinv.ids
  · rw [hindex]
    exact hinv.below
  · rw [hindex]
    exact hinv.keys
  · rw [hindex]
    exact hinv.held
  · rw [hindex]
    exact hinv.fresh

/-- The insert of a transaction, which leaves its phase, keeps the invariant. -/
theorem inv_insert {s : State n} (hinv : Inv s) {c : Fin n} {call : Call} {row : Row}
    (hphase : s.phase c = .written call (.insert row)) :
    Inv ((s.apply (.insert row)).set c .idle) := by
  have hindex : ((s.apply (.insert row)).set c .idle).index = (s.nextId, row.key) :: s.index := rfl
  have hinserted : row.key.constrained → (s.phase c).insertedKey = some row.key := by
    intro hconstrained
    rw [hphase]
    exact if_pos hconstrained
  have hnew : row.key.constrained → ∀ p ∈ s.index, p.2 ≠ row.key := by
    intro hconstrained
    exact hinv.fresh c row.key (hinserted hconstrained)
  have hphases : ∀ other key, (((s.apply (.insert row)).set c .idle).phase other).insertedKey =
      some key → other ≠ c ∧ (s.phase other).insertedKey = some key := by
    intro other key h
    by_cases hother : other = c
    · subst hother
      rw [set_self] at h
      cases h
    · rw [set_ne _ _ hother] at h
      exact ⟨hother, h⟩
  refine ⟨?_, ?_, ?_, ?_, ?_, ?_, ?_⟩
  · rw [hindex, List.map_cons, List.nodup_cons]
    refine ⟨?_, hinv.ids⟩
    intro hmem
    obtain ⟨p, hp, hid⟩ := List.mem_map.mp hmem
    have hlt := hinv.below p hp
    omega
  · intro p hp
    show p.1 < s.nextId + 1
    rw [hindex] at hp
    rcases List.mem_cons.mp hp with rfl | hold
    · exact Nat.lt_succ_self _
    · have hlt := hinv.below p hold
      omega
  · intro p hp q hq hconstrained hkey
    rw [hindex] at hp hq
    rcases List.mem_cons.mp hp with rfl | hp'
    · rcases List.mem_cons.mp hq with rfl | hq'
      · rfl
      · exact absurd hkey (hnew hconstrained q hq')
    · rcases List.mem_cons.mp hq with rfl | hq'
      · have hrow : row.key.constrained := by
          show (s.nextId, row.key).2.constrained
          rw [hkey]
          exact hconstrained
        exact absurd hkey.symm (hnew hrow p hp')
      · exact hinv.keys p hp' q hq' hconstrained hkey
  · intro other call' loaded h
    by_cases hother : other = c
    · subst hother
      rw [set_self] at h
      cases h
    · rw [set_ne _ _ hother] at h
      obtain ⟨hmem, hrest⟩ := hinv.held other call' loaded h
      rw [hindex]
      exact ⟨List.mem_cons_of_mem _ hmem, hrest⟩
  · intro other call' write h
    by_cases hother : other = c
    · subst hother
      rw [set_self] at h
      cases h
    · rw [set_ne _ _ hother] at h
      exact hinv.wrote other call' write h
  · intro other key h p hp
    obtain ⟨hne, hold⟩ := hphases other key h
    rw [hindex] at hp
    rcases List.mem_cons.mp hp with rfl | hp'
    · intro hkey
      have hconstrained : row.key.constrained := by
        have hkey' : row.key = key := hkey
        rw [hkey']
        exact constrained_of_insertedKey hold
      have hmine := hinserted hconstrained
      have hkey' : row.key = key := hkey
      rw [hkey'] at hmine
      exact hne (hinv.exclusive other c key hold hmine)
    · exact hinv.fresh other key hold p hp'
  · intro first second key hfirst hsecond
    exact hinv.exclusive first second key (hphases first key hfirst).2 (hphases second key hsecond).2

/-! ## Steps -/

/-- What a flush can do: issue nothing, have its insert refused, or issue its statement. -/
theorem flush_cases {s s' : State n} {c : Fin n} (h : step s (.flush c) = some s') :
    ∃ call found, s.phase c = .looked call found ∧
      ((s' = s.set c (.written call .nothing) ∧ call.leaves .nothing) ∨
      (∃ row, call.write found = .insert row ∧
        (∃ old ∈ s.rows, row.key.constrained ∧ old.key = row.key) ∧ s' = s.done c call) ∨
      (∃ row, call.write found = .insert row ∧
        (∀ other, (s.phase other).insertedKey ≠ some row.key) ∧
        (row.key.constrained → ∀ old ∈ s.rows, old.key ≠ row.key) ∧
        s' = s.set c (.written call (.insert row))) ∨
      ∃ loaded new, call.write found = .update loaded new ∧
        s' = s.set c (.written call (.update loaded new))) := by
  simp only [step] at h
  split at h
  · rename_i call found hphase
    refine ⟨call, found, hphase, ?_⟩
    split at h
    · rename_i hwrite
      cases h
      exact Or.inl ⟨rfl, Or.inl ⟨found, hwrite⟩⟩
    · rename_i row hwrite
      split at h
      · cases h
      · rename_i hfree
        split at h
        · rename_i hrefused
          cases h
          exact Or.inr (Or.inl ⟨row, hwrite, hrefused, rfl⟩)
        · rename_i hnew
          cases h
          refine Or.inr (Or.inr (Or.inl ⟨row, hwrite, ?_, ?_, rfl⟩))
          · intro other hother
            exact hfree ⟨other, hother⟩
          · intro hconstrained old hold hkey
            exact hnew ⟨old, hold, hconstrained, hkey⟩
    · rename_i loaded new hwrite
      split at h
      · rename_i hsame
        cases h
        refine Or.inl ⟨rfl, Or.inr ⟨rfl, loaded, ?_⟩⟩
        rw [hsame] at hwrite
        rw [← (write_update hwrite).1]
        exact hwrite
      · split at h
        · cases h
        · cases h
          exact Or.inr (Or.inr (Or.inr ⟨loaded, new, hwrite, rfl⟩))
  · cases h

theorem commit_cases {s s' : State n} {c : Fin n} (h : step s (.commit c) = some s') :
    ∃ call write, s.phase c = .written call write ∧ s' = (s.apply write).done c call := by
  simp only [step] at h
  split at h
  · rename_i call write hphase
    cases h
    exact ⟨call, write, hphase, rfl⟩
  · cases h

/-- A row that is looked up is one that the index has. -/
theorem mem_index {s : State n} {row : Row} (h : row ∈ s.rows) : (row.id, row.key) ∈ s.index :=
  List.mem_map.mpr ⟨row, h, rfl⟩

theorem inv_flush {s s' : State n} (hinv : Inv s) {c : Fin n}
    (h : step s (.flush c) = some s') : Inv s' := by
  obtain ⟨call, found, hphase, hcases⟩ := flush_cases h
  rcases hcases with ⟨rfl, hleaves⟩ | ⟨row, _, _, rfl⟩ | ⟨row, hwrite, hfree, hnew, rfl⟩ |
    ⟨loaded, new, hwrite, rfl⟩
  · apply inv_set hinv
    · intro call' row h
      cases h
    · intro call' write h
      cases h
      exact hleaves
    · intro key h
      cases h
  · exact inv_done hinv c call
  · apply inv_set hinv
    · intro call' row h
      cases h
    · intro call' write h
      cases h
      exact Or.inl ⟨found, hwrite⟩
    · intro key h
      have hconstrained := constrained_of_insertedKey h
      simp only [Phase.insertedKey] at h
      split at h
      · cases h
        refine ⟨?_, hfree⟩
        intro p hp
        obtain ⟨old, hold, rfl⟩ := List.mem_map.mp hp
        exact hnew hconstrained old hold
      · cases h
  · apply inv_set hinv
    · intro call' row h
      cases h
      apply hinv.held c
      rw [hphase, (write_update hwrite).1]
      rfl
    · intro call' write h
      cases h
      exact Or.inl ⟨found, hwrite⟩
    · intro key h
      cases h

theorem inv_commit {s s' : State n} (hinv : Inv s) {c : Fin n}
    (h : step s (.commit c) = some s') : Inv s' := by
  obtain ⟨call, write, hphase, rfl⟩ := commit_cases h
  cases write with
  | nothing => exact inv_done hinv c call
  | insert row =>
      have hidle := inv_insert hinv hphase
      exact ⟨hidle.ids, hidle.below, hidle.keys, hidle.held, hidle.wrote, hidle.fresh,
        hidle.exclusive⟩
  | update loaded new =>
      have hkey : new.key = loaded.key := by
        rcases hinv.wrote c call _ hphase with ⟨found, hwrite⟩ | ⟨hnothing, _⟩
        · exact (write_update hwrite).2.2
        · cases hnothing
      exact inv_done (inv_update hinv hkey) c call

theorem inv_step {s s' : State n} {e : Event n} (hinv : Inv s) (h : step s e = some s') :
    Inv s' := by
  cases e with
  | look c call =>
      simp only [step] at h
      split at h
      · cases h
        apply inv_set hinv
        · intro call' row hheld
          cases hlookup : call.lookup s.rows with
          | none =>
              rw [hlookup] at hheld
              cases hheld
          | some found =>
              rw [hlookup] at hheld
              cases hheld
              obtain ⟨hmem, hrest⟩ := lookup_eq_some hlookup
              exact ⟨mem_index hmem, hrest⟩
        · intro call' write hwritten
          cases hwritten
        · intro key hinserted
          cases hinserted
      · cases h
  | flush c => exact inv_flush hinv h
  | commit c => exact inv_commit hinv h
  | fail c =>
      simp only [step] at h
      split at h
      · cases h
      · cases h
        exact inv_set_idle hinv c

/-- Every state that can be reached meets the invariant. -/
theorem inv_run {s t : State n} {es : List (Event n)} (hinv : Inv s) (h : Run step Any s es t) :
    Inv t :=
  h.invariant hinv fun _ _ _ hs _ hstep => inv_step hs hstep

/-! ## The outcome of a row -/

/-- What a write makes of a committed row. -/
def Write.on : Write → Row → Row
  | .update loaded new, row => if row.id = loaded.id then Row.set loaded new row else row
  | _, row => row

/-- A commit rewrites the rows that are there, and adds one at most. -/
theorem row_apply {s : State n} (hinv : Inv s) (write : Write) {id : Nat} {row : Row}
    (h : s.row id = some row) : (s.apply write).row id = some (write.on row) := by
  cases write with
  | nothing => exact h
  | insert inserted =>
      have hid : row.id = id := Table.key_of_lookup h
      have hlt := hinv.below _ (mem_index (Table.mem_of_lookup h))
      have hne : s.nextId ≠ id := by
        intro heq
        simp only [hid] at hlt
        omega
      show Table.lookup Row.id ({ inserted with id := s.nextId } :: s.rows) id = _
      rw [Table.lookup_cons, if_neg hne]
      exact h
  | update loaded new =>
      have hset : ∀ row, (Row.set loaded new row).id = row.id := fun _ => rfl
      have hid : row.id = id := Table.key_of_lookup h
      show Table.lookup Row.id (Table.updateAt Row.id loaded.id (Row.set loaded new) s.rows) id = _
      by_cases hsame : id = loaded.id
      · rw [hsame, Table.lookup_updateAt_self hset, ← hsame]
        rw [State.row] at h
        rw [h, Option.map_some, Write.on, if_pos (hid.trans hsame)]
      · rw [Table.lookup_updateAt_ne hset (Ne.symm hsame)]
        rw [Write.on, if_neg (by rw [hid]; exact hsame)]
        exact h

/-- Steps other than a commit leave every row alone. -/
theorem row_step {s s' : State n} {e : Event n} (h : step s e = some s')
    (hcommit : ∀ c, e ≠ .commit c) (id : Nat) : s'.row id = s.row id := by
  cases e with
  | look c call =>
      simp only [step] at h
      split at h
      · cases h
        rfl
      · cases h
  | flush c =>
      obtain ⟨call, found, _, hcases⟩ := flush_cases h
      rcases hcases with ⟨rfl, _⟩ | ⟨_, _, _, rfl⟩ | ⟨_, _, _, _, rfl⟩ | ⟨_, _, _, rfl⟩ <;> rfl
  | commit c => exact absurd rfl (hcommit c)
  | fail c =>
      simp only [step] at h
      split at h
      · cases h
      · cases h
        rfl

/-- An instantiated row keeps its outcome and its process instance. -/
def Stays (s s' : State n) : Prop :=
  ∀ id, ∀ row ∈ s.row id, row.outcome = .instantiated →
    ∃ row' ∈ s'.row id, row'.outcome = .instantiated ∧
      row'.processInstanceId = row.processInstanceId

/-- A recorded outcome that reaches an instantiated row is `instantiated` itself or the one
its transaction had read, and brings no other process instance than the row's or the one its
transaction had read. -/
def KeepsAt (s : State n) : Phase → Prop
  | .written (.recordOutcome _ args) (.update loaded _) =>
      ∀ row ∈ s.row loaded.id, row.outcome = .instantiated →
        (args.outcome = .instantiated ∨ args.outcome = loaded.outcome) ∧
        (args.processInstanceId = none ∨ args.processInstanceId = loaded.processInstanceId ∨
          args.processInstanceId = row.processInstanceId)
  | _ => True

/-- The condition on a step: its commit, if it is one, keeps instantiated rows. -/
def KeepsInstantiated (s : State n) : Event n → Prop
  | .commit c => KeepsAt s (s.phase c)
  | .look _ _ | .flush _ | .fail _ => True

instance (s : State n) : ∀ phase : Phase, Decidable (KeepsAt s phase)
  | .written (.recordOutcome _ args) (.update loaded _) =>
      inferInstanceAs (Decidable (∀ row ∈ s.row loaded.id, row.outcome = .instantiated →
        (args.outcome = .instantiated ∨ args.outcome = loaded.outcome) ∧
        (args.processInstanceId = none ∨ args.processInstanceId = loaded.processInstanceId ∨
          args.processInstanceId = row.processInstanceId)))
  | .written (.recordOutcome _ _) .nothing | .written (.recordOutcome _ _) (.insert _)
  | .written (.recordQueued _) _ | .written (.recordDuplicate _ _ _) _
  | .idle | .looked _ _ => inferInstanceAs (Decidable True)

instance (s : State n) : ∀ e : Event n, Decidable (KeepsInstantiated s e)
  | .commit c => inferInstanceAs (Decidable (KeepsAt s (s.phase c)))
  | .look _ _ | .flush _ | .fail _ => inferInstanceAs (Decidable True)

theorem setColumn_eq_current {α : Type*} [DecidableEq α] {loaded new current : α} :
    setColumn loaded new current = current ↔ new = loaded ∨ new = current := by
  unfold setColumn
  split
  · simp_all
  · simp_all

/-- What an update of an outcome does to an instantiated row. -/
theorem assign_stays_iff {args : OutcomeArgs} {m : Message} {loaded row : Row}
    (hrow : row.outcome = .instantiated) :
    ((Row.set loaded (args.assign m loaded) row).outcome = .instantiated ∧
      (Row.set loaded (args.assign m loaded) row).processInstanceId = row.processInstanceId) ↔
    (args.outcome = .instantiated ∨ args.outcome = loaded.outcome) ∧
      (args.processInstanceId = none ∨ args.processInstanceId = loaded.processInstanceId ∨
        args.processInstanceId = row.processInstanceId) := by
  have houtcome : (Row.set loaded (args.assign m loaded) row).outcome = .instantiated ↔
      args.outcome = .instantiated ∨ args.outcome = loaded.outcome := by
    have hcolumn := @setColumn_eq_current _ _ loaded.outcome args.outcome row.outcome
    rw [hrow] at hcolumn
    show setColumn loaded.outcome args.outcome row.outcome = .instantiated ↔ _
    rw [hrow, hcolumn, or_comm]
  have hinstance : (Row.set loaded (args.assign m loaded) row).processInstanceId =
      row.processInstanceId ↔ args.processInstanceId = none ∨
        args.processInstanceId = loaded.processInstanceId ∨
        args.processInstanceId = row.processInstanceId := by
    show setColumn loaded.processInstanceId
      (args.processInstanceId.or loaded.processInstanceId) row.processInstanceId = _ ↔ _
    rw [setColumn_eq_current]
    cases args.processInstanceId with
    | none => simp
    | some given => simp
  rw [houtcome, hinstance]

/-- A commit leaves the instantiated rows alone exactly under the condition. -/
theorem stays_iff {s s' : State n} {e : Event n} (hinv : Inv s) (h : step s e = some s') :
    Stays s s' ↔ KeepsInstantiated s e := by
  cases e with
  | commit c =>
      obtain ⟨call, write, hphase, rfl⟩ := commit_cases h
      have hrow : ∀ {id row}, s.row id = some row →
          ((s.apply write).done c call).row id = some (write.on row) := row_apply hinv write
      have htrivial : (∀ row, (write.on row).outcome = row.outcome ∧
          (write.on row).processInstanceId = row.processInstanceId) →
          Stays s ((s.apply write).done c call) := by
        intro hon id row hmem hinstantiated
        exact ⟨write.on row, hrow hmem, (hon row).1.trans hinstantiated, (hon row).2⟩
      have hwrote := hinv.wrote c call write hphase
      simp only [KeepsInstantiated, hphase, KeepsAt]
      cases write with
      | nothing =>
          have hstays := htrivial fun _ => ⟨rfl, rfl⟩
          cases call <;> simp [hstays]
      | insert row =>
          have hstays := htrivial fun _ => ⟨rfl, rfl⟩
          cases call <;> simp [hstays]
      | update loaded new =>
          obtain ⟨found, hwrite⟩ : ∃ found, call.write found = .update loaded new := by
            rcases hwrote with hfound | ⟨hnothing, _⟩
            · exact hfound
            · cases hnothing
          have hfound := (write_update hwrite).1
          subst hfound
          cases call with
          | recordQueued m => cases hwrite
          | recordDuplicate m streamSeq now =>
              cases hwrite
              refine iff_of_true (htrivial fun row => ?_) trivial
              simp only [Write.on]
              split
              · simp [Row.set]
              · exact ⟨rfl, rfl⟩
          | recordOutcome m args =>
              simp only [Call.write] at hwrite
              split at hwrite
              · cases hwrite
                constructor
                · intro hstays row hmem hinstantiated
                  obtain ⟨row', hmem', hrow'⟩ := hstays loaded.id row hmem hinstantiated
                  rw [Option.mem_def, hrow hmem] at hmem'
                  cases hmem'
                  rw [Write.on, if_pos (Table.key_of_lookup hmem)] at hrow'
                  exact (assign_stays_iff hinstantiated).mp hrow'
                · intro hkeeps id row hmem hinstantiated
                  refine ⟨_, hrow hmem, ?_⟩
                  simp only [Write.on]
                  split
                  · rename_i hid
                    have hid' : id = loaded.id := (Table.key_of_lookup hmem).symm.trans hid
                    rw [hid'] at hmem
                    exact (assign_stays_iff hinstantiated).mpr (hkeeps row hmem hinstantiated)
                  · exact ⟨hinstantiated, rfl⟩
              · cases hwrite
  | _ =>
      refine iff_of_true ?_ trivial
      intro id row hmem hinstantiated
      refine ⟨row, ?_, hinstantiated, rfl⟩
      rw [row_step h (by intro c hc; cases hc)]
      exact hmem

/-- No commit puts a recorded outcome back to `queued`. -/
theorem requeue_step {s s' : State n} {e : Event n} (hinv : Inv s) (h : step s e = some s')
    {id : Nat} {row : Row} (hrow : s.row id = some row) :
    ∃ row', s'.row id = some row' ∧ (row.outcome ≠ .queued → row'.outcome ≠ .queued) := by
  cases e with
  | commit c =>
      obtain ⟨call, write, hphase, rfl⟩ := commit_cases h
      refine ⟨write.on row, row_apply hinv write hrow, ?_⟩
      intro hrecorded
      cases write with
      | nothing => exact hrecorded
      | insert inserted => exact hrecorded
      | update loaded new =>
          simp only [Write.on]
          split
          · rcases hinv.wrote c call _ hphase with ⟨found, hwrite⟩ | ⟨hnothing, _⟩
            · have hfound := (write_update hwrite).1
              subst hfound
              cases call with
              | recordQueued m => cases hwrite
              | recordDuplicate m streamSeq now =>
                  cases hwrite
                  simpa [Row.set] using hrecorded
              | recordOutcome m args =>
                  simp only [Call.write] at hwrite
                  split at hwrite
                  · rename_i hmay
                    cases hwrite
                    show setColumn loaded.outcome args.outcome row.outcome ≠ .queued
                    unfold setColumn
                    split
                    · exact hrecorded
                    · rename_i hdiffers
                      intro hqueued
                      simp [mayOverwrite, hqueued, Ne.symm (hqueued ▸ hdiffers)] at hmay
                  · cases hwrite
            · cases hnothing
          · exact hrecorded
  | _ => exact ⟨row, by rw [row_step h (by intro c hc; cases hc)]; exact hrow, fun h => h⟩

/-- The outcome of a row once it is recorded, over every run whose commits meet the
condition. -/
theorem instantiated_is_final {s t : State n} {before after : List (Event n)}
    (hreach : Run step Any (State.start n) before s) (hrun : Run step KeepsInstantiated s after t)
    {id : Nat} {row : Row} (hrow : s.row id = some row) :
    ∃ row', t.row id = some row' ∧
      (row.outcome = .instantiated → row'.outcome = .instantiated ∧
        row'.processInstanceId = row.processInstanceId) ∧
      (row.outcome ≠ .queued → row'.outcome ≠ .queued) := by
  have hinv := inv_run inv_start hreach
  clear hreach
  induction hrun generalizing row with
  | nil s => exact ⟨row, hrow, fun h => ⟨h, rfl⟩, fun h => h⟩
  | @cons s e s' es t hkeeps hstep hrest ih =>
      obtain ⟨next, hnext, hrecorded⟩ := requeue_step hinv hstep hrow
      obtain ⟨last, hlast, hfinal, hlater⟩ := ih hnext (inv_step hinv hstep)
      refine ⟨last, hlast, ?_, fun h => hlater (hrecorded h)⟩
      intro hinstantiated
      have hstays := (stays_iff hinv hstep).mpr hkeeps id row hrow hinstantiated
      obtain ⟨found, hfound, houtcome, hinstance⟩ := hstays
      rw [Option.mem_def, hnext] at hfound
      cases hfound
      obtain ⟨hout, hinst⟩ := hfinal houtcome
      exact ⟨hout, hinst.trans hinstance⟩

/-- The message of one trigger event. -/
def orderMessage : Message where
  tenantId := some "t1".toList
  eventId := some "e1".toList
  worker := .consumer
  processIdentifier := some "g/p".toList
  username := none

/-- An outcome to record for it. -/
def orderOutcome (outcome : Outcome) (processInstanceId : Option Int) : Call :=
  .recordOutcome orderMessage
    { outcome
      errorMessage := none
      processInstanceId
      streamSeq := none
      completedAt := none
      insertOnly := false
      now := 5 }

/-- A failure that is recorded after the success is refused. -/
theorem success_outlives_failure :
    ∃ (s t : State 2) (row row' : Row), Run step Any (State.start 2)
        [.look 0 (.recordQueued orderMessage), .flush 0, .commit 0,
          .look 1 (orderOutcome .instantiated (some 7)), .flush 1, .commit 1] s ∧
      Run step KeepsInstantiated s
        [.look 0 (orderOutcome .transientError none), .flush 0, .commit 0] t ∧
      s.row 0 = some row ∧ row.outcome = .instantiated ∧ t.row 0 = some row' ∧
      row'.outcome = .instantiated ∧ row'.processInstanceId = row.processInstanceId := by
  have hruns : ∃ s t : State 2, Run step Any (State.start 2)
      [.look 0 (.recordQueued orderMessage), .flush 0, .commit 0,
        .look 1 (orderOutcome .instantiated (some 7)), .flush 1, .commit 1] s ∧
      Run step KeepsInstantiated s
        [.look 0 (orderOutcome .transientError none), .flush 0, .commit 0] t ∧
      (s.row 0).map Row.outcome = some .instantiated :=
    run_of_exec_bind (by decide)
  obtain ⟨s, t, hreach, hrun, hrow⟩ := hruns
  obtain ⟨row, hrow, houtcome⟩ := Option.map_eq_some_iff.mp hrow
  obtain ⟨row', hrow', hfinal, _⟩ := instantiated_is_final hreach hrun hrow
  obtain ⟨hout, hinst⟩ := hfinal houtcome
  exact ⟨s, t, row, row', hreach, hrun, hrow, houtcome, hrow', hout, hinst⟩

/-- A failure whose transaction read the row before the success was committed overwrites it;
and a second success replaces the process instance of the first. -/
theorem recorded_success_overwritten :
    (∃ s t : State 2, Run step Any (State.start 2)
        [.look 0 (.recordQueued orderMessage), .flush 0, .commit 0,
          .look 0 (orderOutcome .transientError none),
          .look 1 (orderOutcome .instantiated (some 7)), .flush 1, .commit 1] s ∧
      Run step Any s [.flush 0, .commit 0] t ∧
      ((s.row 0).map Row.outcome, (t.row 0).map Row.outcome) =
        (some .instantiated, some .transientError)) ∧
    ∃ s t : State 1, Run step Any (State.start 1)
        [.look 0 (orderOutcome .instantiated (some 7)), .flush 0, .commit 0] s ∧
      Run step Any s [.look 0 (orderOutcome .instantiated (some 8)), .flush 0, .commit 0] t ∧
      ((s.row 0).map fun row => (row.outcome, row.processInstanceId),
        (t.row 0).map fun row => (row.outcome, row.processInstanceId)) =
        (some (.instantiated, some 7), some (.instantiated, some 8)) :=
  ⟨run_of_exec_bind (by decide), run_of_exec_bind (by decide)⟩

/-! ## The count of duplicates -/

/-- The duplicates counted on the rows of a key. -/
def State.duplicateCount (s : State n) (key : Key) : Nat :=
  (s.rows.map fun row => if row.key = key then row.duplicateCount else 0).sum

/-- A key that the constraint applies to has one row, whose count is the count of the key. -/
theorem duplicateCount_of_mem {s : State n} (hinv : Inv s) {row : Row} (hmem : row ∈ s.rows)
    (hconstrained : row.key.constrained) : s.duplicateCount row.key = row.duplicateCount := by
  have hids : (s.rows.map Row.id).Nodup := by
    have h := hinv.ids
    rw [State.index, List.map_map] at h
    exact h
  have hother : ∀ other ∈ s.rows, other.key = row.key → other.id = row.id := by
    intro other hmem' hkey
    have hsame := hinv.keys _ (mem_index hmem) _ (mem_index hmem') hconstrained hkey
    exact congrArg Prod.fst hsame
  unfold State.duplicateCount
  clear hinv
  revert hids hother hmem
  generalize s.rows = rows
  intro hmem hids hother
  induction rows with
  | nil => cases hmem
  | cons first rows ih =>
      simp only [List.map_cons, List.nodup_cons] at hids
      rw [List.map_cons, List.sum_cons]
      rcases List.mem_cons.mp hmem with rfl | hrest
      · have hzero : (rows.map fun other =>
            if other.key = row.key then other.duplicateCount else 0).sum = 0 := by
          apply List.sum_eq_zero_iff_forall_eq_nat.mpr
          intro count hcount
          obtain ⟨other, hmem', rfl⟩ := List.mem_map.mp hcount
          have hne : other.key ≠ row.key := by
            intro hkey
            apply hids.1
            rw [← hother other (List.mem_cons_of_mem _ hmem') hkey]
            exact List.mem_map_of_mem hmem'
          rw [if_neg hne]
        rw [if_pos rfl, hzero, Nat.add_zero]
      · have hne : first.key ≠ row.key := by
          intro hkey
          apply hids.1
          rw [hother first List.mem_cons_self hkey]
          exact List.mem_map_of_mem hrest
        rw [if_neg hne, Nat.zero_add]
        apply ih hrest hids.2
        intro other hmem' hkey
        exact hother other (List.mem_cons_of_mem _ hmem') hkey

/-- How the count of a key changes when a row is inserted. -/
theorem duplicateCount_insert (s : State n) (row : Row) (key : Key) :
    (s.apply (.insert row)).duplicateCount key =
      (if row.key = key then row.duplicateCount else 0) + s.duplicateCount key :=
  rfl

/-- How the count of a key changes when a row is updated. -/
theorem duplicateCount_update {s : State n} (hinv : Inv s) {loaded new current : Row} (key : Key)
    (hkey : new.key = loaded.key) (hcurrent : s.row loaded.id = some current) :
    (s.apply (.update loaded new)).duplicateCount key +
        (if current.key = key then current.duplicateCount else 0) =
      s.duplicateCount key + if current.key = key then
        setColumn loaded.duplicateCount new.duplicateCount current.duplicateCount else 0 := by
  have hids : (s.rows.map Row.id).Nodup := by
    have h := hinv.ids
    rw [State.index, List.map_map] at h
    exact h
  have hsum := @Table.sum_updateAt _ _ _ Row.id loaded.id (Row.set loaded new)
    (fun row => if row.key = key then row.duplicateCount else 0) s.rows current hids hcurrent
  simpa [Row.set, hkey, State.duplicateCount, State.apply] using hsum

/-- A duplicate of the key finds its row absent and inserts it before anyone else has, or
finds it and updates it before another duplicate has. -/
def Counted (key : Key) (s : State n) : Event n → Prop
  | .flush c =>
      match s.phase c with
      | .looked (.recordDuplicate m _ _) none =>
          m.key = key → key.constrained → ∀ row ∈ s.rows, row.key ≠ key
      | _ => True
  | .commit c =>
      match s.phase c with
      | .written (.recordDuplicate m _ _) (.update loaded _) =>
          m.key = key → ∀ row ∈ s.row loaded.id, row.duplicateCount = loaded.duplicateCount
      | _ => True
  | .look _ _ | .fail _ => True

/-- The count never exceeds what is recorded, and a transaction that has loaded an older
count than the row has now loaded one that is smaller than what is recorded. -/
structure Ledger (key : Key) (s : State n) : Prop where
  bound : s.duplicateCount key ≤ s.recorded.count key
  loaded : ∀ c call row, (s.phase c).held = some (call, row) → row.key = key →
    row.duplicateCount = s.duplicateCount key ∨ row.duplicateCount < s.recorded.count key

/-- The count is what is recorded. -/
def Tight (key : Key) (s : State n) : Prop := s.duplicateCount key = s.recorded.count key

/-- The duplicates of the key that a call records when it returns. -/
def Call.adds (key : Key) : Call → Nat
  | .recordDuplicate m _ _ => if m.key = key then 1 else 0
  | _ => 0

theorem count_done (s : State n) (c : Fin n) (call : Call) (key : Key) :
    (s.done c call).recorded.count key = s.recorded.count key + call.adds key := by
  cases call with
  | recordDuplicate m streamSeq now =>
      show (m.key :: s.recorded).count key = _
      simp [Call.adds, List.count_cons]
  | recordQueued m => rfl
  | recordOutcome m args => rfl

@[simp] theorem duplicateCount_done (s : State n) (c : Fin n) (call : Call) (key : Key) :
    (s.done c call).duplicateCount key = s.duplicateCount key := rfl

@[simp] theorem duplicateCount_set (s : State n) (c : Fin n) (phase : Phase) (key : Key) :
    (s.set c phase).duplicateCount key = s.duplicateCount key := rfl

theorem ledger_start (key : Key) : Ledger key (State.start n) where
  bound := Nat.le_refl _
  loaded _ _ _ h := by cases h

/-- A step keeps the ledger that records a duplicate, or leaves the count alone. -/
theorem ledger_of {key : Key} {s s' : State n} (hledger : Ledger key s)
    (hheld : ∀ c call row, (s'.phase c).held = some (call, row) → row.key = key →
      row.duplicateCount = s.duplicateCount key ∨ row.duplicateCount < s.recorded.count key)
    (hbound : s'.duplicateCount key ≤ s'.recorded.count key)
    (hstep : (s'.duplicateCount key = s.duplicateCount key ∧
        s.recorded.count key ≤ s'.recorded.count key) ∨
      s.recorded.count key < s'.recorded.count key) : Ledger key s' where
  bound := hbound
  loaded c call row hrow hkey := by
    have hold := hheld c call row hrow hkey
    have hle := hledger.bound
    omega

/-- The rows that are loaded while one writer is idle are loaded before. -/
theorem held_set_idle {s : State n} {c other : Fin n} {held : Call × Row}
    (h : ((s.set c .idle).phase other).held = some held) : (s.phase other).held = some held := by
  by_cases hother : other = c
  · subst hother
    rw [set_self] at h
    cases h
  · rw [set_ne _ _ hother] at h
    exact h

/-- A writer moves on without a change to the table. -/
theorem ledger_set {key : Key} {s : State n} (hledger : Ledger key s) {c : Fin n} {phase : Phase}
    (hheld : ∀ call row, phase.held = some (call, row) → row.key = key →
      row.duplicateCount = s.duplicateCount key ∨ row.duplicateCount < s.recorded.count key) :
    Ledger key (s.set c phase) := by
  refine ledger_of hledger ?_ hledger.bound (Or.inl ⟨rfl, Nat.le_refl _⟩)
  intro other call row hrow hkey
  by_cases hother : other = c
  · subst hother
    rw [set_self] at hrow
    exact hheld call row hrow hkey
  · rw [set_ne _ _ hother] at hrow
    exact hledger.loaded other call row hrow hkey

/-- The committed version of a row that a transaction has loaded. -/
theorem current_of_held {s : State n} (hinv : Inv s) {c : Fin n} {call : Call} {loaded : Row}
    (h : (s.phase c).held = some (call, loaded)) :
    ∃ current, s.row loaded.id = some current ∧ current.key = loaded.key ∧
      s.duplicateCount loaded.key = current.duplicateCount := by
  obtain ⟨hindex, _, hconstrained⟩ := hinv.held c call loaded h
  obtain ⟨current, hmem, hsame⟩ := List.mem_map.mp hindex
  simp only [Prod.mk.injEq] at hsame
  obtain ⟨hid, hkey⟩ := hsame
  have hids : (s.rows.map Row.id).Nodup := by
    have hnodup := hinv.ids
    rw [State.index, List.map_map] at hnodup
    exact hnodup
  refine ⟨current, ?_, hkey, ?_⟩
  · rw [← hid]
    exact Table.lookup_of_mem hids hmem
  · rw [← hkey]
    exact duplicateCount_of_mem hinv hmem (by rw [hkey]; exact hconstrained)

/-- A duplicate always has something to write. -/
theorem not_leaves_nothing {m : Message} {streamSeq : Option Nat} {now : Int} :
    ¬ (Call.recordDuplicate m streamSeq now).leaves .nothing := by
  intro h
  rcases h with ⟨found, hwrite⟩ | ⟨_, row, hwrite⟩
  · cases found <;> cases hwrite
  · simp only [Call.write, Write.update.injEq, true_and] at hwrite
    have hcount := congrArg Row.duplicateCount hwrite
    simp at hcount

theorem tight_flush {key : Key} {s s' : State n} {c : Fin n}
    (hledger : Ledger key s) (h : step s (.flush c) = some s') :
    Ledger key s' ∧ (Tight key s' ↔ Tight key s ∧ Counted key s (.flush c)) := by
  obtain ⟨call, found, hphase, hcases⟩ := flush_cases h
  have hsame : ∀ phase, Tight key (s.set c phase) ↔ Tight key s := fun _ => Iff.rfl
  have hbound := hledger.bound
  simp only [Counted, hphase]
  rcases hcases with ⟨rfl, hleaves⟩ | ⟨row, hwrite, ⟨old, hold, hconstrained, holdKey⟩, rfl⟩ |
    ⟨row, hwrite, hfree, hnew, rfl⟩ | ⟨loaded, new, hwrite, rfl⟩
  · refine ⟨ledger_set hledger (by intro call' row h; cases h), ?_⟩
    rw [hsame]
    cases call with
    | recordDuplicate m streamSeq now => exact absurd hleaves not_leaves_nothing
    | recordQueued m => simp
    | recordOutcome m args => simp
  · -- the insert is refused: what is recorded grows alone
    obtain ⟨rfl, hkey⟩ := write_insert hwrite
    have hcount := count_done s c call key
    refine ⟨?_, ?_⟩
    · refine ledger_of hledger ?_ ?_ (Or.inl ⟨rfl, by omega⟩)
      · intro other call' row' h
        exact hledger.loaded other call' row' (held_set_idle h)
      · rw [duplicateCount_done]
        omega
    · unfold Tight
      rw [hcount, duplicateCount_done]
      cases call with
      | recordQueued m => simp [Call.adds]
      | recordOutcome m args => simp [Call.adds]
      | recordDuplicate m streamSeq now =>
          have hrowKey : row.key = m.key := hkey
          by_cases hmine : m.key = key
          · have hnot : ¬ (m.key = key → key.constrained → ∀ row ∈ s.rows, row.key ≠ key) := by
              intro hall
              apply hall hmine _ old hold
              · rw [holdKey, hrowKey, hmine]
              · rw [← hmine, ← hrowKey]
                exact hconstrained
            simp only [Call.adds, if_pos hmine]
            constructor
            · intro htight
              omega
            · intro htight
              exact absurd htight.2 hnot
          · simp [Call.adds, hmine]
  · refine ⟨ledger_set hledger (by intro call' row h; cases h), ?_⟩
    obtain ⟨rfl, hkey⟩ := write_insert hwrite
    rw [hsame]
    cases call with
    | recordQueued m => simp
    | recordOutcome m args => simp
    | recordDuplicate m streamSeq now =>
        refine (and_iff_left ?_).symm
        intro hmine hconstrained old hold
        have hrowKey : row.key = key := hkey.trans hmine
        rw [← hrowKey]
        exact hnew (by rw [hrowKey]; exact hconstrained) old hold
  · obtain ⟨rfl, _⟩ := write_update hwrite
    refine ⟨ledger_set hledger ?_, ?_⟩
    · intro call' row h hkey
      cases h
      exact hledger.loaded c call loaded (by rw [hphase]; rfl) hkey
    · rw [hsame]
      cases call <;> simp

/-- A row that is inserted counts what its call records. -/
theorem insert_adds {call : Call} {found : Option Row} {row : Row} {key : Key}
    (h : call.write found = .insert row) :
    (if row.key = key then row.duplicateCount else 0) = call.adds key := by
  obtain ⟨rfl, _⟩ := write_insert h
  cases call with
  | recordDuplicate m streamSeq now =>
      cases h
      rfl
  | recordQueued m =>
      cases h
      exact ite_self 0
  | recordOutcome m args =>
      cases h
      exact ite_self 0

/-- The count that an update leaves on its row. -/
def Call.recount (loaded current : Nat) : Call → Nat
  | .recordDuplicate _ _ _ => loaded + 1
  | _ => current

theorem update_recount {call : Call} {found : Option Row} {loaded new : Row} (current : Nat)
    (h : call.write found = .update loaded new) :
    setColumn loaded.duplicateCount new.duplicateCount current =
      call.recount loaded.duplicateCount current := by
  obtain ⟨rfl, _⟩ := write_update h
  cases call with
  | recordDuplicate m streamSeq now =>
      cases h
      simp [setColumn, Call.recount]
  | recordQueued m => cases h
  | recordOutcome m args =>
      simp only [Call.write] at h
      split at h
      · cases h
        exact setColumn_self _ _
      · cases h

theorem tight_commit {key : Key} {s s' : State n} {c : Fin n} (hinv : Inv s)
    (hledger : Ledger key s) (h : step s (.commit c) = some s') :
    Ledger key s' ∧ (Tight key s' ↔ Tight key s ∧ Counted key s (.commit c)) := by
  obtain ⟨call, write, hphase, rfl⟩ := commit_cases h
  have hbound := hledger.bound
  have hcount := count_done (s.apply write) c call key
  rw [apply_recorded] at hcount
  have hheld : ∀ other call' row, (((s.apply write).done c call).phase other).held =
      some (call', row) → row.key = key →
      row.duplicateCount = s.duplicateCount key ∨ row.duplicateCount < s.recorded.count key := by
    intro other call' row hrow
    rw [done_phase] at hrow
    have hbefore := held_set_idle hrow
    rw [apply_phase] at hbefore
    exact hledger.loaded other call' row hbefore
  have hwrote := hinv.wrote c call write hphase
  simp only [Counted, hphase]
  cases write with
  | nothing =>
      have hadds : call.adds key = 0 := by
        cases call with
        | recordDuplicate m streamSeq now => exact absurd hwrote not_leaves_nothing
        | recordQueued m => rfl
        | recordOutcome m args => rfl
      have hrows : ((s.apply .nothing).done c call).duplicateCount key = s.duplicateCount key := rfl
      refine ⟨ledger_of hledger hheld (by omega) (Or.inl ⟨hrows, by omega⟩), ?_⟩
      unfold Tight
      rw [hrows, hcount, hadds, Nat.add_zero]
      cases call <;> simp
  | insert row =>
      have hrows : ((s.apply (.insert row)).done c call).duplicateCount key =
          s.duplicateCount key + call.adds key := by
        rw [duplicateCount_done, duplicateCount_insert, Nat.add_comm]
        rcases hwrote with ⟨found, hwrite⟩ | ⟨hnothing, _⟩
        · rw [insert_adds hwrite]
        · cases hnothing
      refine ⟨ledger_of hledger hheld (by omega) ?_, ?_⟩
      · by_cases hadds : call.adds key = 0
        · exact Or.inl ⟨by omega, by omega⟩
        · exact Or.inr (by omega)
      · unfold Tight
        rw [hrows, hcount, Nat.add_right_cancel_iff]
        cases call <;> simp
  | update loaded new =>
      obtain ⟨current, hcurrent, hcurrentKey, hloadedCount⟩ :=
        current_of_held hinv (c := c) (by rw [hphase]; rfl)
      have hseen := hledger.loaded c call loaded (by rw [hphase]; rfl)
      have hcallKey := (hinv.held c call loaded (by rw [hphase]; rfl)).2.1
      obtain ⟨found, hwrite⟩ : ∃ found, call.write found = .update loaded new := by
        rcases hwrote with hfound | ⟨hnothing, _⟩
        · exact hfound
        · cases hnothing
      obtain ⟨rfl, _, hkey⟩ := write_update hwrite
      have hrows := duplicateCount_update hinv key hkey hcurrent
      rw [update_recount current.duplicateCount hwrite, hcurrentKey] at hrows
      have hmem : ∀ row ∈ s.row loaded.id, row = current := by
        intro row hrow
        rw [Option.mem_def, hcurrent] at hrow
        exact (Option.some.inj hrow).symm
      by_cases hmine : loaded.key = key
      · subst hmine
        simp only [if_true] at hrows
        cases call with
        | recordQueued m => cases hwrite
        | recordOutcome m args =>
            simp only [Call.recount] at hrows
            have hadds : (Call.recordOutcome m args).adds loaded.key = 0 := rfl
            refine ⟨ledger_of hledger hheld ?_ (Or.inl ⟨?_, ?_⟩), ?_⟩
            · rw [duplicateCount_done]
              omega
            · rw [duplicateCount_done]
              omega
            · omega
            · unfold Tight
              rw [duplicateCount_done, hcount]
              simp only [and_true]
              omega
        | recordDuplicate m streamSeq now =>
            have hadds : (Call.recordDuplicate m streamSeq now).adds loaded.key = 1 :=
              if_pos hcallKey.symm
            simp only [Call.recount] at hrows
            have hseen := hseen rfl
            refine ⟨ledger_of hledger hheld ?_ (Or.inr ?_), ?_⟩
            · rw [duplicateCount_done]
              omega
            · omega
            · unfold Tight
              rw [duplicateCount_done, hcount]
              constructor
              · intro htight
                refine ⟨by omega, ?_⟩
                intro _ row hrow
                rw [hmem row hrow]
                omega
              · intro htight
                have hsame := htight.2 hcallKey.symm current hcurrent
                omega
      · rw [if_neg hmine, if_neg hmine] at hrows
        have hadds : call.adds key = 0 := by
          cases call with
          | recordDuplicate m streamSeq now => exact if_neg (hcallKey ▸ hmine)
          | recordQueued m => rfl
          | recordOutcome m args => rfl
        refine ⟨ledger_of hledger hheld ?_ (Or.inl ⟨?_, ?_⟩), ?_⟩
        · rw [duplicateCount_done]
          omega
        · rw [duplicateCount_done]
          omega
        · omega
        · unfold Tight
          rw [duplicateCount_done, hcount]
          have hcounted : ∀ m : Message, m.key = loaded.key →
              (m.key = key → ∀ row ∈ s.row loaded.id,
                row.duplicateCount = loaded.duplicateCount) := by
            intro m hm hkey'
            exact absurd (hm.symm.trans hkey') hmine
          cases call with
          | recordDuplicate m streamSeq now =>
              rw [and_iff_left (hcounted m hcallKey.symm)]
              omega
          | recordQueued m => cases hwrite
          | recordOutcome m args =>
              simp only [and_true]
              omega

/-- A step keeps the count tight exactly when it is tight before and the step meets the
condition. -/
theorem tight_step {key : Key} {s s' : State n} {e : Event n} (hinv : Inv s)
    (hledger : Ledger key s) (h : step s e = some s') :
    Ledger key s' ∧ (Tight key s' ↔ Tight key s ∧ Counted key s e) := by
  cases e with
  | look c call =>
      simp only [step] at h
      split at h
      · cases h
        refine ⟨ledger_set hledger ?_, (and_iff_left trivial).symm⟩
        intro call' row hheld hkey
        cases hlookup : call.lookup s.rows with
        | none =>
            rw [hlookup] at hheld
            cases hheld
        | some found =>
            rw [hlookup] at hheld
            cases hheld
            obtain ⟨hmem, _, hconstrained⟩ := lookup_eq_some hlookup
            left
            rw [← hkey]
            exact (duplicateCount_of_mem hinv hmem hconstrained).symm
      · cases h
  | flush c => exact tight_flush hledger h
  | commit c => exact tight_commit hinv hledger h
  | fail c =>
      simp only [step] at h
      split at h
      · cases h
      · cases h
        refine ⟨ledger_set hledger ?_, (and_iff_left trivial).symm⟩
        intro call row hheld
        cases hheld

/-- A run ends with a tight count exactly when it starts with one and every step meets the
condition. -/
theorem tight_run {key : Key} {s t : State n} {es : List (Event n)} (hinv : Inv s)
    (hledger : Ledger key s) (hrun : Run step Any s es t) :
    Tight key t ↔ Tight key s ∧ Run step (Counted key) s es t := by
  induction hrun with
  | nil s => exact (and_iff_left (Run.nil s)).symm
  | @cons s e s' es t _ hstep hrest ih =>
      obtain ⟨hledger', htight⟩ := tight_step hinv hledger hstep
      rw [ih (inv_step hinv hstep) hledger', htight]
      constructor
      · intro h
        exact ⟨h.1.1, Run.cons h.1.2 hstep h.2⟩
      · intro h
        cases h.2 with
        | cons hcounted hstep' hrun =>
            rw [hstep] at hstep'
            cases hstep'
            exact ⟨⟨h.1, hcounted⟩, hrun⟩

/-- The duplicates counted for an event are those recorded for it exactly in the runs every
step of which meets the condition; the count of an event with an id is that of its row. -/
theorem duplicate_count_iff {key : Key} {t : State n} {es : List (Event n)}
    (hrun : Run step Any (State.start n) es t) :
    (t.duplicateCount key = t.recorded.count key ↔
      Run step (Counted key) (State.start n) es t) ∧
    (key.constrained → ∀ row ∈ t.rows, row.key = key →
      row.duplicateCount = t.duplicateCount key) := by
  constructor
  · have htight := @tight_run n key _ _ _ inv_start (ledger_start key) hrun
    exact htight.trans (and_iff_right rfl)
  · intro hconstrained row hmem hkey
    subst hkey
    exact (duplicateCount_of_mem (inv_run inv_start hrun) hmem hconstrained).symm

/-- Two redeliveries of an instantiated event, one after the other. -/
theorem redeliveries_counted :
    ∃ t : State 2, Run step Any (State.start 2)
        [.look 0 (orderOutcome .instantiated (some 7)), .flush 0, .commit 0,
          .look 1 (.recordDuplicate orderMessage none 6), .flush 1, .commit 1,
          .look 0 (.recordDuplicate orderMessage none 7), .flush 0, .commit 0] t ∧
      t.recorded.count orderMessage.key = 2 ∧
      Run step (Counted orderMessage.key) (State.start 2)
        [.look 0 (orderOutcome .instantiated (some 7)), .flush 0, .commit 0,
          .look 1 (.recordDuplicate orderMessage none 6), .flush 1, .commit 1,
          .look 0 (.recordDuplicate orderMessage none 7), .flush 0, .commit 0] t := by
  have hruns : ∃ t : State 2, Run step Any (State.start 2)
      [.look 0 (orderOutcome .instantiated (some 7)), .flush 0, .commit 0,
        .look 1 (.recordDuplicate orderMessage none 6), .flush 1, .commit 1,
        .look 0 (.recordDuplicate orderMessage none 7), .flush 0, .commit 0] t ∧
      (t.duplicateCount orderMessage.key, t.recorded.count orderMessage.key) = (2, 2) :=
    run_of_exec_map (by decide)
  obtain ⟨t, hrun, hcounts⟩ := hruns
  simp only [Prod.mk.injEq] at hcounts
  refine ⟨t, hrun, hcounts.2, ?_⟩
  exact (duplicate_count_iff hrun).1.mp (hcounts.1.trans hcounts.2.symm)

/-- Two duplicates that read the same count leave one; and a duplicate whose insert meets
another's row leaves nothing. -/
theorem duplicate_lost :
    (∃ t : State 2, Run step Any (State.start 2)
        [.look 0 (orderOutcome .instantiated (some 7)), .flush 0, .commit 0,
          .look 0 (.recordDuplicate orderMessage none 6),
          .look 1 (.recordDuplicate orderMessage none 6),
          .flush 0, .commit 0, .flush 1, .commit 1] t ∧
      (t.rows.map Row.duplicateCount, t.recorded) =
        ([1], [orderMessage.key, orderMessage.key])) ∧
    ∃ t : State 2, Run step Any (State.start 2)
        [.look 0 (.recordDuplicate orderMessage none 6),
          .look 1 (.recordDuplicate orderMessage none 6),
          .flush 0, .commit 0, .flush 1] t ∧
      (t.rows.map Row.duplicateCount, t.recorded) =
        ([1], [orderMessage.key, orderMessage.key]) :=
  ⟨run_of_exec_map (by decide), run_of_exec_map (by decide)⟩

end M8flow.Nats.Audit
