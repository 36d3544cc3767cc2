import M8flow.Lib.Dict
import M8flow.Lib.Text
import Mathlib.Data.List.Perm.Subperm
import Mathlib.Logic.Relation

/-!
# The data of one task

`_task_data_from_workflow_state`: the serialized workflow keeps the data of a task as a
delta on its parent's, and the function walks up to a task with full data and replays the
deltas on the way back.

- `Serialized`: a table of tasks whose records encode the full data of each, with parent
  links that do not go round.
- `collectChain_isSome`: the walk ends, after at most as many tasks as the table has.
- `replay_collected`: what is replayed along the walk is the full data.
- `task_data_replayed`: the function on any task of any serialized state.
-/

namespace M8flow.Workflow.TaskData

open M8flow.Lib

variable {ν : Type*}

/-- `task["delta"]`, when it is a dictionary that is not empty; the fields can be absent. -/
structure DeltaRecord (ν : Type*) where
  updates : Option (Dict Text ν)
  deletions : Option (List Text)

/-- One serialized task: what the function reads of it. -/
structure TaskRecord (ν : Type*) where
  parent : Option Text
  data : Option (Dict Text ν)
  delta : Option (DeltaRecord ν)

/-- The tasks of one process by guid. -/
abbrev TaskTable (ν : Type*) := Dict Text (TaskRecord ν)

/-- The workflow state that `json.loads` reads: the tasks of the process and of its
subprocesses. -/
structure WorkflowState (ν : Type*) where
  tasks : Option (TaskTable ν)
  subprocesses : Option (Dict Text (Option (TaskTable ν)))

/-- `(state, *(state.get("subprocesses") or {}).values())`, each with its `tasks`. -/
def WorkflowState.tables (state : WorkflowState ν) : List (TaskTable ν) :=
  (state.tasks :: (state.subprocesses.getD Dict.empty).values).map fun tasks =>
    tasks.getD Dict.empty

/-- `while guid in tasks`: the tasks from one up, in fuel; `none` when it runs out. -/
def collectChain (tasks : TaskTable ν) : (fuel : Nat) → Option Text → List (TaskRecord ν) →
    Option (List (TaskRecord ν))
  | 0, _, _ => none
  | fuel + 1, guid, chain =>
      match guid.bind tasks.get? with
      | none => some chain
      | some task => collectChain tasks fuel task.parent (chain ++ [task])

/-- The body of the `for` loop. -/
def replayTask (data : Dict Text ν) (task : TaskRecord ν) : Dict Text ν :=
  match task.delta with
  | none => task.data.getD Dict.empty
  | some delta =>
      (delta.deletions.getD []).foldl Dict.pop (data.merge (delta.updates.getD Dict.empty))

/-- From the full data of the last task of the chain, back along the others. -/
def replay (chain : List (TaskRecord ν)) : Dict Text ν :=
  match chain.reverse with
  | [] => Dict.empty
  | root :: rest => rest.foldl replayTask (root.data.getD Dict.empty)

/-- The outer loop: the first table with the task decides. -/
def searchTables (fuel : Nat) (taskGuid : Text) : List (TaskTable ν) → Option (Dict Text ν)
  | [] => some Dict.empty
  | tasks :: rest =>
      match collectChain tasks fuel (some taskGuid) [] with
      | none => none
      | some chain => if chain.isEmpty then searchTables fuel taskGuid rest else some (replay chain)

/-- `_task_data_from_workflow_state`; without an instance or a state the data is empty. -/
def taskDataFromWorkflowState (fuel : Nat) (state : Option (WorkflowState ν)) (taskGuid : Text) :
    Option (Dict Text ν) :=
  match state with
  | none => some Dict.empty
  | some state => searchTables fuel taskGuid state.tables

/-! ## Serialized tables -/

/-- The parent's record is in the same table. -/
def ParentOf (tasks : TaskTable ν) (child parent : Text) : Prop :=
  ∃ task, tasks.get? child = some task ∧ task.parent = some parent ∧ parent ∈ tasks.keys

/-- No task is above itself. -/
def Acyclic (tasks : TaskTable ν) : Prop := ∀ guid, ¬ Relation.TransGen (ParentOf tasks) guid guid

/-- The two fields of a delta that is there. -/
def DeltaRecord.delta (record : DeltaRecord ν) : Delta Text ν where
  updates := record.updates.getD Dict.empty
  deletions := record.deletions.getD []

/-- The record of a task encodes its data: relative to the parent's, or in full. -/
inductive Encodes (tasks : TaskTable ν) (full : Text → Dict Text ν) (task : TaskRecord ν) :
    Dict Text ν → Prop where
  /-- No parent in the table: the data itself. -/
  | root {data : Dict Text ν} (hroot : ∀ parent, task.parent = some parent → parent ∉ tasks.keys)
      (hdata : (task.data.getD Dict.empty).Same data) : Encodes tasks full task data
  /-- No delta: the data itself. -/
  | whole {data : Dict Text ν} (hdelta : task.delta = none)
      (hdata : (task.data.getD Dict.empty).Same data) : Encodes tasks full task data
  | relative {data : Dict Text ν} {parent : Text} {delta : DeltaRecord ν}
      (hparent : task.parent = some parent) (hmem : parent ∈ tasks.keys)
      (hdelta : task.delta = some delta) (hbetween : delta.delta.Between (full parent) data) :
      Encodes tasks full task data

/-- A table that the serializer wrote of tasks with the data `full`. -/
structure Serialized (tasks : TaskTable ν) (full : Text → Dict Text ν) : Prop where
  acyclic : Acyclic tasks
  encodes : ∀ guid task, tasks.get? guid = some task → Encodes tasks full task (full guid)

variable {tasks : TaskTable ν} {full : Text → Dict Text ν}

/-! ## Writing a table -/

/-- A task with its data. -/
structure Task (ν : Type*) where
  parent : Option Text
  data : Dict Text ν

/-- The record of one task among the others: full data without a parent among them, else
the smallest delta on the parent's data. -/
def encodeTask [DecidableEq ν] (all : Dict Text (Task ν)) (task : Task ν) : TaskRecord ν :=
  match task.parent.bind all.get? with
  | none => { parent := task.parent, data := some task.data, delta := none }
  | some above =>
      { parent := task.parent
        data := none
        delta := some
          { updates := some (Delta.diff above.data task.data).updates
            deletions := some (Delta.diff above.data task.data).deletions } }

/-- The table of all records. -/
def encodeTasks [DecidableEq ν] (all : Dict Text (Task ν)) : TaskTable ν :=
  all.mapValues (encodeTask all)

/-- The data of the task with a guid. -/
def dataOf (all : Dict Text (Task ν)) (guid : Text) : Dict Text ν :=
  ((all.get? guid).map Task.data).getD Dict.empty

theorem encodeTask_parent [DecidableEq ν] (all : Dict Text (Task ν)) (task : Task ν) :
    (encodeTask all task).parent = task.parent := by
  unfold encodeTask
  split <;> rfl

/-- Tasks whose parents have a smaller rank are not above themselves. -/
theorem acyclic_of_rank (rank : Text → Nat)
    (h : ∀ child parent, ParentOf tasks child parent → rank parent < rank child) :
    Acyclic tasks := by
  have hdown : ∀ guid above, Relation.TransGen (ParentOf tasks) guid above →
      rank above < rank guid := by
    intro guid above hchain
    induction hchain with
    | single hstep => exact h _ _ hstep
    | tail _ hstep ih => exact Nat.lt_trans (h _ _ hstep) ih
  intro guid hcycle
  exact Nat.lt_irrefl _ (hdown guid guid hcycle)

/-- Whatever tasks without a cycle are written, the table encodes them. -/
theorem serialized_encodeTasks [DecidableEq ν] {all : Dict Text (Task ν)}
    (hacyclic : Acyclic (encodeTasks all)) : Serialized (encodeTasks all) (dataOf all) where
  acyclic := hacyclic
  encodes := by
    intro guid record hrecord
    unfold encodeTasks at hrecord
    rw [Dict.get?_mapValues] at hrecord
    obtain ⟨task, htask, hencoded⟩ := Option.map_eq_some_iff.mp hrecord
    have hdata : dataOf all guid = task.data := by
      unfold dataOf
      rw [htask]
      rfl
    rw [hdata, ← hencoded]
    cases habove : task.parent.bind all.get? with
    | none =>
        apply Encodes.root
        · intro parent hparent hmem
          rw [encodeTask_parent] at hparent
          rw [hparent, Option.bind_some] at habove
          unfold encodeTasks at hmem
          rw [Dict.keys_mapValues] at hmem
          exact Dict.get?_eq_none.mp habove hmem
        · unfold encodeTask
          rw [habove]
          exact Dict.Same.refl _
    | some above =>
        obtain ⟨parent, hparent, hget⟩ := Option.bind_eq_some_iff.mp habove
        have hfull : dataOf all parent = above.data := by
          unfold dataOf
          rw [hget]
          rfl
        have hdelta : (encodeTask all task).delta = some
            { updates := some (Delta.diff above.data task.data).updates
              deletions := some (Delta.diff above.data task.data).deletions } := by
          unfold encodeTask
          rw [habove]
        refine Encodes.relative ((encodeTask_parent all task).trans hparent) ?_ hdelta ?_
        · unfold encodeTasks
          rw [Dict.keys_mapValues]
          exact Dict.mem_keys_of_get? hget
        · rw [hfull]
          exact Delta.diff_between above.data task.data

/-! ## The walk ends -/

/-- The walk does not run out of fuel: the tasks that were passed are below the next one,
so none of them comes again, and there are only so many. -/
theorem collectChain_isSome (hacyclic : Acyclic tasks) (fuel : Nat) (guid : Option Text)
    (passed : List Text) (hnodup : passed.Nodup) (hpassed : ∀ other ∈ passed, other ∈ tasks.keys)
    (hbelow : ∀ other ∈ passed, ∀ next, guid = some next → next ∈ tasks.keys →
      Relation.TransGen (ParentOf tasks) other next)
    (hfuel : tasks.keys.length < passed.length + fuel) (chain : List (TaskRecord ν)) :
    (collectChain tasks fuel guid chain).isSome := by
  induction fuel generalizing guid passed chain with
  | zero =>
      have hlength := (List.subperm_of_subset hnodup hpassed).length_le
      omega
  | succ fuel ih =>
      unfold collectChain
      cases hguid : guid with
      | none => rfl
      | some next =>
          rw [Option.bind_some]
          cases htask : tasks.get? next with
          | none => rfl
          | some task =>
              have hmem : next ∈ tasks.keys := Dict.mem_keys_of_get? htask
              have hfresh : next ∉ passed := fun hin =>
                hacyclic next (hbelow next hin next hguid hmem)
              apply ih task.parent (next :: passed) (List.nodup_cons.mpr ⟨hfresh, hnodup⟩)
              · intro other hother
                rcases List.mem_cons.mp hother with hsame | hin
                · exact hsame ▸ hmem
                · exact hpassed other hin
              · intro other hother above habove hkeys
                have hstep : ParentOf tasks next above := ⟨task, htask, habove, hkeys⟩
                rcases List.mem_cons.mp hother with hsame | hin
                · exact hsame ▸ Relation.TransGen.single hstep
                · exact (hbelow other hin next hguid hmem).tail hstep
              · rw [List.length_cons]
                omega

/-! ## The replay -/

theorem replay_singleton (task : TaskRecord ν) : replay [task] = task.data.getD Dict.empty := rfl

/-- The first task of a chain is replayed on what the rest gives. -/
theorem replay_cons (task : TaskRecord ν) {rest : List (TaskRecord ν)} (hne : rest ≠ []) :
    replay (task :: rest) = replayTask (replay rest) task := by
  unfold replay
  rw [List.reverse_cons]
  cases hrest : rest.reverse with
  | nil => exact absurd (List.reverse_eq_nil_iff.mp hrest) hne
  | cons root others =>
      rw [List.cons_append]
      dsimp only
      rw [List.foldl_append]
      rfl

/-- One task is replayed on its parent's data. -/
theorem replayTask_same {guid parent : Text} {task : TaskRecord ν} {above : Dict Text ν}
    (hencodes : Encodes tasks full task (full guid)) (hparent : task.parent = some parent)
    (hmem : parent ∈ tasks.keys) (habove : above.Same (full parent)) :
    (replayTask above task).Same (full guid) := by
  unfold replayTask
  cases hencodes with
  | root hroot hdata => exact absurd hmem (hroot parent hparent)
  | whole hdelta hdata =>
      rw [hdelta]
      exact hdata
  | relative hparent' hmem' hdelta hbetween =>
      rw [hparent] at hparent'
      cases hparent'
      rw [hdelta]
      exact Delta.apply_same hbetween habove

/-- A task without a parent in the table has its data in full. -/
theorem root_same {guid : Text} {task : TaskRecord ν}
    (hencodes : Encodes tasks full task (full guid))
    (hroot : ∀ parent, task.parent = some parent → parent ∉ tasks.keys) :
    (task.data.getD Dict.empty).Same (full guid) := by
  cases hencodes with
  | root _ hdata => exact hdata
  | whole _ hdata => exact hdata
  | relative hparent hmem _ _ => exact absurd hmem (hroot _ hparent)

/-- What the walk collects from a task on, replayed, is the task's data; from elsewhere it
collects nothing. -/
theorem replay_collected (hserialized : Serialized tasks full) {fuel : Nat} {guid : Option Text}
    {chain collected : List (TaskRecord ν)}
    (h : collectChain tasks fuel guid chain = some collected) :
    ∃ own, collected = chain ++ own ∧
      ((∀ next, guid = some next → next ∉ tasks.keys) → own = []) ∧
      ∀ next, guid = some next → next ∈ tasks.keys →
        own ≠ [] ∧ (replay own).Same (full next) := by
  induction fuel generalizing guid chain with
  | zero => cases h
  | succ fuel ih =>
      unfold collectChain at h
      cases hfound : guid.bind tasks.get? with
      | none =>
          rw [hfound] at h
          refine ⟨[], ?_, fun _ => rfl, ?_⟩
          · rw [List.append_nil]
            exact (Option.some.inj h).symm
          · intro next hnext hmem
            rw [hnext, Option.bind_some] at hfound
            exact absurd hmem (Dict.get?_eq_none.mp hfound)
      | some task =>
          obtain ⟨next, hguid, htask⟩ := Option.bind_eq_some_iff.mp hfound
          rw [hfound] at h
          obtain ⟨rest, hcollected, hstop, hrest⟩ := ih h
          refine ⟨task :: rest, ?_, ?_, ?_⟩
          · rw [hcollected, List.append_assoc, List.singleton_append]
          · intro houtside
            exact absurd (Dict.mem_keys_of_get? htask) (houtside next hguid)
          · intro other hother _
            rw [hguid] at hother
            cases hother
            refine ⟨List.cons_ne_nil _ _, ?_⟩
            have hencodes := hserialized.encodes next task htask
            by_cases habove : ∃ parent, task.parent = some parent ∧ parent ∈ tasks.keys
            · obtain ⟨parent, hparent, hmem⟩ := habove
              obtain ⟨hne, hsame⟩ := hrest parent hparent hmem
              rw [replay_cons task hne]
              exact replayTask_same hencodes hparent hmem hsame
            · have hroot : ∀ parent, task.parent = some parent → parent ∉ tasks.keys :=
                fun parent hparent hmem => habove ⟨parent, hparent, hmem⟩
              rw [hstop hroot, replay_singleton]
              exact root_same hencodes hroot

/-! ## The function -/

/-- The number of tasks in all tables. -/
def WorkflowState.size (state : WorkflowState ν) : Nat := (state.tables.flatMap Dict.keys).length

theorem length_keys_le_size {state : WorkflowState ν} {tasks : TaskTable ν}
    (h : tasks ∈ state.tables) : tasks.keys.length ≤ state.size := by
  obtain ⟨before, after, htables⟩ := List.append_of_mem h
  unfold WorkflowState.size
  rw [htables, List.flatMap_append, List.flatMap_cons, List.length_append, List.length_append]
  omega

theorem searchTables_replays {tables : List (TaskTable ν)} {full : Text → Dict Text ν}
    (hserialized : ∀ tasks ∈ tables, Serialized tasks full) {guid : Text} {fuel : Nat}
    (hfuel : ∀ tasks ∈ tables, tasks.keys.length < fuel)
    (hmem : ∃ tasks ∈ tables, guid ∈ tasks.keys) :
    ∃ data, searchTables fuel guid tables = some data ∧ data.Same (full guid) := by
  induction tables with
  | nil =>
      obtain ⟨tasks, hin, -⟩ := hmem
      cases hin
  | cons tasks rest ih =>
      have hfirst := hserialized tasks List.mem_cons_self
      have hends : (collectChain tasks fuel (some guid) []).isSome := by
        apply collectChain_isSome hfirst.acyclic fuel (some guid) [] List.nodup_nil
        · intro other hother
          cases hother
        · intro other hother
          cases hother
        · rw [List.length_nil, Nat.zero_add]
          exact hfuel tasks List.mem_cons_self
      obtain ⟨chain, hchain⟩ := Option.isSome_iff_exists.mp hends
      obtain ⟨own, hown, hstop, hreplay⟩ := replay_collected hfirst hchain
      rw [List.nil_append] at hown
      subst hown
      unfold searchTables
      rw [hchain]
      dsimp only
      by_cases hhere : guid ∈ tasks.keys
      · obtain ⟨hne, hsame⟩ := hreplay guid rfl hhere
        rw [List.isEmpty_eq_false_iff.mpr hne, if_neg Bool.false_ne_true]
        exact ⟨_, rfl, hsame⟩
      · have hnil : chain = [] := by
          apply hstop
          intro next hnext
          cases hnext
          exact hhere
        rw [hnil, List.isEmpty_nil, if_pos rfl]
        apply ih (fun other hin => hserialized other (List.mem_cons_of_mem _ hin))
          (fun other hin => hfuel other (List.mem_cons_of_mem _ hin))
        obtain ⟨found, hin, hkeys⟩ := hmem
        rcases List.mem_cons.mp hin with hsame | hlater
        · exact absurd (hsame ▸ hkeys) hhere
        · exact ⟨found, hlater, hkeys⟩

/-- For every state whose tables the serializer wrote, and every task of it, the function
ends and returns the task's full data. -/
theorem task_data_replayed (state : WorkflowState ν) (full : Text → Dict Text ν)
    (hserialized : ∀ tasks ∈ state.tables, Serialized tasks full) (taskGuid : Text)
    (hmem : ∃ tasks ∈ state.tables, taskGuid ∈ tasks.keys) :
    ∃ enough, ∀ fuel, enough ≤ fuel → ∃ data,
      taskDataFromWorkflowState fuel (some state) taskGuid = some data ∧
        data.Same (full taskGuid) := by
  refine ⟨state.size + 1, ?_⟩
  intro fuel hfuel
  apply searchTables_replays hserialized _ hmem
  intro tasks hin
  have hle := length_keys_le_size hin
  omega

/-- A process whose script task added `total` to what the start had, and whose form then
replaced `total` and dropped `draft`. -/
def orderTasks : Dict Text (Task Nat) where
  entries := [
    ("root".toList, { parent := none, data := ⟨[("draft".toList, 1)], by decide⟩ }),
    ("script".toList, { parent := some "root".toList
                        data := ⟨[("draft".toList, 1), ("total".toList, 20)], by decide⟩ }),
    ("form".toList, { parent := some "script".toList
                      data := ⟨[("total".toList, 25)], by decide⟩ })]
  keys_nodup := by decide

/-- The state of that process. -/
def orderState : WorkflowState Nat where
  tasks := some (encodeTasks orderTasks)
  subprocesses := none

example : (taskDataFromWorkflowState 4 (some orderState) "form".toList).map Dict.entries =
    some [("total".toList, 25)] := by decide

/-- The three tasks in their order. -/
theorem acyclic_orderTasks : Acyclic (encodeTasks orderTasks) := by
  apply acyclic_of_rank fun guid =>
    if guid = "root".toList then 0 else if guid = "script".toList then 1 else 2
  intro child parent hparent
  obtain ⟨task, htask, hup, -⟩ := hparent
  have hmem := Dict.get?_eq_some.mp htask
  have hentries : (encodeTasks orderTasks).entries.all fun entry =>
      entry.2.parent.all fun parent =>
        (if parent = "root".toList then 0 else if parent = "script".toList then 1 else 2) <
          (if entry.1 = "root".toList then 0 else if entry.1 = "script".toList then 1 else 2) := by
    decide
  have hentry := List.all_eq_true.mp hentries _ hmem
  rw [hup] at hentry
  exact of_decide_eq_true hentry

theorem order_task_data_replayed :
    ∃ enough, ∀ fuel, enough ≤ fuel → ∃ data,
      taskDataFromWorkflowState fuel (some orderState) "form".toList = some data ∧
        data.Same (dataOf orderTasks "form".toList) := by
  apply task_data_replayed orderState (dataOf orderTasks)
  · intro tasks hin
    have hsame : tasks = encodeTasks orderTasks := List.mem_singleton.mp hin
    rw [hsame]
    exact serialized_encodeTasks acyclic_orderTasks
  · exact ⟨encodeTasks orderTasks, List.mem_singleton_self _, by decide⟩

end M8flow.Workflow.TaskData
