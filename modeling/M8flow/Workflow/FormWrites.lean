import M8flow.ExternalForm.Outcome
import M8flow.Workflow.Complete

/-!
# What a form can write

`complete` hands core a dictionary that is written over the process data, and
`_process_data` shows the process data without what belongs to the engine: the keys that
start with `__m8f` and `data_objects`.  `complete` keeps only `data_objects` out.

- `isEngineKey` is the rule of `_process_data`.
- `Clean` says that no key of what is handed over is an engine key, `Shown` that what was
  submitted is in the process data afterwards.
- `form_writes_iff` says exactly when a submission is both.
-/

namespace M8flow.Workflow.FormWrites

open M8flow.Lib M8flow.ExternalForm

variable {κ : Type}

/-- `_ENGINE_DATA_KEYS`. -/
def engineDataKeys : List Text := ["data_objects".toList]

/-- The keys that `_process_data` leaves out. -/
def isEngineKey (key : Text) : Bool := "__m8f".toList.isPrefixOf key || key ∈ engineDataKeys

/-- `_process_data`, of the data that core stored. -/
def processData (stored : FormData) : FormData :=
  stored.filter fun entry => !isEngineKey entry.1

/-- The variable that the form of the caller's task collects into. -/
def formVariable (core : Core κ) (tables : κ) (tenantId : String) (workItemId : Nat) :
    Option Text :=
  match core.workItem tables workItemId with
  | none => none
  | some task => if task.m8fTenantId ≠ tenantId then none else userTaskFormVariable task

/-- The dictionary before its values are written as text. -/
def nestedPayload (core : Core κ) (tables : κ) (tenantId : String) (workItemId : Nat)
    (payload : FormData) : FormData :=
  nestPayloadUnderTaskVariable core tables tenantId workItemId
    (payload.filter fun entry => entry.1 ≠ "data_objects".toList)

/-- Core's shallow update with the texts it was handed, each read back. -/
def shallowUpdate (readBack : Text → Json) (stored : FormData) (handed : List (Text × Text)) :
    FormData :=
  mergeFields stored (handed.map fun entry => (entry.1, readBack entry.2))

section Rules

variable (env : Env) (core : Core κ) (tables : κ) (tenantId : String) (workItemId : Nat)
  (payload : FormData)

/-- No key of what core is handed belongs to the engine. -/
def Clean : Prop :=
  ∀ entry ∈ corePayload env core tables tenantId workItemId payload, isEngineKey entry.1 = false

/-- Where a submitted key is collected: under the variable of the form, but for `outcome`. -/
def collectedAt (key : Text) : Text :=
  match formVariable core tables tenantId workItemId with
  | none => key
  | some variableName => if key = "outcome".toList then key else variableName

/-- The value holds a submitted entry: it is the entry's, or collects it by its key. -/
def Holds (entry : Text × Json) (value : Json) : Prop :=
  match formVariable core tables tenantId workItemId with
  | none => value = entry.2
  | some _ =>
      if entry.1 = "outcome".toList then value = entry.2 else value.get? entry.1 = some entry.2

/-- Every submitted variable is in the process data afterwards, whatever was stored before:
the value that holds it was written as text, and is what core read back. -/
def Shown : Prop :=
  ∀ readBack stored, ∀ entry ∈ payload, entry.1 ∉ engineDataKeys →
    ∃ value, Json.field (nestedPayload core tables tenantId workItemId payload)
        (collectedAt core tables tenantId workItemId entry.1) = some value ∧
      Holds core tables tenantId workItemId entry value ∧
      Json.field
        (processData (shallowUpdate readBack stored
          (corePayload env core tables tenantId workItemId payload)))
        (collectedAt core tables tenantId workItemId entry.1) =
          some (readBack (env.stringify value))

/-- The condition: without a form variable no submitted key starts with `__m8f`; with one,
it is no engine key itself, and when it is `outcome` a submitted `outcome` does not take the
place of other variables. -/
def WritesNoEngineState : Prop :=
  match formVariable core tables tenantId workItemId with
  | none => ∀ entry ∈ payload, "__m8f".toList.isPrefixOf entry.1 = false
  | some variableName =>
      isEngineKey variableName = false ∧
        (variableName = "outcome".toList → ∀ outcome,
          Json.field payload "outcome".toList = some outcome →
            ∀ entry ∈ payload, entry.1 ≠ "outcome".toList → entry.1 ∉ engineDataKeys →
              outcome.get? entry.1 = some entry.2)

end Rules

/-! ## What is handed over -/

/-- `update` goes before `base`. -/
theorem field_mergeFields (base update : FormData) (key : Text) :
    Json.field (mergeFields base update) key =
      (Json.field update key).or (Json.field base key) := by
  have hold : Json.field (base.map fun entry =>
      (entry.1, (Json.field update entry.1).getD entry.2)) key =
        (Json.field base key).map fun value => (Json.field update key).getD value := by
    induction base with
    | nil => rfl
    | cons entry base ih =>
        unfold Json.field at ih ⊢
        rw [List.map_cons]
        by_cases hkey : entry.1 = key
        · rw [List.find?_cons_of_pos (by simpa using hkey),
            List.find?_cons_of_pos (by simpa using hkey)]
          dsimp only [Option.map_some]
          rw [hkey]
        · rw [List.find?_cons_of_neg (by simpa using hkey),
            List.find?_cons_of_neg (by simpa using hkey)]
          exact ih
  have hsplit : Json.field (mergeFields base update) key =
      ((Json.field base key).map fun value => (Json.field update key).getD value).or
        (if (Json.field base key).isNone then Json.field update key else none) := by
    rw [← hold, ← Json.field_filter fun name => (Json.field base name).isNone]
    unfold Json.field mergeFields
    rw [List.find?_append, Option.map_or]
    rfl
  rw [hsplit]
  cases Json.field base key with
  | some value =>
      cases Json.field update key with
      | none => rfl
      | some written => rfl
  | none => rw [Option.or_none]; rfl

section Handed

variable {env : Env} {core : Core κ} {tables : κ} {tenantId : String} {workItemId : Nat}
  {payload : FormData}

/-- The keys that are handed over are those of the nested dictionary. -/
theorem clean_iff :
    Clean env core tables tenantId workItemId payload ↔
      ∀ entry ∈ nestedPayload core tables tenantId workItemId payload,
        isEngineKey entry.1 = false := by
  have hhanded : corePayload env core tables tenantId workItemId payload =
      (nestedPayload core tables tenantId workItemId payload).map fun entry =>
        (entry.1, env.stringify entry.2) := rfl
  unfold Clean
  rw [hhanded]
  exact List.forall_mem_map

/-- What is in the process data at a key afterwards. -/
theorem field_processData (readBack : Text → Json) (stored : FormData) (key : Text) :
    Json.field (processData (shallowUpdate readBack stored
        (corePayload env core tables tenantId workItemId payload))) key =
      if isEngineKey key then none
      else
        ((Json.field (nestedPayload core tables tenantId workItemId payload) key).map fun value =>
          readBack (env.stringify value)).or (Json.field stored key) := by
  have hhanded : (corePayload env core tables tenantId workItemId payload).map
      (fun entry => (entry.1, readBack entry.2)) =
        (nestedPayload core tables tenantId workItemId payload).map fun entry =>
          (entry.1, readBack (env.stringify entry.2)) := by
    unfold corePayload nestedPayload
    rw [List.map_map]
    rfl
  unfold processData shallowUpdate
  rw [Json.field_filter fun name => !isEngineKey name, hhanded, field_mergeFields,
    Json.field_map fun value => readBack (env.stringify value)]
  cases isEngineKey key with
  | true => rfl
  | false => rfl

/-- What is shown does not depend on what was stored or how texts are read back. -/
theorem shown_iff :
    Shown env core tables tenantId workItemId payload ↔
      ∀ entry ∈ payload, entry.1 ∉ engineDataKeys →
        isEngineKey (collectedAt core tables tenantId workItemId entry.1) = false ∧
          ∃ value, Json.field (nestedPayload core tables tenantId workItemId payload)
              (collectedAt core tables tenantId workItemId entry.1) = some value ∧
            Holds core tables tenantId workItemId entry value := by
  constructor
  · intro h entry hentry hname
    obtain ⟨value, hvalue, hholds, hshown⟩ := h (fun _ => .null) [] entry hentry hname
    refine ⟨?_, value, hvalue, hholds⟩
    rw [field_processData] at hshown
    by_contra hengine
    rw [Bool.not_eq_false] at hengine
    rw [if_pos hengine] at hshown
    cases hshown
  · intro h readBack stored entry hentry hname
    obtain ⟨hengine, value, hvalue, hholds⟩ := h entry hentry hname
    refine ⟨value, hvalue, hholds, ?_⟩
    rw [field_processData, hengine, if_neg Bool.false_ne_true, hvalue]
    rfl

/-- Without a form variable everything that is kept stays at the top level. -/
theorem nestedPayload_flat (h : formVariable core tables tenantId workItemId = none) :
    nestedPayload core tables tenantId workItemId payload =
      payload.filter fun entry => entry.1 ≠ "data_objects".toList := by
  unfold formVariable at h
  unfold nestedPayload nestPayloadUnderTaskVariable
  cases htask : core.workItem tables workItemId with
  | none => rfl
  | some task =>
      rw [htask] at h
      dsimp only at h ⊢
      split
      · rfl
      · rename_i htenant
        rw [if_neg htenant] at h
        rw [h]

/-- With a form variable there is one key for the form, and `outcome`. -/
theorem nestedPayload_nested {variableName : Text}
    (h : formVariable core tables tenantId workItemId = some variableName) :
    ∃ base, nestedPayload core tables tenantId workItemId payload =
      mergeFields
        [(variableName, .obj (mergeFields base
          ((payload.filter fun entry => entry.1 ≠ "data_objects".toList).filter
            fun entry => entry.1 ≠ "outcome".toList)))]
        ((payload.filter fun entry => entry.1 ≠ "data_objects".toList).filter
          fun entry => entry.1 = "outcome".toList) := by
  unfold formVariable at h
  unfold nestedPayload nestPayloadUnderTaskVariable
  cases htask : core.workItem tables workItemId with
  | none =>
      rw [htask] at h
      cases h
  | some task =>
      rw [htask] at h
      dsimp only at h ⊢
      split
      · rename_i htenant
        rw [if_pos htenant] at h
        cases h
      · rename_i htenant
        rw [if_neg htenant] at h
        rw [h]
        exact ⟨_, rfl⟩

end Handed

section Condition

variable {env : Env} {core : Core κ} {tables : κ} {tenantId : String} {workItemId : Nat}
  {payload : FormData}

theorem isEngineKey_outcome : isEngineKey "outcome".toList = false := by decide

theorem not_mem_engineDataKeys {key : Text} :
    key ∉ engineDataKeys ↔ key ≠ "data_objects".toList := by
  unfold engineDataKeys
  rw [List.mem_singleton]

/-- Outside the engine's names the prefix decides. -/
theorem isEngineKey_of_not_mem {key : Text} (h : key ∉ engineDataKeys) :
    isEngineKey key = "__m8f".toList.isPrefixOf key := by
  unfold isEngineKey
  rw [decide_eq_false h, Bool.or_false]

/-- The entries that `complete` keeps, at a key. -/
theorem field_kept {key : Text} (h : key ∉ engineDataKeys) :
    Json.field (payload.filter fun entry => entry.1 ≠ "data_objects".toList) key =
      Json.field payload key := by
  rw [Json.field_filter fun name => name ≠ "data_objects".toList,
    if_pos (decide_eq_true (not_mem_engineDataKeys.mp h))]

/-- What a form with a variable hands over, at a key. -/
theorem field_nested {variableName : Text} {base : FormData} {key : Text} :
    Json.field (mergeFields
        [(variableName, .obj (mergeFields base
          ((payload.filter fun entry => entry.1 ≠ "data_objects".toList).filter
            fun entry => entry.1 ≠ "outcome".toList)))]
        ((payload.filter fun entry => entry.1 ≠ "data_objects".toList).filter
          fun entry => entry.1 = "outcome".toList)) key =
      (if key = "outcome".toList then Json.field payload "outcome".toList else none).or
        (if variableName = key then
          some (.obj (mergeFields base
            ((payload.filter fun entry => entry.1 ≠ "data_objects".toList).filter
              fun entry => entry.1 ≠ "outcome".toList)))
        else none) := by
  rw [field_mergeFields, Json.field_filter fun name => name = "outcome".toList]
  congr 1
  · by_cases hkey : key = "outcome".toList
    · rw [if_pos (decide_eq_true hkey), if_pos hkey, hkey, field_kept (by decide)]
    · rw [if_neg (by simpa using hkey), if_neg hkey]
  · unfold Json.field
    by_cases hkey : variableName = key
    · rw [List.find?_cons_of_pos (by simpa using hkey), if_pos hkey]
      rfl
    · rw [List.find?_cons_of_neg (by simpa using hkey), if_neg hkey]
      rfl

/-- The condition without a form variable. -/
theorem flat_iff (hflat : formVariable core tables tenantId workItemId = none)
    (hkeys : (payload.map Prod.fst).Nodup) :
    Clean env core tables tenantId workItemId payload ∧
        Shown env core tables tenantId workItemId payload ↔
      ∀ entry ∈ payload, "__m8f".toList.isPrefixOf entry.1 = false := by
  rw [clean_iff, shown_iff, nestedPayload_flat hflat]
  constructor
  · intro h entry hentry
    by_cases hname : entry.1 ∈ engineDataKeys
    · rw [List.mem_singleton.mp hname]
      decide
    · have hin : entry ∈ payload.filter fun entry => entry.1 ≠ "data_objects".toList :=
        List.mem_filter.mpr ⟨hentry, decide_eq_true (not_mem_engineDataKeys.mp hname)⟩
      rw [← isEngineKey_of_not_mem hname]
      exact h.1 entry hin
  · intro h
    constructor
    · intro entry hentry
      obtain ⟨hin, hname⟩ := List.mem_filter.mp hentry
      rw [isEngineKey_of_not_mem (not_mem_engineDataKeys.mpr (of_decide_eq_true hname))]
      exact h entry hin
    · intro entry hentry hname
      have hat : collectedAt core tables tenantId workItemId entry.1 = entry.1 := by
        unfold collectedAt
        rw [hflat]
      rw [hat, isEngineKey_of_not_mem hname, field_kept hname]
      refine ⟨h entry hentry, entry.2, Json.field_of_mem hkeys hentry, ?_⟩
      unfold Holds
      rw [hflat]

/-- The condition with one. -/
theorem nested_iff {variableName : Text}
    (hvariable : formVariable core tables tenantId workItemId = some variableName)
    (hkeys : (payload.map Prod.fst).Nodup) :
    Clean env core tables tenantId workItemId payload ∧
        Shown env core tables tenantId workItemId payload ↔
      isEngineKey variableName = false ∧
        (variableName = "outcome".toList → ∀ outcome,
          Json.field payload "outcome".toList = some outcome →
            ∀ entry ∈ payload, entry.1 ≠ "outcome".toList → entry.1 ∉ engineDataKeys →
              outcome.get? entry.1 = some entry.2) := by
  obtain ⟨base, hnested⟩ := @nestedPayload_nested κ core tables tenantId workItemId payload variableName hvariable
  have hcollected : ∀ entry : Text × Json, entry.1 ≠ "outcome".toList →
      collectedAt core tables tenantId workItemId entry.1 = variableName := by
    intro entry hne
    unfold collectedAt
    rw [hvariable]
    exact if_neg hne
  have hholds : ∀ (entry : Text × Json) value, entry.1 ≠ "outcome".toList →
      (Holds core tables tenantId workItemId entry value ↔ value.get? entry.1 = some entry.2) := by
    intro entry value hne
    unfold Holds
    rw [hvariable]
    dsimp only
    rw [if_neg hne]
  rw [clean_iff, shown_iff, hnested]
  constructor
  · intro h
    obtain ⟨hclean, hshown⟩ := h
    constructor
    · -- the variable itself is always handed over
      have hfield := @field_nested payload variableName base variableName
      rw [if_pos rfl] at hfield
      cases hvalue : Json.field (mergeFields _ _) variableName with
      | none =>
          rw [hvalue] at hfield
          exact absurd (Option.or_eq_none_iff.mp hfield.symm).2 (Option.some_ne_none _)
      | some value => exact hclean _ (Json.mem_of_field hvalue)
    · intro hname outcome houtcome entry hentry hne hkey
      obtain ⟨-, value, hvalue, hheld⟩ := hshown entry hentry hkey
      rw [hcollected entry hne, field_nested, if_pos hname, houtcome, Option.some_or] at hvalue
      rw [Option.some.inj hvalue]
      exact (hholds entry value hne).mp hheld
  · intro h
    obtain ⟨hengine, hcondition⟩ := h
    constructor
    · intro entry hentry
      unfold mergeFields at hentry
      rcases List.mem_append.mp hentry with hin | hin
      · rw [List.map_singleton, List.mem_singleton] at hin
        rw [hin]
        exact hengine
      · have hname := (List.mem_filter.mp (List.mem_filter.mp hin).1).2
        rw [of_decide_eq_true hname]
        exact isEngineKey_outcome
    · intro entry hentry hkey
      have hsent : Json.field payload entry.1 = some entry.2 := Json.field_of_mem hkeys hentry
      by_cases hout : entry.1 = "outcome".toList
      · have hat : collectedAt core tables tenantId workItemId entry.1 = "outcome".toList := by
          unfold collectedAt
          rw [hvariable]
          dsimp only
          rw [if_pos hout, hout]
        rw [hat]
        refine ⟨isEngineKey_outcome, entry.2, ?_, ?_⟩
        · rw [field_nested, if_pos rfl, ← hout, hsent, Option.some_or]
        · unfold Holds
          rw [hvariable]
          dsimp only
          rw [if_pos hout]
      · rw [hcollected entry hout]
        refine ⟨hengine, ?_⟩
        have hinner : Json.field (mergeFields base
            ((payload.filter fun entry => entry.1 ≠ "data_objects".toList).filter
              fun entry => entry.1 ≠ "outcome".toList)) entry.1 = some entry.2 := by
          rw [field_mergeFields, Json.field_filter fun name => name ≠ "outcome".toList,
            if_pos (decide_eq_true hout), field_kept hkey, hsent, Option.some_or]
        have hfield := @field_nested payload variableName base variableName
        rw [if_pos rfl] at hfield
        by_cases hname : variableName = "outcome".toList
        · cases houtcome : Json.field payload "outcome".toList with
          | none =>
              rw [if_pos hname, houtcome, Option.none_or] at hfield
              exact ⟨_, hfield, (hholds entry _ hout).mpr hinner⟩
          | some outcome =>
              rw [if_pos hname, houtcome, Option.some_or] at hfield
              exact ⟨_, hfield, (hholds entry _ hout).mpr
                (hcondition hname outcome houtcome entry hentry hout hkey)⟩
        · rw [if_neg hname, Option.none_or] at hfield
          exact ⟨_, hfield, (hholds entry _ hout).mpr hinner⟩

end Condition

/-- For every task, form variable and payload: what core is handed has no engine key, and
every submitted variable is in the process data afterwards, exactly when no submitted key
reaches the top level under an engine name and no `outcome` takes the form's place. -/
theorem form_writes_iff (env : Env) (core : Core κ) (tables : κ) (tenantId : String)
    (workItemId : Nat) (payload : FormData) (hkeys : (payload.map Prod.fst).Nodup) :
    Clean env core tables tenantId workItemId payload ∧
        Shown env core tables tenantId workItemId payload ↔
      WritesNoEngineState core tables tenantId workItemId payload := by
  unfold WritesNoEngineState
  cases hvariable : formVariable core tables tenantId workItemId with
  | none => exact flat_iff hvariable hkeys
  | some variableName => exact nested_iff hvariable hkeys

/-- A task that is completed in the app, with a form that names no variable. -/
def plainTask : WorkItem where
  id := 1
  m8fTenantId := "t1"
  processInstanceId := 7
  taskGuid := "review"
  completed := false
  propertiesJson := .ok .null
  jsonMetadata := .null
  potentialOwners := []

/-- Its only table. -/
def plainDb : Db (List WorkItem) := { core := [plainTask], rows := [], errors := [] }

theorem form_writes_amount :
    Clean quietEnv listCore plainDb.core "t1" 1 [("amount".toList, .num 5)] ∧
        Shown quietEnv listCore plainDb.core "t1" 1 [("amount".toList, .num 5)] ↔
      WritesNoEngineState listCore plainDb.core "t1" 1 [("amount".toList, .num 5)] :=
  form_writes_iff quietEnv listCore plainDb.core "t1" 1 [("amount".toList, .num 5)] (by decide)

/-- The completion of `plainTask` that submits core's own key is accepted, and core is
handed the key. -/
theorem engine_state_submitted :
    ∃ (env : Env) (core : Core (List WorkItem)) (db : Db (List WorkItem)) (payload : FormData),
      (∃ instanceId after, complete env core "t1" 1 11 (some payload) (Session.start db) =
        (.ok instanceId, after)) ∧
      ¬ Clean env core db.core "t1" 1 payload := by
  refine ⟨quietEnv, listCore, plainDb, [("__m8f_workflow_state_json".toList, .str [])], ?_, ?_⟩
  · exact ⟨7, _, rfl⟩
  · intro hclean
    have hkey := hclean ("__m8f_workflow_state_json".toList, []) (by decide)
    exact absurd hkey (by decide)

end M8flow.Workflow.FormWrites
