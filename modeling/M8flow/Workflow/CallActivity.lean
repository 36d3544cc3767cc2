import M8flow.Catalog.Identifiers
import M8flow.Lib.Dict
import M8flow.Lib.Paging
import M8flow.Lib.Results
import M8flow.Lib.Run
import M8flow.Lib.Table
import Mathlib.Data.List.Perm.Subperm
import Mathlib.Data.Prod.Lex

/-!
# The index of called processes

A call activity names a BPMN process; `_call_activity_definition_index` says which stored
definitions of the tenant declare it.  The index is cached for each database and tenant
under a signature of the table: the number of rows and the largest id, creation time and
update time.

- `buildIndex` is the index of a table, and `callActivityDefinitionIndex` the function with
  its cache.
- `perm_of_signature`: a table that was changed since, with later update times, does not
  have the signature of the old one.
- `Inv`: what every cache entry says of the table that it was built from; `inv_step` keeps it.
- `mem_referencesOf`: the index at a process id.
- `resolve_sound`, `resolve_complete`: what the resolver makes of the index.
- `call_activity_index_transparent`: the two together, in every state of every run.
-/

namespace M8flow.Workflow.CallActivity

open M8flow.Lib M8flow.Catalog

/-! ## Definitions -/

/-- `BpmnProcessDefinitionModel`. -/
structure DefinitionRow where
  id : Nat
  m8fTenantId : Text
  bpmnIdentifier : Text
  processModelIdentifier : Option Text
  sourceBpmnXml : Option Text
  sourceDmnXml : Option Text
  createdAt : Option Int
  updatedAt : Int
  deriving DecidableEq

/-- `created_at.desc().nulls_last(), id.desc()`, as a key that ascends. -/
def newestFirst (row : DefinitionRow) : Bool ×ₗ Int ×ₗ Int :=
  toLex (row.createdAt.isNone, toLex (-(row.createdAt.getD 0), -(row.id : Int)))

/-- `_CallActivityDefinitionReference`. -/
structure Reference where
  definitionId : Nat
  modelIdentifier : Text
  bpmnIdentifier : Text
  deriving DecidableEq

/-- `_CallActivityMalformedDefinition`. -/
structure Malformed where
  modelIdentifier : Text
  bpmnIdentifier : Text
  parseError : Text

/-- `_CallActivityDefinitionIndex`. -/
structure Index where
  processIds : Dict Text (List Reference)
  malformed : Dict Text Malformed

/-- `process_id_index.get(process_id, ())`. -/
def Index.referencesOf (index : Index) (processId : Text) : List Reference :=
  (index.processIds.get? processId).getD []

/-- `setdefault(process_id, []).append(reference)`. -/
def Index.append (index : Index) (processId : Text) (reference : Reference) : Index :=
  { index with
    processIds := index.processIds.set processId (index.referencesOf processId ++ [reference]) }

/-- The ids of the process elements of a document, those that are not empty. -/
def declaredProcesses (root : XmlElement) : List Text :=
  (root.iter.filter fun element => element.localName = "process".toList).filterMap fun element =>
    truthy (element.get? "id")

/-- The parser: a document, or the text of its error. -/
abbrev Parser := Text → Except Text XmlElement

/-- The reference to a row of a model. -/
def DefinitionRow.reference (row : DefinitionRow) (model : Text) : Reference where
  definitionId := row.id
  modelIdentifier := model
  bpmnIdentifier := row.bpmnIdentifier

/-- The loop body over the definitions. -/
def indexDefinition (parse : Parser) (index : Index) (row : DefinitionRow) : Index :=
  match truthy row.sourceBpmnXml, truthy row.processModelIdentifier with
  | some xml, some model =>
      match parse xml with
      | .error message =>
          { index with
            malformed := index.malformed.setDefault model
              { modelIdentifier := model, bpmnIdentifier := row.bpmnIdentifier
                parseError := message } }
      | .ok root =>
          (declaredProcesses root).foldl
            (fun index processId => index.append processId (row.reference model)) index
  | _, _ => index

/-- The index of the rows of a tenant, newest first. -/
def buildIndex (parse : Parser) (rows : List DefinitionRow) : Index :=
  (Paging.sortBy newestFirst rows).foldl (indexDefinition parse)
    { processIds := Dict.empty, malformed := Dict.empty }

/-! ## The cache -/

/-- Count, and the largest id, creation time and update time; `max` of no value is null. -/
structure Signature where
  count : Nat
  maxId : Option Nat
  maxCreatedAt : Option Int
  maxUpdatedAt : Option Int
  deriving DecidableEq

/-- The first statement, over the rows of a tenant. -/
def signature (rows : List DefinitionRow) : Signature where
  count := rows.length
  maxId := (rows.map DefinitionRow.id).max?
  maxCreatedAt := (rows.filterMap DefinitionRow.createdAt).max?
  maxUpdatedAt := (rows.map DefinitionRow.updatedAt).max?

/-- One entry of `_CALL_ACTIVITY_INDEX_CACHE`; `β` are the databases. -/
structure CacheEntry (β : Type) where
  bind : β
  tenantId : Text
  signature : Signature
  index : Index

/-- The databases and the cache of the process.  `clock` is the latest stamp that a write
gave in a database; no code reads it. -/
structure State (β : Type) where
  rows : β → List DefinitionRow
  clock : β → Int
  cache : List (CacheEntry β)

variable {β : Type}

/-- The rows of a tenant. -/
def State.tenantRows (s : State β) (bind : β) (tenantId : Text) : List DefinitionRow :=
  (s.rows bind).filter fun row => row.m8fTenantId = tenantId

/-- The entry is the one of a database and a tenant. -/
def CacheEntry.isFor [DecidableEq β] (bind : β) (tenantId : Text) (entry : CacheEntry β) : Bool :=
  entry.bind = bind && entry.tenantId = tenantId

/-- `_CALL_ACTIVITY_INDEX_CACHE_MAX_ENTRIES`. -/
def maxEntries : Nat := 128

/-- Set an entry as the latest one, and drop the oldest ones beyond the limit. -/
def store [DecidableEq β] (cache : List (CacheEntry β)) (entry : CacheEntry β) : List (CacheEntry β) :=
  let kept := cache.filter (fun other => !other.isFor entry.bind entry.tenantId) ++ [entry]
  kept.drop (kept.length - maxEntries)

/-- The entry that is built from the rows of the tenant. -/
def freshEntry (parse : Parser) (s : State β) (bind : β) (tenantId : Text) : CacheEntry β where
  bind := bind
  tenantId := tenantId
  signature := signature (s.tenantRows bind tenantId)
  index := buildIndex parse (s.tenantRows bind tenantId)

/-- `_call_activity_definition_index`: the index and the cache afterwards. -/
def callActivityDefinitionIndex [DecidableEq β] (parse : Parser) (s : State β) (bind : β) (tenantId : Text) :
    Index × List (CacheEntry β) :=
  let fresh := freshEntry parse s bind tenantId
  match s.cache.find? (CacheEntry.isFor bind tenantId) with
  | some cached =>
      if cached.signature = fresh.signature then
        (cached.index, s.cache.filter (fun other => !other.isFor bind tenantId) ++ [cached])
      else (fresh.index, store s.cache fresh)
  | none => (fresh.index, store s.cache fresh)

/-! ## The resolver -/

/-- What the resolver reads of its context. -/
structure Context where
  tenantId : Option Text
  calledElement : Option Text

/-- `CallActivityResolutionError`, or an exception that the resolver does not catch. -/
inductive Failure where
  | resolution (message : Text)
  | raised (e : Raised)

/-- `catalog.process_model_status`, of a tenant and a model. -/
abbrev Statuses := Text → Text → Except Raised ModelStatus

/-- The model is there, and its status is published. -/
def isPublished (status : Text → Except Raised ModelStatus) (model : Text) : Bool :=
  match status model with
  | .ok .published => true
  | _ => false

/-- The loop over the malformed definitions: those of published models. -/
def malformedPublished (status : Text → Except Raised ModelStatus) :
    List Malformed → Except Failure (List Text)
  | [] => .ok []
  | entry :: rest =>
      match status entry.modelIdentifier with
      | .error (.api _) => malformedPublished status rest
      | .error e => .error (.raised e)
      | .ok .published =>
          (malformedPublished status rest).map fun identifiers =>
            entry.bpmnIdentifier :: identifiers
      | .ok _ => malformedPublished status rest

/-- The loop over the candidates: of each published model, the first. -/
def publishedMatches (repr : Text → Text) (tenantId : Text)
    (status : Text → Except Raised ModelStatus) :
    List Reference → Dict Text Nat → Except Failure (Dict Text Nat)
  | [], found => .ok found
  | reference :: rest, found =>
      match status reference.modelIdentifier with
      | .error (.api _) =>
          .error (.resolution
            ("Could not determine publication status for child process model ".toList ++
              repr reference.modelIdentifier ++ " in tenant ".toList ++ repr tenantId))
      | .error e => .error (.raised e)
      | .ok .published =>
          publishedMatches repr tenantId status rest
            (found.setDefault reference.modelIdentifier reference.definitionId)
      | .ok _ => publishedMatches repr tenantId status rest found

/-- No published model declares the process. -/
def noMatch (repr : Text → Text) (tenantId called : Text) (malformed : List Text) : Text :=
  if malformed ≠ [] then
    "Could not confirm called process ".toList ++ repr called ++ " in tenant ".toList ++
      repr tenantId ++ "; published BPMN definitions could not be parsed: ".toList ++
      [',', ' '].intercalate (Paging.sortBy (fun identifier : Text => identifier) malformed)
  else
    "No published child process ".toList ++ repr called ++ " was found in tenant ".toList ++
      repr tenantId

/-- `resolve_definition`. -/
def resolveDefinition [DecidableEq β] (parse : Parser) (repr : Text → Text) (statuses : Statuses)
    (s : State β) (bind : β) (context : Context) : Except Failure DefinitionRow :=
  match truthy context.tenantId, truthy context.calledElement with
  | some tenantId, some called =>
      let index := (callActivityDefinitionIndex parse s bind tenantId).1
      match malformedPublished (statuses tenantId) index.malformed.values with
      | .error failure => .error failure
      | .ok malformed =>
          match publishedMatches repr tenantId (statuses tenantId) (index.referencesOf called)
              Dict.empty with
          | .error failure => .error failure
          | .ok found =>
              match found.values with
              | [] => .error (.resolution (noMatch repr tenantId called malformed))
              | [definitionId] =>
                  match Table.lookup DefinitionRow.id (s.rows bind) definitionId with
                  | some definition => .ok definition
                  | none =>
                      .error (.resolution
                        ("Published child process ".toList ++ repr called ++
                          " changed while resolving tenant ".toList ++ repr tenantId))
              | _ :: _ :: _ =>
                  .error (.resolution
                    ("More than one published child process ".toList ++ repr called ++
                      " was found in tenant ".toList ++ repr tenantId))
  | _, _ =>
      .error (.resolution "Call activity is missing tenant or calledElement context".toList)

/-- `CallActivityDefinition`. -/
structure CallActivityDefinition where
  processId : Option Text
  bpmnXml : Option Text
  dmnXml : Option Text

/-- `resolve`. -/
def resolve [DecidableEq β] (parse : Parser) (repr : Text → Text) (statuses : Statuses)
    (s : State β) (bind : β) (context : Context) : Except Failure CallActivityDefinition :=
  (resolveDefinition parse repr statuses s bind context).map fun definition =>
    { processId := context.calledElement
      bpmnXml := definition.sourceBpmnXml
      dmnXml := definition.sourceDmnXml }

/-! ## Histories -/

/-- The fields that a content update writes. -/
structure Content where
  bpmnIdentifier : Text
  processModelIdentifier : Option Text
  sourceBpmnXml : Option Text
  sourceDmnXml : Option Text
  createdAt : Option Int

/-- A row with new content. -/
def DefinitionRow.over (row : DefinitionRow) (content : Content) (stamp : Int) : DefinitionRow :=
  { row with
    bpmnIdentifier := content.bpmnIdentifier
    processModelIdentifier := content.processModelIdentifier
    sourceBpmnXml := content.sourceBpmnXml
    sourceDmnXml := content.sourceDmnXml
    createdAt := content.createdAt
    updatedAt := stamp }

/-- A write of a table, or a call of the function in this process. -/
inductive Event (β : Type) where
  | insert (bind : β) (row : DefinitionRow)
  | update (bind : β) (id : Nat) (content : Content) (stamp : Int)
  | delete (bind : β) (id : Nat)
  | index (bind : β) (tenantId : Text)

/-- The database with other rows and another clock. -/
def State.write [DecidableEq β] (s : State β) (bind : β) (rows : List DefinitionRow) (clock : Int) : State β :=
  { s with
    rows := fun other => if other = bind then rows else s.rows other
    clock := fun other => if other = bind then clock else s.clock other }

/-- One event. -/
def step [DecidableEq β] (parse : Parser) (s : State β) : Event β → Option (State β)
  | .insert bind row => some (s.write bind (s.rows bind ++ [row]) row.updatedAt)
  | .update bind id content stamp =>
      some (s.write bind
        (Table.updateAt DefinitionRow.id id (fun row => row.over content stamp) (s.rows bind)) stamp)
  | .delete bind id =>
      some (s.write bind ((s.rows bind).filter fun row => row.id ≠ id) (s.clock bind))
  | .index bind tenantId =>
      some { s with cache := (callActivityDefinitionIndex parse s bind tenantId).2 }

/-- An id is not used again while it is there, and every write stamps a later time than all
writes before. -/
def Stamped (s : State β) : Event β → Prop
  | .insert bind row => row.id ∉ (s.rows bind).map DefinitionRow.id ∧ s.clock bind < row.updatedAt
  | .update bind _ _ stamp => s.clock bind < stamp
  | .delete _ _ => True
  | .index _ _ => True

/-- Nothing is cached, ids are unique, and no stamp is in the future. -/
structure Start (s : State β) : Prop where
  cache : s.cache = []
  ids : ∀ bind, ((s.rows bind).map DefinitionRow.id).Nodup
  stamps : ∀ bind, ∀ row ∈ s.rows bind, row.updatedAt ≤ s.clock bind

section Cache

variable {parse : Parser}

/-! ## Two tables with one signature -/

/-- The rows of a tenant now, against those at a former moment: what is not as it was then
has been stamped since. -/
def Since (clock : Int) (old now : List DefinitionRow) : Prop :=
  ∃ moment ≤ clock, (∀ row ∈ old, row.updatedAt ≤ moment) ∧
    ∀ row ∈ now, row ∈ old ∨ moment < row.updatedAt

/-- With the signature of the former moment, the rows are the ones of that moment. -/
theorem perm_of_signature {clock : Int} {old now : List DefinitionRow}
    (hsince : Since clock old now) (hnodup : now.Nodup) (hsame : signature old = signature now) :
    now.Perm old := by
  obtain ⟨moment, -, hold, hnow⟩ := hsince
  have hcount : old.length = now.length := congrArg Signature.count hsame
  have hmax : (old.map DefinitionRow.updatedAt).max? = (now.map DefinitionRow.updatedAt).max? :=
    congrArg Signature.maxUpdatedAt hsame
  have hsubset : now ⊆ old := by
    intro row hrow
    rcases hnow row hrow with hin | hlater
    · exact hin
    · exfalso
      -- a row stamped since would raise the largest update time
      cases hlargest : (now.map DefinitionRow.updatedAt).max? with
      | none =>
          rw [List.max?_eq_none_iff, List.map_eq_nil_iff] at hlargest
          rw [hlargest] at hrow
          cases hrow
      | some largest =>
          have hle := (List.max?_eq_some_iff.mp hlargest).2 row.updatedAt
            (List.mem_map_of_mem hrow)
          rw [hlargest] at hmax
          obtain ⟨other, hother, hstamp⟩ := List.mem_map.mp (List.max?_eq_some_iff.mp hmax).1
          have hbefore := hold other hother
          omega
  exact (List.subperm_of_subset hnodup hsubset).perm_of_length_le (by omega)

theorem id_of_newestFirst {row other : DefinitionRow} (h : newestFirst row = newestFirst other) :
    row.id = other.id := by
  unfold newestFirst at h
  have hlater := Prod.mk.inj (toLex.injective (Prod.mk.inj (toLex.injective h)).2)
  have hids : -(row.id : Int) = -(other.id : Int) := hlater.2
  omega

/-- The index depends on which rows there are, not on their order. -/
theorem buildIndex_perm {rows other : List DefinitionRow} (hperm : rows.Perm other)
    (hids : (rows.map DefinitionRow.id).Nodup) : buildIndex parse rows = buildIndex parse other := by
  have hsort : Paging.sortBy newestFirst rows = Paging.sortBy newestFirst other := by
    apply Paging.sortBy_eq_of_perm hperm
    intro row hrow row' hrow' hkey
    exact List.inj_on_of_nodup_map hids hrow hrow' (id_of_newestFirst hkey)
  unfold buildIndex
  rw [hsort]

/-! ## The invariant -/

/-- The entry was built from the rows at a former moment. -/
def Built (parse : Parser) (s : State β) (entry : CacheEntry β) : Prop :=
  ∃ old, entry.signature = signature old ∧ entry.index = buildIndex parse old ∧
    Since (s.clock entry.bind) old (s.tenantRows entry.bind entry.tenantId)

/-- What holds between the events of a history. -/
structure Inv (parse : Parser) (s : State β) : Prop where
  ids : ∀ bind, ((s.rows bind).map DefinitionRow.id).Nodup
  stamps : ∀ bind, ∀ row ∈ s.rows bind, row.updatedAt ≤ s.clock bind
  entries : ∀ entry ∈ s.cache, Built parse s entry

theorem inv_start {s : State β} (h : Start s) : Inv parse s where
  ids := h.ids
  stamps := h.stamps
  entries := by
    rw [h.cache]
    intro entry hentry
    cases hentry

theorem tenantRows_ids {s : State β} (hinv : Inv parse s) (bind : β) (tenantId : Text) :
    ((s.tenantRows bind tenantId).map DefinitionRow.id).Nodup :=
  (hinv.ids bind).sublist (List.filter_sublist.map DefinitionRow.id)

/-- What a write may do: rows are kept, dropped, or stamped later than any before. -/
structure Advances (s s' : State β) : Prop where
  clock : ∀ bind, s.clock bind ≤ s'.clock bind
  rows : ∀ bind, ∀ row ∈ s'.rows bind, row ∈ s.rows bind ∨ s.clock bind < row.updatedAt
  ids : ∀ bind, ((s'.rows bind).map DefinitionRow.id).Nodup
  stamps : ∀ bind, ∀ row ∈ s'.rows bind, row.updatedAt ≤ s'.clock bind
  cache : s'.cache = s.cache

theorem inv_advances {s s' : State β} (hinv : Inv parse s) (h : Advances s s') : Inv parse s' where
  ids := h.ids
  stamps := h.stamps
  entries := by
    rw [h.cache]
    intro entry hentry
    obtain ⟨old, hsignature, hindex, moment, hmoment, hold, hnow⟩ := hinv.entries entry hentry
    refine ⟨old, hsignature, hindex, moment, hmoment.trans (h.clock _), hold, ?_⟩
    intro row hrow
    obtain ⟨hin, htenant⟩ := List.mem_filter.mp hrow
    rcases h.rows entry.bind row hin with hkept | hlater
    · exact hnow row (List.mem_filter.mpr ⟨hkept, htenant⟩)
    · right
      omega

/-- A write of one database advances when its rows do. -/
theorem advances_write [DecidableEq β] {s : State β} (hinv : Inv parse s) {bind : β} {rows : List DefinitionRow}
    {clock : Int} (hclock : s.clock bind ≤ clock)
    (hrows : ∀ row ∈ rows, row ∈ s.rows bind ∨ s.clock bind < row.updatedAt ∧ row.updatedAt ≤ clock)
    (hids : (rows.map DefinitionRow.id).Nodup) : Advances s (s.write bind rows clock) where
  clock := by
    intro other
    unfold State.write
    dsimp only
    split
    · rename_i hsame
      rw [hsame]
      exact hclock
    · exact Int.le_refl _
  rows := by
    intro other row hrow
    unfold State.write at hrow
    dsimp only at hrow
    split at hrow
    · rename_i hsame
      rw [hsame]
      exact (hrows row hrow).imp_right And.left
    · exact Or.inl hrow
  ids := by
    intro other
    unfold State.write
    dsimp only
    split
    · exact hids
    · exact hinv.ids other
  stamps := by
    intro other row hrow
    unfold State.write at hrow ⊢
    dsimp only at hrow ⊢
    split at hrow
    · rename_i hsame
      rw [if_pos hsame]
      rcases hrows row hrow with hkept | hnew
      · exact (hinv.stamps bind row hkept).trans hclock
      · exact hnew.2
    · rename_i hother
      rw [if_neg hother]
      exact hinv.stamps other row hrow
  cache := rfl

/-! ## The cache is transparent -/

/-- The function returns what a build from scratch returns. -/
theorem index_eq_buildIndex [DecidableEq β] {s : State β} (hinv : Inv parse s) (bind : β) (tenantId : Text) :
    (callActivityDefinitionIndex parse s bind tenantId).1 =
      buildIndex parse (s.tenantRows bind tenantId) := by
  unfold callActivityDefinitionIndex
  dsimp only
  cases hfound : s.cache.find? (CacheEntry.isFor bind tenantId) with
  | none => rfl
  | some cached =>
      dsimp only
      split
      · rename_i hsame
        have hfor := List.find?_some hfound
        unfold CacheEntry.isFor at hfor
        rw [Bool.and_eq_true, decide_eq_true_eq, decide_eq_true_eq] at hfor
        obtain ⟨hbind, htenant⟩ := hfor
        obtain ⟨old, hsignature, hindex, hsince⟩ :=
          hinv.entries cached (List.mem_of_find?_eq_some hfound)
        rw [hbind, htenant] at hsince
        have hids := tenantRows_ids hinv bind tenantId
        have hperm := perm_of_signature hsince (List.Nodup.of_map _ hids)
          (hsignature.symm.trans hsame)
        rw [hindex, buildIndex_perm hperm hids]
      · rfl

/-- An entry that was just built. -/
theorem built_fresh {s : State β} (hinv : Inv parse s) (bind : β) (tenantId : Text) :
    Built parse s (freshEntry parse s bind tenantId) :=
  ⟨s.tenantRows bind tenantId, rfl, rfl, s.clock bind, Int.le_refl _,
    fun row hrow => hinv.stamps bind row (List.mem_filter.mp hrow).1,
    fun _ hrow => Or.inl hrow⟩

theorem mem_store [DecidableEq β] {cache : List (CacheEntry β)} {entry fresh : CacheEntry β}
    (h : entry ∈ store cache fresh) : entry ∈ cache ∨ entry = fresh := by
  unfold store at h
  rcases List.mem_append.mp (List.mem_of_mem_drop h) with hold | hnew
  · exact Or.inl (List.mem_filter.mp hold).1
  · exact Or.inr (List.mem_singleton.mp hnew)

/-- A call leaves only entries that were there or that it built. -/
theorem mem_cache_of_call [DecidableEq β] {s : State β} {bind : β} {tenantId : Text} {entry : CacheEntry β}
    (h : entry ∈ (callActivityDefinitionIndex parse s bind tenantId).2) :
    entry ∈ s.cache ∨ entry = freshEntry parse s bind tenantId := by
  unfold callActivityDefinitionIndex at h
  simp only at h
  split at h
  · rename_i cached hfound
    split at h
    · left
      rcases List.mem_append.mp h with hold | hmoved
      · exact (List.mem_filter.mp hold).1
      · rw [List.mem_singleton.mp hmoved]
        exact List.mem_of_find?_eq_some hfound
    · dsimp only at h
      exact mem_store h
  · dsimp only at h
    exact mem_store h

theorem inv_step [DecidableEq β] {s s' : State β} {e : Event β} (hinv : Inv parse s) (hstamped : Stamped s e)
    (hstep : step parse s e = some s') : Inv parse s' := by
  cases e with
  | insert bind row =>
      obtain ⟨hfresh, hclock⟩ := hstamped
      cases hstep
      apply inv_advances hinv
      apply advances_write hinv (Int.le_of_lt hclock)
      · intro other hother
        rcases List.mem_append.mp hother with hold | hnew
        · exact Or.inl hold
        · rw [List.mem_singleton.mp hnew]
          exact Or.inr ⟨hclock, Int.le_refl _⟩
      · rw [List.map_append, List.map_singleton, List.nodup_append]
        refine ⟨hinv.ids bind, List.nodup_singleton _, ?_⟩
        intro id hid other hother hsame
        rw [List.mem_singleton] at hother
        exact hfresh (hother ▸ hsame ▸ hid)
  | update bind id content stamp =>
      cases hstep
      apply inv_advances hinv
      apply advances_write hinv (Int.le_of_lt hstamped)
      · intro row hrow
        obtain ⟨before, hbefore, hsame⟩ := List.mem_map.mp hrow
        split at hsame
        · rw [← hsame]
          exact Or.inr ⟨hstamped, Int.le_refl _⟩
        · exact Or.inl (hsame ▸ hbefore)
      · unfold Table.updateAt
        have hkeys := @Table.keys_updateWhere _ _ DefinitionRow.id (fun row => row.id = id)
          (fun row => DefinitionRow.over row content stamp) (fun _ => rfl) (s.rows bind)
        rw [hkeys]
        exact hinv.ids bind
  | delete bind id =>
      cases hstep
      apply inv_advances hinv
      apply advances_write hinv (Int.le_refl _)
      · intro row hrow
        exact Or.inl (List.mem_filter.mp hrow).1
      · exact (hinv.ids bind).sublist (List.filter_sublist.map DefinitionRow.id)
  | index bind tenantId =>
      cases hstep
      refine ⟨hinv.ids, hinv.stamps, ?_⟩
      intro entry hentry
      rcases mem_cache_of_call hentry with hold | hnew
      · exact hinv.entries entry hold
      · rw [hnew]
        exact built_fresh hinv bind tenantId

end Cache

section Resolver

variable {parse : Parser}

/-! ## The index at a process id -/

/-- A row declares a process: it is of a model, and its text parses to a document with such
a process. -/
def Declares (parse : Parser) (row : DefinitionRow) (processId : Text) : Prop :=
  ∃ xml model root, truthy row.sourceBpmnXml = some xml ∧
    truthy row.processModelIdentifier = some model ∧ parse xml = .ok root ∧
    processId ∈ declaredProcesses root

/-- The model of a row. -/
def DefinitionRow.model (row : DefinitionRow) : Text :=
  (truthy row.processModelIdentifier).getD []

/-- What a row adds to the index at a process id. -/
def rowReferences (parse : Parser) (processId : Text) (row : DefinitionRow) : List Reference :=
  match truthy row.sourceBpmnXml, truthy row.processModelIdentifier with
  | some xml, some model =>
      match parse xml with
      | .error _ => []
      | .ok root =>
          ((declaredProcesses root).filter fun other => other = processId).map fun _ =>
            row.reference model
  | _, _ => []

theorem mem_rowReferences {processId : Text} {row : DefinitionRow} {reference : Reference} :
    reference ∈ rowReferences parse processId row ↔
      Declares parse row processId ∧ reference = row.reference row.model := by
  unfold rowReferences Declares DefinitionRow.model
  cases hxml : truthy row.sourceBpmnXml with
  | none => simp
  | some xml =>
      cases hmodel : truthy row.processModelIdentifier with
      | none => simp
      | some model =>
          cases hparse : parse xml with
          | error message => simp [hparse]
          | ok root =>
              dsimp only
              rw [hparse]
              dsimp only
              rw [List.mem_map]
              constructor
              · intro h
                obtain ⟨other, hother, hsame⟩ := h
                obtain ⟨hin, hid⟩ := List.mem_filter.mp hother
                exact ⟨⟨xml, model, root, rfl, rfl, hparse, of_decide_eq_true hid ▸ hin⟩,
                  hsame.symm⟩
              · intro h
                obtain ⟨⟨_, _, _, hx, hm, hp, hin⟩, hsame⟩ := h
                cases hx
                cases hm
                cases hparse.symm.trans hp
                exact ⟨processId, List.mem_filter.mpr ⟨hin, decide_eq_true rfl⟩, hsame.symm⟩

theorem referencesOf_append (index : Index) (processId other : Text) (reference : Reference) :
    (index.append processId reference).referencesOf other =
      index.referencesOf other ++ if processId = other then [reference] else [] := by
  have hget := Dict.get?_set index.processIds processId other
    (index.referencesOf processId ++ [reference])
  have hset : (index.append processId reference).referencesOf other =
      ((index.processIds.set processId (index.referencesOf processId ++ [reference])).get?
        other).getD [] := rfl
  rw [hset, hget]
  by_cases hsame : processId = other
  · rw [if_pos hsame.symm, if_pos hsame, hsame]
    rfl
  · rw [if_neg (Ne.symm hsame), if_neg hsame, List.append_nil]
    rfl

theorem referencesOf_foldl_append (processIds : List Text) (index : Index) (other : Text)
    (reference : Reference) :
    (processIds.foldl (fun index processId => index.append processId reference)
        index).referencesOf other =
      index.referencesOf other ++
        (processIds.filter fun processId => processId = other).map fun _ => reference := by
  induction processIds generalizing index with
  | nil => simp
  | cons processId processIds ih =>
      rw [List.foldl_cons, ih, referencesOf_append, List.append_assoc]
      by_cases hsame : processId = other
      · simp [hsame]
      · simp [hsame]

theorem referencesOf_indexDefinition (index : Index) (row : DefinitionRow) (processId : Text) :
    (indexDefinition parse index row).referencesOf processId =
      index.referencesOf processId ++ rowReferences parse processId row := by
  unfold indexDefinition rowReferences
  cases truthy row.sourceBpmnXml with
  | none => simp
  | some xml =>
      cases truthy row.processModelIdentifier with
      | none => simp
      | some model =>
          dsimp only
          cases parse xml with
          | error message =>
              rw [List.append_nil]
              rfl
          | ok root => exact referencesOf_foldl_append (declaredProcesses root) index processId _

theorem referencesOf_foldl (rows : List DefinitionRow) (index : Index) (processId : Text) :
    (rows.foldl (indexDefinition parse) index).referencesOf processId =
      index.referencesOf processId ++ rows.flatMap (rowReferences parse processId) := by
  induction rows generalizing index with
  | nil => simp
  | cons row rows ih =>
      rw [List.foldl_cons, ih, referencesOf_indexDefinition, List.flatMap_cons, List.append_assoc]

/-- At a process id stand the rows that declare it, newest first. -/
theorem referencesOf_buildIndex (rows : List DefinitionRow) (processId : Text) :
    (buildIndex parse rows).referencesOf processId =
      (Paging.sortBy newestFirst rows).flatMap (rowReferences parse processId) := by
  unfold buildIndex
  rw [referencesOf_foldl]
  rfl

theorem mem_referencesOf {rows : List DefinitionRow} {processId : Text} {reference : Reference} :
    reference ∈ (buildIndex parse rows).referencesOf processId ↔
      ∃ row ∈ rows, Declares parse row processId ∧ reference = row.reference row.model := by
  rw [referencesOf_buildIndex, List.mem_flatMap]
  simp only [(Paging.sortBy_perm rows).mem_iff, mem_rowReferences]

/-- The first reference with a property comes from the newest row that has one. -/
theorem newest_of_find?_eq_some {rows : List DefinitionRow} {processId : Text}
    {p : Reference → Bool} {reference : Reference}
    (h : ((buildIndex parse rows).referencesOf processId).find? p = some reference) :
    ∃ row ∈ rows, Declares parse row processId ∧ reference = row.reference row.model ∧
      p reference = true ∧ ∀ other ∈ rows, Declares parse other processId →
        p (other.reference other.model) = true → newestFirst row ≤ newestFirst other := by
  rw [referencesOf_buildIndex, List.find?_flatMap] at h
  obtain ⟨newer, row, older, hrows, hfirst, hnewer⟩ := List.findSome?_eq_some_iff.mp h
  have hmem : ∀ other, other ∈ rows ↔ other ∈ newer ++ row :: older := by
    intro other
    rw [← hrows]
    exact ((Paging.sortBy_perm rows).mem_iff).symm
  obtain ⟨hdeclares, hreference⟩ := mem_rowReferences.mp (List.mem_of_find?_eq_some hfirst)
  refine ⟨row, (hmem row).mpr (List.mem_append_right _ List.mem_cons_self), hdeclares, hreference,
    List.find?_some hfirst, ?_⟩
  intro other hother hdeclared hp
  have hsorted : Paging.Sorted newestFirst (Paging.sortBy newestFirst rows) :=
    Paging.sorted_sortBy rows
  rw [hrows] at hsorted
  rcases List.mem_append.mp ((hmem other).mp hother) with hin | hin
  · -- the rows before have no such reference
    exfalso
    have hnone := List.find?_eq_none.mp (hnewer other hin)
    exact hnone _ (mem_rowReferences.mpr ⟨hdeclared, rfl⟩) hp
  · rcases List.mem_cons.mp hin with hsame | hlater
    · rw [hsame]
    · exact (List.pairwise_cons.mp (List.pairwise_append.mp hsorted).2.1).1 other hlater

/-! ## The loops of the resolver -/

variable {status : Text → Except Raised ModelStatus}

theorem isPublished_iff {model : Text} :
    isPublished status model = true ↔ status model = .ok .published := by
  unfold isPublished
  cases hstatus : status model with
  | error e => simp
  | ok value => cases value with
    | draft => simp
    | published => simp
    | paused => simp

/-- The reference is to the model, which is published. -/
def isCandidate (status : Text → Except Raised ModelStatus) (model : Text)
    (reference : Reference) : Bool :=
  isPublished status model && reference.modelIdentifier = model

/-- What is found for a model is what was, or its first candidate. -/
theorem get?_of_publishedMatches {repr : Text → Text} {tenantId : Text}
    {references : List Reference} {found found' : Dict Text Nat}
    (h : publishedMatches repr tenantId status references found = .ok found') (model : Text) :
    found'.get? model = (found.get? model).or
      ((references.find? (isCandidate status model)).map Reference.definitionId) := by
  induction references generalizing found with
  | nil =>
      cases h
      rw [List.find?_nil, Option.map_none, Option.or_none]
  | cons reference references ih =>
      unfold publishedMatches at h
      split at h
      · cases h
      · cases h
      · rename_i hpublished
        rw [ih h, Dict.get?_setDefault]
        by_cases hmodel : model = reference.modelIdentifier
        · have hcandidate : isCandidate status model reference = true := by
            unfold isCandidate
            rw [hmodel, isPublished_iff.mpr hpublished, decide_eq_true rfl]
            rfl
          rw [List.find?_cons_of_pos hcandidate, if_pos hmodel, Option.or_assoc, Option.some_or]
          rfl
        · have hcandidate : ¬ isCandidate status model reference = true := by
            simp [isCandidate, Ne.symm hmodel]
          rw [List.find?_cons_of_neg hcandidate, if_neg hmodel, Option.or_none]
      · rename_i other hother hstatus
        have hcandidate : ¬ isCandidate status model reference = true := by
          intro hcandidate
          unfold isCandidate at hcandidate
          rw [Bool.and_eq_true, isPublished_iff, decide_eq_true_eq] at hcandidate
          obtain ⟨hpublished, hmodel⟩ := hcandidate
          rw [← hmodel, hstatus] at hpublished
          cases hpublished
          exact hother rfl
        rw [ih h, List.find?_cons_of_neg hcandidate]

/-- The loop ends where the status of every candidate is there. -/
theorem publishedMatches_ok (repr : Text → Text) (tenantId : Text) {references : List Reference}
    (h : ∀ reference ∈ references, ∃ value, status reference.modelIdentifier = .ok value)
    (found : Dict Text Nat) :
    ∃ found', publishedMatches repr tenantId status references found = .ok found' := by
  induction references generalizing found with
  | nil => exact ⟨found, rfl⟩
  | cons reference references ih =>
      obtain ⟨value, hvalue⟩ := h reference List.mem_cons_self
      have hrest := ih fun other hother => h other (List.mem_cons_of_mem _ hother)
      unfold publishedMatches
      rw [hvalue]
      cases value with
      | draft => exact hrest found
      | published => exact hrest _
      | paused => exact hrest found

theorem malformedPublished_ok {entries : List Malformed}
    (h : ∀ entry ∈ entries, ∀ e, status entry.modelIdentifier = .error e →
      ∃ error, e = Raised.api error) :
    ∃ identifiers, malformedPublished status entries = .ok identifiers := by
  induction entries with
  | nil => exact ⟨[], rfl⟩
  | cons entry entries ih =>
      obtain ⟨identifiers, hrest⟩ := ih fun other hother => h other (List.mem_cons_of_mem _ hother)
      unfold malformedPublished
      cases hstatus : status entry.modelIdentifier with
      | error e =>
          obtain ⟨error, herror⟩ := h entry List.mem_cons_self e hstatus
          rw [herror]
          exact ⟨identifiers, hrest⟩
      | ok value =>
          rw [hrest]
          cases value with
          | draft => exact ⟨identifiers, rfl⟩
          | published => exact ⟨entry.bpmnIdentifier :: identifiers, rfl⟩
          | paused => exact ⟨identifiers, rfl⟩

theorem malformed_append (index : Index) (processId : Text) (reference : Reference) :
    (index.append processId reference).malformed = index.malformed := rfl

theorem malformed_foldl_append (processIds : List Text) (index : Index) (reference : Reference) :
    (processIds.foldl (fun index processId => index.append processId reference) index).malformed =
      index.malformed := by
  induction processIds generalizing index with
  | nil => rfl
  | cons processId processIds ih => rw [List.foldl_cons, ih, malformed_append]

/-- A malformed definition is one of a model that has a row. -/
theorem malformed_of_indexDefinition {index : Index} {row : DefinitionRow} {model : Text}
    {entry : Malformed}
    (h : (indexDefinition parse index row).malformed.get? model = some entry) :
    index.malformed.get? model = some entry ∨ entry.modelIdentifier = row.model := by
  unfold indexDefinition at h
  unfold DefinitionRow.model
  split at h
  · rename_i xml rowModel hxml hmodel
    split at h
    · dsimp only at h
      rw [Dict.get?_setDefault] at h
      cases hold : index.malformed.get? model with
      | some old =>
          rw [hold, Option.some_or] at h
          exact Or.inl h
      | none =>
          rw [hold, Option.none_or] at h
          split at h
          · cases h
            right
            rw [hmodel]
            rfl
          · cases h
    · rw [malformed_foldl_append] at h
      exact Or.inl h
  · exact Or.inl h

theorem malformed_of_buildIndex {rows : List DefinitionRow} {entry : Malformed}
    (h : entry ∈ (buildIndex parse rows).malformed.values) :
    ∃ row ∈ rows, entry.modelIdentifier = row.model := by
  have hfold : ∀ (sorted : List DefinitionRow) (index : Index) (model : Text),
      (sorted.foldl (indexDefinition parse) index).malformed.get? model = some entry →
        index.malformed.get? model = some entry ∨
          ∃ row ∈ sorted, entry.modelIdentifier = row.model := by
    intro sorted
    induction sorted with
    | nil =>
        intro index model hget
        exact Or.inl hget
    | cons row sorted ih =>
        intro index model hget
        rcases ih _ _ hget with hstep | ⟨other, hother, hmodel⟩
        · rcases malformed_of_indexDefinition hstep with hbefore | hrow
          · exact Or.inl hbefore
          · exact Or.inr ⟨row, List.mem_cons_self, hrow⟩
        · exact Or.inr ⟨other, List.mem_cons_of_mem _ hother, hmodel⟩
  obtain ⟨⟨model, _⟩, hentry, hvalue⟩ := List.mem_map.mp h
  cases hvalue
  rcases hfold _ _ _ (Dict.get?_eq_some.mpr hentry) with hempty | ⟨row, hrow, hmodel⟩
  · rw [Dict.get?_empty] at hempty
    cases hempty
  · exact ⟨row, (Paging.sortBy_perm rows).mem_iff.mp hrow, hmodel⟩

/-! ## What is resolved -/

/-- The newest row of the one published model with rows that declare the process, among
these rows. -/
structure Resolved (parse : Parser) (status : Text → Except Raised ModelStatus)
    (rows : List DefinitionRow) (called : Text) (row : DefinitionRow) : Prop where
  stored : row ∈ rows
  declares : Declares parse row called
  published : status row.model = .ok .published
  only : ∀ other ∈ rows, Declares parse other called → status other.model = .ok .published →
    other.model = row.model
  newest : ∀ other ∈ rows, Declares parse other called → other.model = row.model →
    newestFirst row ≤ newestFirst other

/-- The status of every model that declares the process is there; of another model, it is
there or not found. -/
structure Readable (parse : Parser) (status : Text → Except Raised ModelStatus)
    (rows : List DefinitionRow) (called : Text) : Prop where
  declaring : ∀ row ∈ rows, Declares parse row called → ∃ value, status row.model = .ok value
  others : ∀ row ∈ rows, ∀ e, status row.model = .error e → ∃ error, e = Raised.api error

/-- What the loop finds for a model, of the rows that the index was built from. -/
theorem found_of_publishedMatches {repr : Text → Text} {tenantId called model : Text}
    {rows : List DefinitionRow} {found : Dict Text Nat}
    (h : publishedMatches repr tenantId status ((buildIndex parse rows).referencesOf called)
      Dict.empty = .ok found) :
    found.get? model = (((buildIndex parse rows).referencesOf called).find?
      (isCandidate status model)).map Reference.definitionId := by
  rw [get?_of_publishedMatches h, Dict.get?_empty, Option.none_or]

theorem isCandidate_reference {model : Text} {row : DefinitionRow} :
    isCandidate status model (row.reference row.model) = true ↔
      status model = .ok .published ∧ row.model = model := by
  unfold isCandidate
  rw [Bool.and_eq_true, isPublished_iff, decide_eq_true_eq]
  rfl

/-- Every published model that declares the process is found. -/
theorem found_of_declares {repr : Text → Text} {tenantId called : Text}
    {rows : List DefinitionRow} {found : Dict Text Nat}
    (h : publishedMatches repr tenantId status ((buildIndex parse rows).referencesOf called)
      Dict.empty = .ok found) {row : DefinitionRow} (hrow : row ∈ rows)
    (hdeclares : Declares parse row called) (hpublished : status row.model = .ok .published) :
    row.model ∈ found.keys := by
  by_contra hnot
  have hget : found.get? row.model = _ := found_of_publishedMatches h
  rw [Dict.get?_eq_none.mpr hnot, eq_comm, Option.map_eq_none_iff, List.find?_eq_none] at hget
  exact hget _ (mem_referencesOf.mpr ⟨row, hrow, hdeclares, rfl⟩)
    (isCandidate_reference.mpr ⟨hpublished, rfl⟩)

/-- What is found for a model is its newest row that declares the process. -/
theorem newest_of_found {repr : Text → Text} {tenantId called model : Text}
    {rows : List DefinitionRow} {found : Dict Text Nat} {definitionId : Nat}
    (h : publishedMatches repr tenantId status ((buildIndex parse rows).referencesOf called)
      Dict.empty = .ok found) (hget : found.get? model = some definitionId) :
    ∃ row ∈ rows, row.id = definitionId ∧ row.model = model ∧ Declares parse row called ∧
      status model = .ok .published ∧ ∀ other ∈ rows, Declares parse other called →
        other.model = model → newestFirst row ≤ newestFirst other := by
  rw [found_of_publishedMatches h, Option.map_eq_some_iff] at hget
  obtain ⟨reference, hfirst, hid⟩ := hget
  obtain ⟨row, hrow, hdeclares, hreference, hcandidate, hnewest⟩ := newest_of_find?_eq_some hfirst
  rw [hreference] at hcandidate hid
  obtain ⟨hpublished, hmodel⟩ := isCandidate_reference.mp hcandidate
  refine ⟨row, hrow, hid, hmodel, hdeclares, hpublished, ?_⟩
  intro other hother hdeclared hsame
  exact hnewest other hother hdeclared (isCandidate_reference.mpr ⟨hpublished, hsame⟩)

/-- A dictionary with one value has one entry. -/
theorem entry_of_values {found : Dict Text Nat} {definitionId : Nat}
    (h : found.values = [definitionId]) :
    ∃ model, found.keys = [model] ∧ found.get? model = some definitionId := by
  unfold Dict.values at h
  obtain ⟨entry, hentries, hvalue⟩ := List.map_eq_singleton_iff.mp h
  have hkeys : found.keys = [entry.1] := by
    unfold Dict.keys
    rw [hentries, List.map_singleton]
  refine ⟨entry.1, hkeys, ?_⟩
  apply Dict.get?_of_mem
  rw [hentries, ← hvalue]
  exact List.mem_singleton.mpr rfl

theorem values_of_keys {found : Dict Text Nat} {model : Text} (h : found.keys = [model]) :
    ∃ definitionId, found.values = [definitionId] ∧ found.get? model = some definitionId := by
  unfold Dict.keys at h
  obtain ⟨entry, hentries, hkey⟩ := List.map_eq_singleton_iff.mp h
  have hvalues : found.values = [entry.2] := by
    unfold Dict.values
    rw [hentries, List.map_singleton]
  refine ⟨entry.2, hvalues, ?_⟩
  apply Dict.get?_of_mem
  rw [hentries, ← hkey]
  exact List.mem_singleton.mpr rfl

section Definition

variable {β : Type} [DecidableEq β] {s : State β} {bind : β} {repr : Text → Text}
  {statuses : Statuses} {context : Context} {tenantId called : Text} {row : DefinitionRow}

/-- A row that is resolved is the one that should be. -/
theorem resolve_sound (hinv : Inv parse s) (htenant : truthy context.tenantId = some tenantId)
    (hcalled : truthy context.calledElement = some called)
    (h : resolveDefinition parse repr statuses s bind context = .ok row) :
    Resolved parse (statuses tenantId) (s.tenantRows bind tenantId) called row := by
  unfold resolveDefinition at h
  rw [htenant, hcalled] at h
  dsimp only at h
  rw [index_eq_buildIndex hinv] at h
  split at h
  · cases h
  · split at h
    · cases h
    · rename_i found hfound
      split at h
      · cases h
      · rename_i definitionId hvalues
        split at h
        · rename_i definition hlookup
          cases h
          obtain ⟨model, hkeys, hget⟩ := entry_of_values hvalues
          obtain ⟨newest, hin, hid, hmodel, hdeclares, hpublished, hnewest⟩ :=
            newest_of_found hfound hget
          have hsame : newest = row := by
            apply List.inj_on_of_nodup_map (hinv.ids bind) (List.mem_filter.mp hin).1
              (Table.mem_of_lookup hlookup)
            rw [hid, Table.key_of_lookup hlookup]
          subst hsame
          refine ⟨hin, hdeclares, hmodel ▸ hpublished, ?_, ?_⟩
          · intro other hother hdeclared hstatus
            have hkey := found_of_declares hfound hother hdeclared hstatus
            rw [hkeys, List.mem_singleton] at hkey
            rw [hkey, hmodel]
          · intro other hother hdeclared hsame
            exact hnewest other hother hdeclared (hsame.trans hmodel)
        · cases h
      · cases h

/-- The row that should be resolved is, where the statuses can be read. -/
theorem resolve_complete (hinv : Inv parse s) (htenant : truthy context.tenantId = some tenantId)
    (hcalled : truthy context.calledElement = some called)
    (hreadable : Readable parse (statuses tenantId) (s.tenantRows bind tenantId) called)
    (hresolved : Resolved parse (statuses tenantId) (s.tenantRows bind tenantId) called row) :
    resolveDefinition parse repr statuses s bind context = .ok row := by
  have hentries : ∀ entry ∈ (buildIndex parse (s.tenantRows bind tenantId)).malformed.values,
      ∀ e, statuses tenantId entry.modelIdentifier = .error e → ∃ error, e = Raised.api error := by
    intro entry hentry e he
    obtain ⟨other, hother, hmodel⟩ := malformed_of_buildIndex hentry
    exact hreadable.others other hother e (hmodel ▸ he)
  have hreferences :
      ∀ reference ∈ (buildIndex parse (s.tenantRows bind tenantId)).referencesOf called,
        ∃ value, statuses tenantId reference.modelIdentifier = .ok value := by
    intro reference hreference
    obtain ⟨other, hother, hdeclares, hsame⟩ := mem_referencesOf.mp hreference
    rw [hsame]
    exact hreadable.declaring other hother hdeclares
  obtain ⟨malformed, hmalformed⟩ := malformedPublished_ok hentries
  obtain ⟨found, hfound⟩ := publishedMatches_ok repr tenantId hreferences Dict.empty
  -- only the model of the row is found
  have honly : ∀ model ∈ found.keys, model = row.model := by
    intro model hmodel
    obtain ⟨definitionId, hget⟩ := Option.ne_none_iff_exists'.mp
      (mt Dict.get?_eq_none.mp (not_not.mpr hmodel))
    obtain ⟨other, hother, -, hsame, hdeclares, hpublished, -⟩ := newest_of_found hfound hget
    rw [← hsame]
    exact hresolved.only other hother hdeclares (hsame ▸ hpublished)
  have hkey := found_of_declares hfound hresolved.stored hresolved.declares hresolved.published
  have hkeys : found.keys = [row.model] := by
    have hnodup : found.keys.Nodup := found.keys_nodup
    apply List.Perm.eq_singleton
    rw [List.perm_ext_iff_of_nodup hnodup (List.nodup_singleton _)]
    intro model
    rw [List.mem_singleton]
    exact ⟨honly model, fun hmodel => hmodel ▸ hkey⟩
  obtain ⟨definitionId, hvalues, hget⟩ := values_of_keys hkeys
  -- the row that is found is not newer, and not older
  obtain ⟨newest, hin, hid, hmodel, hdeclares, -, hnewest⟩ := newest_of_found hfound hget
  have hage : newestFirst newest = newestFirst row :=
    le_antisymm (hnewest row hresolved.stored hresolved.declares rfl)
      (hresolved.newest newest hin hdeclares hmodel)
  have hlookup : Table.lookup DefinitionRow.id (s.rows bind) definitionId = some row := by
    rw [← hid, id_of_newestFirst hage]
    exact Table.lookup_of_mem (hinv.ids bind) (List.mem_filter.mp hresolved.stored).1
  unfold resolveDefinition
  rw [htenant, hcalled]
  dsimp only
  rw [index_eq_buildIndex hinv, hmalformed]
  dsimp only
  rw [hfound]
  dsimp only
  rw [hvalues]
  dsimp only
  rw [hlookup]

end Definition

end Resolver

/-- In every state of every history: the index is the one that is built from the rows of the
tenant, and the resolver returns only the newest row that declares the process of the one
published model, and returns it where the statuses can be read; as a definition, with the process
id and the documents of that row. -/
theorem call_activity_index_transparent {β : Type} [DecidableEq β] {parse : Parser}
    {s t : State β} {es : List (Event β)} (hrun : Run (step parse) Stamped s es t)
    (hstart : Start s) (bind : β) :
    (∀ tenantId, (callActivityDefinitionIndex parse t bind tenantId).1 =
      buildIndex parse (t.tenantRows bind tenantId)) ∧
    ∀ (repr : Text → Text) (statuses : Statuses) (context : Context) (tenantId called : Text),
      truthy context.tenantId = some tenantId → truthy context.calledElement = some called →
      (∀ row, resolveDefinition parse repr statuses t bind context = .ok row →
        Resolved parse (statuses tenantId) (t.tenantRows bind tenantId) called row) ∧
      (Readable parse (statuses tenantId) (t.tenantRows bind tenantId) called →
        ∀ row, Resolved parse (statuses tenantId) (t.tenantRows bind tenantId) called row →
          resolveDefinition parse repr statuses t bind context = .ok row) ∧
      (∀ definition, resolve parse repr statuses t bind context = .ok definition →
        ∃ row, Resolved parse (statuses tenantId) (t.tenantRows bind tenantId) called row ∧
          definition = ⟨some called, row.sourceBpmnXml, row.sourceDmnXml⟩) ∧
      (Readable parse (statuses tenantId) (t.tenantRows bind tenantId) called →
        ∀ row, Resolved parse (statuses tenantId) (t.tenantRows bind tenantId) called row →
          resolve parse repr statuses t bind context =
            .ok ⟨some called, row.sourceBpmnXml, row.sourceDmnXml⟩) := by
  have hinv : Inv parse t := by
    apply hrun.invariant (inv_start hstart)
    intro u e u' hu hstamped hstep
    exact inv_step hu hstamped hstep
  refine ⟨index_eq_buildIndex hinv bind, ?_⟩
  intro repr statuses context tenantId called htenant hcalled
  have hname : context.calledElement = some called := (truthy_eq_some.mp hcalled).1
  refine ⟨fun row h => resolve_sound hinv htenant hcalled h,
    fun hreadable row hresolved => resolve_complete hinv htenant hcalled hreadable hresolved,
    fun definition h => ?_, fun hreadable row hresolved => ?_⟩
  · obtain ⟨row, hrow, hdefinition⟩ := Results.map_eq_ok.mp h
    rw [hname] at hdefinition
    exact ⟨row, resolve_sound hinv htenant hcalled hrow, hdefinition.symm⟩
  · unfold resolve
    rw [resolve_complete hinv htenant hcalled hreadable hresolved, hname]
    rfl

/-- A document with one process. -/
def childXml : Text := "<process id=\"Process_child\"/>".toList

/-- The same process, as it was revised. -/
def revisedXml : Text := "<process id=\"Process_child\" name=\"Child\"/>".toList

/-- The parser on these two documents. -/
def parseChild (xml : Text) : Except Text XmlElement :=
  if xml = childXml then
    .ok (.mk (some "process".toList) none [("id".toList, "Process_child".toList)] [])
  else if xml = revisedXml then
    .ok (.mk (some "process".toList) none
      [("id".toList, "Process_child".toList), ("name".toList, "Child".toList)] [])
  else .error "syntax error: line 1, column 0".toList

/-- A revision of the model `child`. -/
def childRow (id : Nat) (xml : Text) (stamp : Int) : DefinitionRow where
  id := id
  m8fTenantId := "t1".toList
  bpmnIdentifier := "child".toList
  processModelIdentifier := some "child".toList
  sourceBpmnXml := some xml
  sourceDmnXml := none
  createdAt := some stamp
  updatedAt := stamp

/-- No row and no entry. -/
def emptyState : State Unit where
  rows _ := []
  clock _ := 0
  cache := []

/-- A revision is indexed, a second one is stored and the first one deleted: one row as
before, and the resolver returns the second. -/
theorem call_activity_resolves_revision :
    ∃ t, Run (step parseChild) Stamped emptyState
        [.insert () (childRow 1 childXml 1), .index () "t1".toList,
          .insert () (childRow 2 revisedXml 2), .delete () 1] t ∧
      (callActivityDefinitionIndex parseChild t () "t1".toList).1 =
        buildIndex parseChild [childRow 2 revisedXml 2] ∧
      resolveDefinition parseChild id (fun _ _ => .ok .published) t ()
          { tenantId := some "t1".toList, calledElement := some "Process_child".toList } =
        .ok (childRow 2 revisedXml 2) := by
  have hrun : ∃ t, Run (step parseChild) Stamped emptyState
      [.insert () (childRow 1 childXml 1), .index () "t1".toList,
        .insert () (childRow 2 revisedXml 2), .delete () 1] t ∧
      t.tenantRows () "t1".toList = [childRow 2 revisedXml 2] := by
    refine ⟨_, Run.cons ⟨by decide, by decide⟩ rfl (Run.cons trivial rfl
      (Run.cons ⟨by decide, by decide⟩ rfl (Run.cons trivial rfl (Run.nil _)))), by decide⟩
  obtain ⟨t, hrun, hrows⟩ := hrun
  have hstart : Start emptyState := ⟨rfl, fun _ => List.nodup_nil, by
    intro bind row hrow
    cases hrow⟩
  obtain ⟨hindex, hresolve⟩ := call_activity_index_transparent hrun hstart ()
  refine ⟨t, hrun, hrows ▸ hindex "t1".toList, ?_⟩
  obtain ⟨-, hcomplete, -, -⟩ := hresolve id (fun _ _ => .ok .published)
    { tenantId := some "t1".toList, calledElement := some "Process_child".toList } "t1".toList
    "Process_child".toList rfl rfl
  apply hcomplete
  · refine ⟨fun _ _ _ => ⟨_, rfl⟩, ?_⟩
    intro row _ e he
    cases he
  · rw [hrows]
    refine ⟨List.mem_singleton.mpr rfl, ?_, rfl, ?_, ?_⟩
    · exact ⟨revisedXml, "child".toList, _, by decide, by decide, rfl, by decide⟩
    · intro other hother _ _
      rw [List.mem_singleton.mp hother]
    · intro other hother _ _
      rw [List.mem_singleton.mp hother]

end M8flow.Workflow.CallActivity
