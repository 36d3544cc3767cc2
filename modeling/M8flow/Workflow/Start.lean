import M8flow.Catalog.Service
import M8flow.Lib.Run

/-!
# The definition that a start runs

`start` and `_definition_id_for_start` of `workflow/__init__.py`, with
`catalog.read_primary_bpmn` and `catalog.model_dmn_xml`, for one tenant.  Starts run
beside saves and copies of models, which change the files and import definitions.

Core keeps one definition for each digest of a BPMN text and names in it the model that
was imported last.  It creates the instance in a session of its own, from the definition
as it is stored then.

- `Undisturbed` is what an import must find: no start that has decided on the definition,
  and has not created its instance yet, is of another model or another decision;
- `inv_step` is what a step keeps under it;
- `instances_of_model` is what then holds of every instance.
-/

namespace M8flow.Workflow.Start

open M8flow.Lib M8flow.Catalog

variable {δ : Type}

/-! ## What a start reads -/

/-- The path that `read_primary_bpmn` reads: the primary file, or the first diagram. -/
def primaryBpmnPath (host : Host δ) (tree : FileTree) (processModelIdentifier : Text) :
    Except Raised (Option TreePath) := do
  let dir ← resolvedInsideTenant host [processModelIdentifier] modelPathError
  if !tree.isDir dir then pure none
  else
    let path ← modelFilePath host tree processModelIdentifier
    if tree.isFile path then pure (some path)
    else
      match firstBpmnName host.casing tree dir with
      | none => pure none
      | some name =>
          (resolvedInsideTenant host [processModelIdentifier, name] modelPathError).map some

/-- `read_primary_bpmn`: the file name and the text. -/
def readPrimaryBpmn (host : Host δ) (tree : FileTree) (processModelIdentifier : Text) :
    Except Raised (Option (Text × Text)) :=
  match primaryBpmnPath host tree processModelIdentifier with
  | .error (.api _) => .ok none
  | .error other => .error other
  | .ok none => .ok none
  | .ok (some path) =>
      match tree.read path with
      | none => .ok none
      | some content =>
          match readText content with
          | none => .error (.api (.of "invalid_file_content" "File is not valid UTF-8" 400))
          | some xml =>
              (rejectUnsupportedConstructs host.casing (host.parseXml xml)).map fun _ =>
                some (path.getLast?.getD [], xml)

/-- What a start has read, and the files as they were at its two readings, which are kept
for the statements only. -/
structure Spec where
  userId : Nat
  processModelIdentifier : Text
  fileName : Text
  xml : Text
  dmnXml : Option Text
  bpmnTree : FileTree
  dmnTree : FileTree

/-- The BPMN is the model's primary file, and the DMN the one that `model_dmn_xml` chose. -/
structure Spec.Read (host : Host δ) (spec : Spec) : Prop where
  bpmn : readPrimaryBpmn host spec.bpmnTree spec.processModelIdentifier =
    .ok (some (spec.fileName, spec.xml))
  dmn : modelDmnXml host spec.dmnTree spec.processModelIdentifier spec.xml [] = .ok spec.dmnXml

/-- The import of a start. -/
def Spec.command (spec : Spec) : ImportCommand :=
  { userId := spec.userId, bpmnIdentifier := spec.processModelIdentifier
    sourceBpmnXml := spec.xml, sourceDmnXml := spec.dmnXml, bpmnName := spec.fileName }

/-! ## Definitions -/

/-- A row of core's definitions; its id is its place in the table. -/
structure Definition where
  processXmlDigest : Text
  processModelIdentifier : Text
  sourceBpmnXml : Text
  sourceDmnXml : Option Text
  bpmnName : Text
  deriving Repr, DecidableEq

/-- The row after another import of its text; core keeps the DMN when it is given none. -/
def imported (command : ImportCommand) (definition : Definition) : Definition :=
  { definition with
    processModelIdentifier := command.bpmnIdentifier
    sourceBpmnXml := command.sourceBpmnXml
    sourceDmnXml := command.sourceDmnXml.or definition.sourceDmnXml
    bpmnName := command.bpmnName }

section Digest

variable (digest : Text → Text)

/-- Core's import: the row of the text's digest, or a new one. -/
def upsert (command : ImportCommand) (definitions : List Definition) : List Definition :=
  if definitions.any fun definition =>
      definition.processXmlDigest = digest command.sourceBpmnXml then
    definitions.map fun definition =>
      if definition.processXmlDigest = digest command.sourceBpmnXml then
        imported command definition
      else definition
  else
    definitions ++ [⟨digest command.sourceBpmnXml, command.bpmnIdentifier,
      command.sourceBpmnXml, command.sourceDmnXml, command.bpmnName⟩]

/-- The id of the row of a text. -/
def definitionId (xml : Text) (definitions : List Definition) : Option Nat :=
  definitions.findIdx? fun definition => definition.processXmlDigest = digest xml

/-- `imported_as_this_model`. -/
def importedAsThisModel (spec : Spec) (definitions : List Definition) : Option Nat :=
  (definitionId digest spec.xml definitions).filter fun i =>
    definitions[i]?.any fun definition =>
      definition.processModelIdentifier = spec.processModelIdentifier ∧
        (spec.dmnXml = none ∨ definition.sourceDmnXml = spec.dmnXml)

/-! ## The system -/

/-- How far a start is. -/
inductive Phase where
  | reading (userId : Nat) (processModelIdentifier : Text)
  | readXml (userId : Nat) (processModelIdentifier fileName xml : Text) (bpmnTree : FileTree)
  | specified (spec : Spec)
  | locking (spec : Spec)
  /-- On PostgreSQL this start holds the lock of the digest. -/
  | importing (spec : Spec)
  | decided (spec : Spec) (definitionId : Nat)
  | created
  | failed

/-- An instance: what its start had read, and what core took from the definition. -/
structure Instance where
  spec : Spec
  processModelIdentifier : Text
  sourceBpmnXml : Text
  sourceDmnXml : Option Text

/-- The files, the stored definitions and instances, and the starts. -/
structure State where
  tree : FileTree
  definitions : List Definition
  starts : List Phase
  instances : List Instance

/-- A save or a copy changes the files, or its import is committed; or a start does its
next step. -/
inductive Event where
  | files (tree : FileTree)
  | imports (command : ImportCommand)
  | begin (userId : Nat) (processModelIdentifier : Text)
  | readBpmn (c : Nat)
  | readDmn (c : Nat)
  | check (c : Nat)
  | lock (c : Nat)
  | commit (c : Nat)
  | create (c : Nat)
  | fail (c : Nat)

def State.setStart (s : State) (c : Nat) (phase : Phase) : State :=
  { s with starts := s.starts.set c phase }

/-- The start holds the lock of the text's digest. -/
def Phase.Holds (xml : Text) : Phase → Bool
  | .importing spec => digest spec.xml = digest xml
  | _ => false

/-- The phase after a look at the definitions. -/
def afterCheck (spec : Spec) (definitions : List Definition) (otherwise : Phase) : Phase :=
  match importedAsThisModel digest spec definitions with
  | some i => .decided spec i
  | none => otherwise

/-- One step; `postgresql` is the dialect, without which there is no lock and no second
look. -/
def step (host : Host δ) (postgresql : Bool) (s : State) : Event → Option State
  | .files tree => some { s with tree }
  | .imports command => some { s with definitions := upsert digest command s.definitions }
  | .begin userId processModelIdentifier =>
      match processModelStatus host s.tree processModelIdentifier with
      | .ok .published =>
          some { s with starts := s.starts ++ [.reading userId processModelIdentifier] }
      | _ => some { s with starts := s.starts ++ [.failed] }
  | .readBpmn c =>
      match s.starts[c]? with
      | some (.reading userId processModelIdentifier) =>
          match readPrimaryBpmn host s.tree processModelIdentifier with
          | .ok (some (fileName, xml)) =>
              some (s.setStart c (.readXml userId processModelIdentifier fileName xml s.tree))
          | _ => some (s.setStart c .failed)
      | _ => none
  | .readDmn c =>
      match s.starts[c]? with
      | some (.readXml userId processModelIdentifier fileName xml bpmnTree) =>
          match modelDmnXml host s.tree processModelIdentifier xml [] with
          | .ok dmnXml =>
              some (s.setStart c (.specified
                ⟨userId, processModelIdentifier, fileName, xml, dmnXml, bpmnTree, s.tree⟩))
          | .error _ => some (s.setStart c .failed)
      | _ => none
  | .check c =>
      match s.starts[c]? with
      | some (.specified spec) =>
          some (s.setStart c (afterCheck digest spec s.definitions
            (if postgresql then .locking spec else .importing spec)))
      | _ => none
  | .lock c =>
      match s.starts[c]? with
      | some (.locking spec) =>
          if s.starts.any (Phase.Holds digest spec.xml) then none
          else some (s.setStart c (afterCheck digest spec s.definitions (.importing spec)))
      | _ => none
  | .commit c =>
      match s.starts[c]? with
      | some (.importing spec) =>
          let definitions := upsert digest spec.command s.definitions
          match definitionId digest spec.xml definitions with
          | some i => some ({ s with definitions }.setStart c (.decided spec i))
          | none => none
      | _ => none
  | .create c =>
      match s.starts[c]? with
      | some (.decided spec i) =>
          match s.definitions[i]? with
          | some definition =>
              some ({ s with
                instances := ⟨spec, definition.processModelIdentifier,
                  definition.sourceBpmnXml, definition.sourceDmnXml⟩ :: s.instances
                }.setStart c .created)
          | none => none
      | _ => none
  | .fail c =>
      match s.starts[c]? with
      | some .created => none
      | some _ => some (s.setStart c .failed)
      | none => none

/-- No stored definition of another text has the text's digest. -/
def NoCollision (s : State) (xml : Text) : Prop :=
  ∀ definition ∈ s.definitions, definition.processXmlDigest = digest xml →
    definition.sourceBpmnXml = xml

/-- The import leaves the definition that the start has decided on to the start's model and
its decision. -/
def Spares (command : ImportCommand) : Phase → Prop
  | .decided spec _ => digest command.sourceBpmnXml = digest spec.xml →
      command.sourceBpmnXml = spec.xml ∧
      command.bpmnIdentifier = spec.processModelIdentifier ∧
      (spec.dmnXml = none ∨ command.sourceDmnXml = none ∨ command.sourceDmnXml = spec.dmnXml)
  | _ => True

/-- The import spares every start. -/
def Undisturbed (s : State) (command : ImportCommand) : Prop :=
  ∀ phase ∈ s.starts, Spares digest command phase

instance (s : State) (xml : Text) : Decidable (NoCollision digest s xml) := by
  unfold NoCollision
  infer_instance

instance (command : ImportCommand) : ∀ phase, Decidable (Spares digest command phase)
  | .decided spec _ => inferInstanceAs (Decidable
      (digest command.sourceBpmnXml = digest spec.xml →
        command.sourceBpmnXml = spec.xml ∧
        command.bpmnIdentifier = spec.processModelIdentifier ∧
        (spec.dmnXml = none ∨ command.sourceDmnXml = none ∨
          command.sourceDmnXml = spec.dmnXml)))
  | .reading _ _ | .readXml _ _ _ _ _ | .specified _ | .locking _ | .importing _ | .created
  | .failed => inferInstanceAs (Decidable True)

instance (s : State) (command : ImportCommand) : Decidable (Undisturbed digest s command) := by
  unfold Undisturbed
  infer_instance

/-- What a look at the definitions, or the import of a start, must find. -/
def Finds (s : State) : Phase → Prop
  | .specified spec | .locking spec => NoCollision digest s spec.xml
  | .importing spec => Undisturbed digest s spec.command
  | _ => True

instance (s : State) : ∀ phase, Decidable (Finds digest s phase)
  | .specified spec | .locking spec => inferInstanceAs (Decidable (NoCollision digest s spec.xml))
  | .importing spec => inferInstanceAs (Decidable (Undisturbed digest s spec.command))
  | .reading _ _ | .readXml _ _ _ _ _ | .decided _ _ | .created | .failed =>
      inferInstanceAs (Decidable True)

/-- The condition on a step. -/
def Meets (s : State) : Event → Prop
  | .imports command => Undisturbed digest s command
  | .check c | .lock c | .commit c => ∀ phase ∈ s.starts[c]?, Finds digest s phase
  | _ => True

instance (s : State) : ∀ e, Decidable (Meets digest s e)
  | .imports command => inferInstanceAs (Decidable (Undisturbed digest s command))
  | .check c | .lock c | .commit c =>
      inferInstanceAs (Decidable (∀ phase ∈ s.starts[c]?, Finds digest s phase))
  | .files _ | .begin _ _ | .readBpmn _ | .readDmn _ | .create _ | .fail _ =>
      inferInstanceAs (Decidable True)

end Digest

/-! ## The invariant -/

/-- The definition is the one that the start has decided on. -/
structure Matches (digest : Text → Text) (spec : Spec) (definition : Definition) : Prop where
  digest : definition.processXmlDigest = digest spec.xml
  identifier : definition.processModelIdentifier = spec.processModelIdentifier
  bpmn : definition.sourceBpmnXml = spec.xml
  dmn : ∀ dmnXml, spec.dmnXml = some dmnXml → definition.sourceDmnXml = some dmnXml

/-- What holds of a start in each phase. -/
def PhaseInv (host : Host δ) (digest : Text → Text) (definitions : List Definition) :
    Phase → Prop
  | .readXml _ processModelIdentifier fileName xml bpmnTree =>
      readPrimaryBpmn host bpmnTree processModelIdentifier = .ok (some (fileName, xml))
  | .specified spec | .locking spec | .importing spec => spec.Read host
  | .decided spec i => spec.Read host ∧
      ∃ definition, definitions[i]? = some definition ∧ Matches digest spec definition
  | _ => True

/-- The instance was created from a definition of the start's model, with the BPMN and the
DMN that the start had read. -/
structure Instance.Belongs (host : Host δ) (created : Instance) : Prop where
  read : created.spec.Read host
  identifier : created.processModelIdentifier = created.spec.processModelIdentifier
  bpmn : created.sourceBpmnXml = created.spec.xml
  dmn : ∀ dmnXml, created.spec.dmnXml = some dmnXml → created.sourceDmnXml = some dmnXml

/-- What holds in every state of a run that meets the condition. -/
structure Inv (host : Host δ) (digest : Text → Text) (s : State) : Prop where
  starts : ∀ phase ∈ s.starts, PhaseInv host digest s.definitions phase
  instances : ∀ created ∈ s.instances, created.Belongs host

section Preserved

variable {host : Host δ} {digest : Text → Text}

/-- An import updates the rows of its digest in place. -/
theorem getElem?_upsert {command : ImportCommand} {definitions : List Definition} {i : Nat}
    {definition : Definition} (h : definitions[i]? = some definition) :
    (upsert digest command definitions)[i]? =
      some (if definition.processXmlDigest = digest command.sourceBpmnXml then
        imported command definition else definition) := by
  unfold upsert
  split
  · rw [List.getElem?_map, h, Option.map_some]
  · rename_i hnone
    have hlt : i < definitions.length := (List.getElem?_eq_some_iff.mp h).1
    have hother : ¬ definition.processXmlDigest = digest command.sourceBpmnXml := by
      intro hsame
      apply hnone
      exact List.any_eq_true.mpr
        ⟨definition, List.mem_of_getElem? h, decide_eq_true hsame⟩
    rw [List.getElem?_append_left hlt, h, if_neg hother]

/-- After an import, a row of its digest is the imported one. -/
theorem matches_of_mem_upsert {spec : Spec} {definitions : List Definition}
    {definition : Definition} (hmem : definition ∈ upsert digest spec.command definitions)
    (hdigest : definition.processXmlDigest = digest spec.xml) :
    Matches digest spec definition := by
  unfold upsert at hmem
  split at hmem
  · obtain ⟨before, _, rfl⟩ := List.mem_map.mp hmem
    split at hdigest
    · rename_i hbefore
      rw [if_pos hbefore]
      refine ⟨hbefore, rfl, rfl, ?_⟩
      intro dmnXml hdmn
      show spec.dmnXml.or before.sourceDmnXml = some dmnXml
      rw [hdmn, Option.some_or]
    · rename_i hbefore
      exact absurd hdigest hbefore
  · rename_i hnone
    rcases List.mem_append.mp hmem with hold | hnew
    · refine absurd ?_ hnone
      exact List.any_eq_true.mpr ⟨definition, hold, decide_eq_true hdigest⟩
    · rw [List.mem_singleton.mp hnew]
      exact ⟨rfl, rfl, rfl, fun _ hdmn => hdmn⟩

/-- An import that spares the start keeps its definition. -/
theorem Matches.imported {spec : Spec} {definition : Definition} {command : ImportCommand}
    {i : Nat} (h : Matches digest spec definition) (hspares : Spares digest command (.decided spec i))
    (hsame : definition.processXmlDigest = digest command.sourceBpmnXml) :
    Matches digest spec (imported command definition) := by
  obtain ⟨hbpmn, hidentifier, hdmn⟩ := hspares (hsame.symm.trans h.digest)
  refine ⟨h.digest, hidentifier, hbpmn, ?_⟩
  intro dmnXml hspec
  show command.sourceDmnXml.or definition.sourceDmnXml = some dmnXml
  rcases hdmn with hnone | hnone | hgiven
  · rw [hnone] at hspec
    cases hspec
  · rw [hnone, Option.none_or]
    exact h.dmn dmnXml hspec
  · rw [hgiven, hspec, Option.some_or]

/-- What holds of a start goes on holding over an import that spares it. -/
theorem phaseInv_upsert {definitions : List Definition} {command : ImportCommand}
    {phase : Phase} (h : PhaseInv host digest definitions phase)
    (hspares : Spares digest command phase) :
    PhaseInv host digest (upsert digest command definitions) phase := by
  cases phase with
  | decided spec i =>
      obtain ⟨hread, definition, hdefinition, hmatches⟩ := h
      refine ⟨hread, _, getElem?_upsert hdefinition, ?_⟩
      split
      · rename_i hsame
        exact hmatches.imported hspares hsame
      · exact hmatches
  | reading userId processModelIdentifier => trivial
  | readXml userId processModelIdentifier fileName xml bpmnTree => exact h
  | specified spec => exact h
  | locking spec => exact h
  | importing spec => exact h
  | created => trivial
  | failed => trivial

theorem Inv.imports {s : State} (hinv : Inv host digest s) {command : ImportCommand}
    (hundisturbed : Undisturbed digest s command) :
    Inv host digest { s with definitions := upsert digest command s.definitions } where
  starts phase hphase := phaseInv_upsert (hinv.starts phase hphase) (hundisturbed phase hphase)
  instances := hinv.instances

theorem Inv.setStart {s : State} (hinv : Inv host digest s) (c : Nat) {phase : Phase}
    (hphase : PhaseInv host digest s.definitions phase) :
    Inv host digest (s.setStart c phase) where
  starts := by
    intro other hother
    rcases List.mem_or_eq_of_mem_set hother with hold | rfl
    · exact hinv.starts other hold
    · exact hphase
  instances := hinv.instances

theorem Inv.appendStart {s : State} (hinv : Inv host digest s) {phase : Phase}
    (hphase : PhaseInv host digest s.definitions phase) :
    Inv host digest { s with starts := s.starts ++ [phase] } where
  starts := by
    intro other hother
    rcases List.mem_append.mp hother with hold | hnew
    · exact hinv.starts other hold
    · rw [List.mem_singleton.mp hnew]
      exact hphase
  instances := hinv.instances

theorem definitionId_eq_some {xml : Text} {definitions : List Definition} {i : Nat}
    (h : definitionId digest xml definitions = some i) :
    ∃ definition, definitions[i]? = some definition ∧
      definition.processXmlDigest = digest xml := by
  obtain ⟨hlt, hdigest, _⟩ := List.findIdx?_eq_some_iff_getElem.mp h
  exact ⟨definitions[i], List.getElem?_eq_getElem hlt, of_decide_eq_true hdigest⟩

/-- A look that finds the definition of the model decides on it. -/
theorem phaseInv_afterCheck {s : State} {spec : Spec} {otherwise : Phase}
    (hread : spec.Read host) (hcollision : NoCollision digest s spec.xml)
    (hotherwise : PhaseInv host digest s.definitions otherwise) :
    PhaseInv host digest s.definitions (afterCheck digest spec s.definitions otherwise) := by
  unfold afterCheck
  split
  · rename_i i hfound
    obtain ⟨hid, hchecked⟩ := Option.filter_eq_some_iff.mp hfound
    obtain ⟨definition, hdefinition, hdigest⟩ := definitionId_eq_some hid
    rw [hdefinition, Option.any_some] at hchecked
    obtain ⟨hidentifier, hdmn⟩ := of_decide_eq_true hchecked
    have hbpmn := hcollision definition (List.mem_of_getElem? hdefinition) hdigest
    refine ⟨hread, definition, hdefinition, hdigest, hidentifier, hbpmn, ?_⟩
    intro dmnXml hspec
    rcases hdmn with hnone | hsame
    · rw [hnone] at hspec
      cases hspec
    · rw [hsame, hspec]
  · exact hotherwise

/-- The import of a start decides on the definition it has stored. -/
theorem inv_commit {s : State} (hinv : Inv host digest s) {c : Nat} {spec : Spec} {i : Nat}
    (hread : spec.Read host) (hundisturbed : Undisturbed digest s spec.command)
    (hid : definitionId digest spec.xml (upsert digest spec.command s.definitions) = some i) :
    Inv host digest ({ s with
      definitions := upsert digest spec.command s.definitions }.setStart c (.decided spec i)) := by
  apply (hinv.imports hundisturbed).setStart
  obtain ⟨definition, hdefinition, hdigest⟩ := definitionId_eq_some hid
  exact ⟨hread, definition, hdefinition,
    matches_of_mem_upsert (List.mem_of_getElem? hdefinition) hdigest⟩

/-- The instance is created from the definition that the start has decided on. -/
theorem inv_create {s : State} (hinv : Inv host digest s) {c : Nat} {spec : Spec} {i : Nat}
    {definition : Definition}
    (hdecided : PhaseInv host digest s.definitions (.decided spec i))
    (hdefinition : s.definitions[i]? = some definition) :
    Inv host digest ({ s with
      instances := ⟨spec, definition.processModelIdentifier, definition.sourceBpmnXml,
        definition.sourceDmnXml⟩ :: s.instances }.setStart c .created) := by
  obtain ⟨hread, found, hfound, hmatches⟩ := hdecided
  rw [hdefinition] at hfound
  cases hfound
  have hcreated : Inv host digest { s with
      instances := ⟨spec, definition.processModelIdentifier, definition.sourceBpmnXml,
        definition.sourceDmnXml⟩ :: s.instances } := by
    refine ⟨hinv.starts, ?_⟩
    intro created hmem
    rcases List.mem_cons.mp hmem with rfl | hold
    · exact ⟨hread, hmatches.identifier, hmatches.bpmn, hmatches.dmn⟩
    · exact hinv.instances created hold
  exact hcreated.setStart c trivial

/-- What a step keeps. -/
theorem inv_step {postgresql : Bool} {s t : State} {e : Event} (hinv : Inv host digest s)
    (hmeets : Meets digest s e) (h : step digest host postgresql s e = some t) :
    Inv host digest t := by
  have hstart : ∀ {c phase}, s.starts[c]? = some phase →
      PhaseInv host digest s.definitions phase :=
    fun hphase => hinv.starts _ (List.mem_of_getElem? hphase)
  cases e with
  | files tree =>
      cases h
      exact ⟨hinv.starts, hinv.instances⟩
  | imports command =>
      cases h
      exact hinv.imports hmeets
  | begin userId processModelIdentifier =>
      simp only [step] at h
      split at h
      · cases h
        exact hinv.appendStart trivial
      · cases h
        exact hinv.appendStart trivial
  | readBpmn c =>
      simp only [step] at h
      split at h
      · split at h
        · rename_i fileName xml hread
          cases h
          exact hinv.setStart c hread
        · cases h
          exact hinv.setStart c trivial
      · cases h
  | readDmn c =>
      simp only [step] at h
      split at h
      · rename_i userId processModelIdentifier fileName xml bpmnTree hphase
        split at h
        · rename_i dmnXml hdmn
          cases h
          exact hinv.setStart c ⟨hstart hphase, hdmn⟩
        · cases h
          exact hinv.setStart c trivial
      · cases h
  | check c =>
      simp only [step] at h
      split at h
      · rename_i spec hphase
        cases h
        have hread : spec.Read host := hstart hphase
        apply hinv.setStart
        apply phaseInv_afterCheck hread (hmeets _ hphase)
        split
        · exact hread
        · exact hread
      · cases h
  | lock c =>
      simp only [step] at h
      split at h
      · rename_i spec hphase
        split at h
        · cases h
        · cases h
          have hread : spec.Read host := hstart hphase
          exact hinv.setStart c (phaseInv_afterCheck hread (hmeets _ hphase) hread)
      · cases h
  | commit c =>
      simp only [step] at h
      split at h
      · rename_i spec hphase
        split at h
        · rename_i i hid
          cases h
          exact inv_commit hinv (hstart hphase) (hmeets _ hphase) hid
        · cases h
      · cases h
  | create c =>
      simp only [step] at h
      split at h
      · rename_i spec i hphase
        split at h
        · rename_i definition hdefinition
          cases h
          exact inv_create hinv (hstart hphase) hdefinition
        · cases h
      · cases h
  | fail c =>
      simp only [step] at h
      split at h
      · cases h
      · cases h
        exact hinv.setStart c trivial
      · cases h

/-- In every run whose imports find what they need, every instance was created from a
definition of the model that was started, whose BPMN is the model's primary file and whose
DMN is the chosen one, as the start has read them. -/
theorem instances_of_model {postgresql : Bool} {tree : FileTree}
    {definitions : List Definition} {es : List Event} {s : State}
    (hrun : Run (step digest host postgresql) (Meets digest) ⟨tree, definitions, [], []⟩ es s) :
    ∀ created ∈ s.instances, created.Belongs host := by
  have hinv : Inv host digest ⟨tree, definitions, [], []⟩ := by
    constructor
    · intro phase hphase
      cases hphase
    · intro created hcreated
      cases hcreated
  exact (hrun.invariant hinv fun _ _ _ hinv hmeets hstep =>
    inv_step hinv hmeets hstep).instances

end Preserved

/-! ## Runs -/

/-- A host whose parser finds a root in everything. -/
def plainHost : Host Unit where
  casing := .ascii
  root := ["srv".toList, "models".toList, "acme".toList]
  root_segments := by decide
  parseXml _ := .root (.mk (some "definitions".toList) none [] [])
  importDefinition _ session := (.ok (), session)
  repr _ := []

/-- A model with a diagram and no metadata, which reads as published. -/
def orderFiles : FileTree :=
  ⟨[(["sales".toList], .dir), (["sales".toList, "order".toList], .dir),
    (["sales".toList, "order".toList, "order.bpmn".toList],
      .file (encodeUtf8 "<definitions/>".toList))],
    closed_of_forall (by decide +kernel), by decide +kernel⟩

/-- The import at the end of a copy of the model. -/
def copyCommand : ImportCommand :=
  { userId := 2, bpmnIdentifier := "sales/copy".toList, sourceBpmnXml := "<definitions/>".toList
    sourceDmnXml := none, bpmnName := "order.bpmn".toList }

/-- A start of the model, with other events before and after its import. -/
def startOrder (before after : List Event) : List Event :=
  [.begin 1 "sales/order".toList, .readBpmn 0, .readDmn 0] ++ before ++
    [.check 0, .lock 0, .commit 0] ++ after ++ [.create 0]

/-- The models of the instances, and those that were started. -/
def models (s : State) : List (Text × Text) :=
  s.instances.map fun created =>
    (created.processModelIdentifier, created.spec.processModelIdentifier)

/-- A copy that is imported before the start looks at the definitions does no harm. -/
theorem instances_of_model_copied :
    ∃ s, models s = [("sales/order".toList, "sales/order".toList)] ∧
      ∀ created ∈ s.instances, created.Belongs plainHost := by
  have hexec : (exec (step id plainHost true) (Meets id) ⟨orderFiles, [], [], []⟩
      (startOrder [.imports copyCommand] [])).map models =
      some [("sales/order".toList, "sales/order".toList)] := by decide +kernel
  obtain ⟨s, hrun, hmodels⟩ := run_of_exec_map hexec
  exact ⟨s, hmodels, instances_of_model hrun⟩

/-- A copy that is imported between the commit of the start and the creation of the instance
gets the instance. -/
theorem instance_of_the_copy :
    ∃ s, Run (step id plainHost true) (fun _ _ => True) ⟨orderFiles, [], [], []⟩
        (startOrder [] [.imports copyCommand]) s ∧
      models s = [("sales/copy".toList, "sales/order".toList)] := by
  have hexec : (exec (step id plainHost true) (fun _ _ => True) ⟨orderFiles, [], [], []⟩
      (startOrder [] [.imports copyCommand])).map models =
      some [("sales/copy".toList, "sales/order".toList)] := by decide +kernel
  exact run_of_exec_map hexec

end M8flow.Workflow.Start
