import M8flow.Catalog.Accepted
import M8flow.Catalog.Status
import M8flow.Lib.Run
import Mathlib.Logic.Function.Basic

/-!
# Creates beside each other

`create_process_model` checks that nothing is at the target, and only later makes the
directory, writes the metadata and the diagram, and, when one of these raises, removes
whatever is at the target by then.  Here the calls of several requests take these steps in
any order, and any step can fail.

- `advance` is one step of a call; `rest_advance` says that a call whose steps nobody
  disturbs does what `createProcessModel` does.
- `Spares` is the condition under which a failing call takes nothing from another.
- `intact_of_run` is what then holds of every call that returned.
-/

namespace M8flow.Catalog.Creating

open M8flow.Lib M8flow.Lib.FileTree

variable {δ ι α β : Type}

/-! ## One call -/

/-- The arguments of a call. -/
structure Arguments where
  groupId : TextArgument
  leafId : TextArgument
  displayName : TextArgument
  description : TextArgument
  userId : Nat

/-- What the checks of a call have decided. -/
structure Creation where
  group : Text
  leaf : Text
  target : TreePath
  name : Text
  desc : Text
  userId : Nat

namespace Creation

def modelId (x : Creation) : Text := x.group ++ '/' :: x.leaf

def fileName (x : Creation) : Text := x.leaf ++ ".bpmn".toList

def xml (x : Creation) : Text := defaultBpmnXml (bpmnProcessId x.leaf)

def command (x : Creation) : ImportCommand :=
  { userId := x.userId, bpmnIdentifier := x.modelId, sourceBpmnXml := x.xml
    sourceDmnXml := none, bpmnName := x.fileName }

/-- The metadata of the new model. -/
def info (x : Creation) : List (Text × Text) :=
  [("display_name".toList, x.name), ("description".toList, x.desc),
    ("status".toList, ModelStatus.draft.text), ("primary_file_name".toList, x.fileName),
    ("primary_process_id".toList, bpmnProcessId x.leaf)]

end Creation

variable (host : Host δ)

/-- `create_process_model` up to its `try`, and what follows it. -/
def admitting (args : Arguments) (next : Creation → Service δ α) : Service δ α := do
  let group ← check (validateProcessGroupId args.groupId)
  let leaf ← check (resolveProcessModelLeaf host.casing args.leafId args.displayName)
  let found ← inspect fun tree => processGroupExists host tree (some group)
  require found "not_found" "Process group not found" 404
  let modelId := group ++ '/' :: leaf
  let target ← check (resolvedInsideTenant host [modelId] modelPathError)
  let isModel ← inspect fun tree => modelExists host tree modelId
  let taken ← inspect fun tree => .ok (tree.exists target)
  require (!(isModel || taken)) "process_model_exists" "Process model already exists" 409
  let name := (truthy (args.displayName.map Text.strip)).getD leaf
  let desc := (args.description.map Text.strip).getD []
  let xml := defaultBpmnXml (bpmnProcessId leaf)
  check (rejectUnsupportedConstructs host.casing (host.parseXml xml))
  next { group, leaf, target, name, desc, userId := args.userId }

/-- `mkdir` of `add_process_model`. -/
def makeModelDir (modelId : Text) : Service δ Unit := do
  let path ← check (resolvedInsideTenant host [modelId] modelPathError)
  makeDirs path

/-- The last statement of the `try`. -/
def drawModel (x : Creation) : Service δ Unit := do
  let _ ← writeSpecFile host x.modelId x.fileName (encodeUtf8 x.xml)
  pure ()

/-- How far a call is. -/
inductive Phase where
  | idle
  | checked (x : Creation)
  | imported (x : Creation)
  | made (x : Creation)
  | described (x : Creation)
  | drawn (x : Creation)
  /-- An exception left the `try`, and the cleanup is still to come. -/
  | raising (x : Creation) (e : Raised)
  | returned (x : Creation) (identity : ModelIdentity)
  | failed (e : Raised)

/-- A step that goes on to `next`, or to `raised` when it raises by itself or by a fault. -/
def attempt (fault : Option Raised) (action : Service δ α) (next : α → Phase)
    (raised : Raised → Phase) (w : World δ) : Phase × World δ :=
  match fault with
  | some e => (raised e, w)
  | none =>
      match action w with
      | (.ok a, after) => (next a, after)
      | (.error e, after) => (raised e, after)

/-- One step of a call. -/
def advance (args : Arguments) (fault : Option Raised) :
    Phase → World δ → Option (Phase × World δ)
  | .idle, w => some (attempt fault (admitting host args pure) .checked .failed w)
  | .checked x, w =>
      some (attempt fault (importDefinition host x.command) (fun _ => .imported x) (.raising x) w)
  | .imported x, w =>
      some (attempt fault (makeModelDir host x.modelId) (fun _ => .made x) (.raising x) w)
  | .made x, w =>
      some (attempt fault (writeProcessModelJson host x.modelId x.info) (fun _ => .described x)
        (.raising x) w)
  | .described x, w =>
      some (attempt fault (drawModel host x) (fun _ => .drawn x) (.raising x) w)
  | .drawn x, w => some (attempt fault (requireIdentity host x.modelId) (.returned x) .failed w)
  | .raising x e, w =>
      some (attempt fault (removePath x.target) (fun _ => .failed e) .failed w)
  | .returned _ _, _ => none
  | .failed _, _ => none

/-! ## Undisturbed -/

/-- What a call still does. -/
def rest (args : Arguments) : Phase → Service δ ModelIdentity
  | .idle => createProcessModel host args.groupId args.leafId args.displayName args.description
      args.userId
  | .checked x => do
      undoing x.target do
        importDefinition host x.command
        addProcessModel host x.modelId x.info
        drawModel host x
      requireIdentity host x.modelId
  | .imported x => do
      undoing x.target do
        addProcessModel host x.modelId x.info
        drawModel host x
      requireIdentity host x.modelId
  | .made x => do
      undoing x.target do
        writeProcessModelJson host x.modelId x.info
        drawModel host x
      requireIdentity host x.modelId
  | .described x => do
      undoing x.target (drawModel host x)
      requireIdentity host x.modelId
  | .drawn x => requireIdentity host x.modelId
  | .raising x e => do
      removePath x.target
      Proc.raise e
  | .returned _ identity => pure identity
  | .failed e => Proc.raise e

/-- The checks come first, and then the rest of the call. -/
theorem createProcessModel_eq (args : Arguments) :
    createProcessModel host args.groupId args.leafId args.displayName args.description args.userId =
      admitting host args fun x => rest host args (.checked x) :=
  rfl

section Undisturbed

variable {host} {args : Arguments} {w after : World δ}

theorem check_bind_run (answer : Except Raised α) (f : α → Service δ β) (w : World δ) :
    (check answer >>= f) w =
      match answer with
      | .ok a => f a w
      | .error e => (.error e, w) := by
  cases answer with
  | ok a => rfl
  | error e => rfl

theorem inspect_bind_run (answer : FileTree → Except Raised α) (f : α → Service δ β)
    (w : World δ) : (inspect answer >>= f) w = (check (answer w.tree) >>= f) w := by
  rw [check_bind_run]
  show (Proc.bind (inspect answer) f) w = _
  unfold Proc.bind
  rw [inspect_run]
  cases answer w.tree with
  | ok a => rfl
  | error e => rfl

theorem require_bind_run (holds : Bool) (errorCode message : String) (statusCode : Nat)
    (f : Unit → Service δ β) (w : World δ) :
    (require holds errorCode message statusCode >>= f) w =
      if holds then f () w else (.error (.api (.of errorCode message statusCode)), w) := by
  cases holds with
  | true => rfl
  | false => rfl

/-- The checks read, and hand on what they have decided or raise. -/
theorem admitting_run (host : Host δ) (args : Arguments) (w : World δ) :
    (∃ x : Creation, resolvedInsideTenant host [x.modelId] modelPathError = .ok x.target ∧
      isGroupSegment x.leaf = true ∧
      ∀ (α : Type) (next : Creation → Service δ α), admitting host args next w = next x w) ∨
    ∃ e, ∀ (α : Type) (next : Creation → Service δ α),
      admitting host args next w = (.error e, w) := by
  simp only [admitting, inspect_bind_run, check_bind_run, require_bind_run]
  cases hgroup : validateProcessGroupId args.groupId with
  | error e => exact Or.inr ⟨e, fun _ _ => rfl⟩
  | ok group =>
  cases hleaf : resolveProcessModelLeaf host.casing args.leafId args.displayName with
  | error e => exact Or.inr ⟨e, fun _ _ => rfl⟩
  | ok leaf =>
  dsimp only
  cases hfound : processGroupExists host w.tree (some group) with
  | error e => exact Or.inr ⟨e, fun _ _ => rfl⟩
  | ok found =>
  cases found with
  | false => exact Or.inr ⟨_, fun _ _ => rfl⟩
  | true =>
  dsimp only
  cases htarget : resolvedInsideTenant host [group ++ '/' :: leaf] modelPathError with
  | error e => exact Or.inr ⟨e, fun _ _ => rfl⟩
  | ok target =>
  dsimp only
  cases hmodel : modelExists host w.tree (group ++ '/' :: leaf) with
  | error e => exact Or.inr ⟨e, fun _ _ => rfl⟩
  | ok isModel =>
  dsimp only
  cases hfree : !(isModel || w.tree.exists target) with
  | false => exact Or.inr ⟨_, fun _ _ => rfl⟩
  | true =>
  cases hxml : rejectUnsupportedConstructs host.casing
      (host.parseXml (defaultBpmnXml (bpmnProcessId leaf))) with
  | error e => exact Or.inr ⟨e, fun _ _ => rfl⟩
  | ok _ =>
  refine Or.inl ⟨⟨group, leaf, target, _, _, args.userId⟩, htarget, ?_, fun _ _ => rfl⟩
  exact resolveProcessModelLeaf_segment hleaf

/-- A body that goes on from another state ends as it does from there. -/
theorem undoing_run_congr {target : TreePath} {x y : Service δ α} (h : x w = y after) :
    undoing target x w = undoing target y after := by
  unfold undoing Proc.tryExcept
  rw [h]

theorem undoing_run_error {target : TreePath} {x : Service δ α} {e : Raised}
    (h : x w = (.error e, after)) (f : α → Service δ β) :
    (undoing target x >>= f) w = (removePath target >>= fun _ => Proc.raise e) after := by
  have hremoved : undoing target x w = (removePath target >>= fun _ => Proc.raise e) after :=
    Proc.tryExcept_run_error h
  have hraised : (removePath target >>= fun _ => Proc.raise e : Service δ α) after =
      (.error e, { after with tree := after.tree.remove target }) := rfl
  rw [hraised] at hremoved
  exact Proc.bind_run_error hremoved

theorem bind_run_congr {x y : Service δ α} (h : x w = y after) (f : α → Service δ β) :
    (x >>= f) w = (y >>= f) after := by
  show Proc.bind x f w = Proc.bind y f after
  unfold Proc.bind
  rw [h]

/-- `add_process_model` is its two steps. -/
theorem addProcessModel_run (modelId : Text) (info : List (Text × Text)) (w : World δ) :
    addProcessModel host modelId info w =
      (makeModelDir host modelId >>= fun _ => writeProcessModelJson host modelId info) w := by
  unfold addProcessModel makeModelDir
  rw [check_bind_run]
  cases hpath : resolvedInsideTenant host [modelId] modelPathError with
  | error e => rfl
  | ok path => rfl

/-- An undisturbed step leaves the same to do: a call alone is `createProcessModel`. -/
theorem rest_advance {p p' : Phase} (h : advance host args none p w = some (p', after)) :
    rest host args p w = rest host args p' after := by
  cases p with
  | idle =>
      rcases admitting_run host args w with ⟨x, -, -, hrun⟩ | ⟨e, hrun⟩
      · simp only [advance, attempt, hrun] at h
        cases h
        show createProcessModel host _ _ _ _ _ w = _
        rw [createProcessModel_eq, hrun]
      · simp only [advance, attempt, hrun] at h
        cases h
        show createProcessModel host _ _ _ _ _ w = _
        rw [createProcessModel_eq, hrun]
        rfl
  | checked x =>
      rcases hrun : importDefinition host x.command w with ⟨result, t⟩
      simp only [advance, attempt, hrun] at h
      cases result with
      | ok a =>
          cases h
          exact bind_run_congr (undoing_run_congr (Proc.bind_run_ok hrun)) _
      | error e =>
          cases h
          exact undoing_run_error (Proc.bind_run_error hrun) _
  | imported x =>
      rcases hrun : makeModelDir host x.modelId w with ⟨result, t⟩
      simp only [advance, attempt, hrun] at h
      cases result with
      | ok a =>
          cases h
          have hadd : addProcessModel host x.modelId x.info w =
              writeProcessModelJson host x.modelId x.info after := by
            rw [addProcessModel_run, Proc.bind_run_ok hrun]
          exact bind_run_congr (undoing_run_congr (bind_run_congr hadd _)) _
      | error e =>
          cases h
          have hadd : addProcessModel host x.modelId x.info w = (.error e, after) := by
            rw [addProcessModel_run, Proc.bind_run_error hrun]
          exact undoing_run_error (Proc.bind_run_error hadd) _
  | made x =>
      rcases hrun : writeProcessModelJson host x.modelId x.info w with ⟨result, t⟩
      simp only [advance, attempt, hrun] at h
      cases result with
      | ok a =>
          cases h
          exact bind_run_congr (undoing_run_congr (Proc.bind_run_ok hrun)) _
      | error e =>
          cases h
          exact undoing_run_error (Proc.bind_run_error hrun) _
  | described x =>
      rcases hrun : drawModel host x w with ⟨result, t⟩
      simp only [advance, attempt, hrun] at h
      cases result with
      | ok a =>
          cases h
          have hundoing : undoing x.target (drawModel host x) w = (.ok a, after) :=
            Proc.tryExcept_run_ok hrun
          exact Proc.bind_run_ok hundoing
      | error e =>
          cases h
          exact undoing_run_error hrun _
  | drawn x =>
      rcases hrun : requireIdentity host x.modelId w with ⟨result, t⟩
      simp only [advance, attempt, hrun] at h
      cases result with
      | ok a =>
          cases h
          exact hrun
      | error e =>
          cases h
          exact hrun
  | raising x e =>
      simp only [advance, attempt] at h
      cases h
      rfl
  | returned x identity => cases h
  | failed e => cases h

end Undisturbed

/-! ## Calls beside each other -/

/-- The files, and the session and phase of each call. -/
structure State (δ ι : Type) where
  tree : FileTree
  session : ι → δ
  phase : ι → Phase

/-- A step of one call, which may fail. -/
structure Event (ι : Type) where
  call : ι
  fault : Option Raised

/-- What a call sees. -/
def State.world (s : State δ ι) (c : ι) : World δ :=
  { tree := s.tree, stored := s.session c, session := s.session c }

/-- One step of one of the calls. -/
def step [DecidableEq ι] (args : ι → Arguments) (s : State δ ι) (e : Event ι) :
    Option (State δ ι) :=
  (advance host (args e.call) e.fault (s.phase e.call) (s.world e.call)).map fun done =>
    { tree := done.2.tree
      session := Function.update s.session e.call done.2.session
      phase := Function.update s.phase e.call done.1 }

/-- No call has begun. -/
def start (tree : FileTree) (session : ι → δ) : State δ ι where
  tree := tree
  session := session
  phase := fun _ => .idle

/-- The call has made the directory and has not raised. -/
def Phase.Holds : Phase → Prop
  | .made _ | .described _ | .drawn _ | .returned _ _ => True
  | _ => False

/-- The next step of the phase ends its call by an exception after the checks: it is the
cleanup, or the identity is not found at the end. -/
def Phase.EndsBy (tree : FileTree) (fault : Option Raised) : Phase → Prop
  | .raising _ _ => True
  | .drawn x => fault ≠ none ∨
      ∀ identity, getModelIdentity host tree x.modelId ≠ .ok (some identity)
  | _ => False

/-- A call that ends by an exception finds no other call's directory. -/
def Spares (s : State δ ι) (e : Event ι) : Prop :=
  (s.phase e.call).EndsBy host s.tree e.fault →
    ∀ other, other ≠ e.call → ¬ (s.phase other).Holds

/-- The files of a creation are there as it wrote them. -/
structure Intact (tree : FileTree) (x : Creation) : Prop where
  dir : tree.isDir x.target = true
  metadata : tree.read (x.target ++ [modelJson]) = some (encodeUtf8 (JsonText.dumps x.info))
  diagram : tree.read (x.target ++ [x.fileName]) = some (encodeUtf8 x.xml)

/-! ## What a call has at the target -/

/-- The creation of a call that has passed its checks. -/
def Phase.creation? : Phase → Option Creation
  | .idle | .failed _ => none
  | .checked x | .imported x | .made x | .described x | .drawn x | .raising x _
  | .returned x _ => some x

/-- A creation as the checks decide it. -/
structure Creation.Checked (x : Creation) : Prop where
  target : resolvedInsideTenant host [x.modelId] modelPathError = .ok x.target
  leaf : isGroupSegment x.leaf = true

/-- What a call that nobody disturbed finds of its own. -/
def Progress (tree : FileTree) : Phase → Prop
  | .made x => tree.isDir x.target = true
  | .described x => tree.isDir x.target = true ∧
      tree.read (x.target ++ [modelJson]) = some (encodeUtf8 (JsonText.dumps x.info))
  | .drawn x | .returned x _ => Intact tree x
  | _ => True

/-- The call has nothing at the target, and does not begin to before it goes on. -/
def Phase.Quiet : Phase → Prop
  | .idle | .checked _ | .imported _ | .failed _ => True
  | _ => False

theorem progress_of_not_holds {tree : FileTree} {p : Phase} (h : ¬ p.Holds) : Progress tree p := by
  cases p with
  | made x => exact absurd trivial h
  | described x => exact absurd trivial h
  | drawn x => exact absurd trivial h
  | returned x identity => exact absurd trivial h
  | _ => trivial

section Progress

variable {host} {w after : World δ} {x : Creation}

theorem isDir_writeFile {path dir : TreePath} {content : Bytes} (hne : dir ≠ [])
    (hdir : w.tree.isDir dir = true) (h : writeFile path content w = (.ok (), after)) :
    after.tree.isDir dir = true := by
  have hat : w.tree.at? dir = some .dir := (isDir_iff.mp hdir).resolve_left hne
  have hstays := writeFile_preserves (stays_dir dir) path content w hat
  rw [h] at hstays
  exact isDir_iff.mpr (Or.inr hstays)

theorem fileName_ne_modelJson (x : Creation) : x.fileName ≠ modelJson := by
  intro hsame
  have hjson : ¬ ".bpmn".toList <:+ modelJson := by decide
  have hbpmn : ".bpmn".toList <:+ x.fileName := List.suffix_append x.leaf _
  rw [hsame] at hbpmn
  exact hjson hbpmn

/-- The directory is there once it is made. -/
theorem made_run (hx : x.Checked host) (h : makeModelDir host x.modelId w = (.ok (), after)) :
    after.tree.isDir x.target = true := by
  obtain ⟨path, between, hcheck, hmake⟩ := Proc.bind_eq_ok.mp h
  rw [check_run, hx.target] at hcheck
  obtain ⟨hpath, hbetween⟩ := Prod.mk.inj hcheck
  cases hpath
  rw [← hbetween] at hmake
  obtain ⟨tree, hmade, hafter⟩ := changeFiles_run_ok hmake
  rw [hafter, isDir_iff]
  right
  have hmkdirs : w.tree.mkdirs x.target = some tree := hmade
  have hne := ne_nil_of_resolved hx.target
  -- nothing but a directory lies at the target of a `mkdir` that went through
  show tree.at? x.target = some .dir
  rw [at?_mkdirs hmkdirs, if_pos ⟨List.prefix_refl _, hne⟩]
  cases hnode : w.tree.at? x.target with
  | none => rfl
  | some node =>
      cases node with
      | dir => rfl
      | file content =>
          unfold FileTree.mkdirs at hmkdirs
          split at hmkdirs
          · rename_i hway
            have hfile := hway x.target ((List.mem_inits _ _).mpr (List.prefix_refl _))
            unfold isFile at hfile
            rw [hnode] at hfile
            cases hfile
          · cases hmkdirs

/-- The metadata is written into the directory. -/
theorem described_run (hx : x.Checked host) (hdir : w.tree.isDir x.target = true)
    (h : writeProcessModelJson host x.modelId x.info w = (.ok (), after)) :
    after.tree.isDir x.target = true ∧
      after.tree.read (x.target ++ [modelJson]) = some (encodeUtf8 (JsonText.dumps x.info)) := by
  obtain ⟨path, between, hcheck, hwrite⟩ := Proc.bind_eq_ok.mp h
  rw [check_run] at hcheck
  obtain ⟨hpath, hbetween⟩ := Prod.mk.inj hcheck
  have hsegment : IsSegment modelJson := by decide
  have hsame := eq_concat_of_resolved hsegment hx.target hpath
  rw [← hbetween, hsame] at hwrite
  refine ⟨isDir_writeFile (ne_nil_of_resolved hx.target) hdir hwrite, ?_⟩
  rw [writeFile_run_ok hwrite, if_pos rfl]

/-- The diagram is written beside the metadata. -/
theorem drawn_run (hx : x.Checked host) (hdir : w.tree.isDir x.target = true)
    (hmetadata : w.tree.read (x.target ++ [modelJson]) = some (encodeUtf8 (JsonText.dumps x.info)))
    (h : drawModel host x w = (.ok (), after)) : Intact after.tree x := by
  have hsegment : IsSegment x.fileName := isSegment_bpmn hx.leaf
  obtain ⟨written, between, hspec, hpure⟩ := Proc.bind_eq_ok.mp h
  have hafter : between = after := congrArg Prod.snd hpure
  rw [hafter] at hspec
  have hread := writeSpecFile_run_ok hsegment hx.target hspec
  constructor
  · have hat : w.tree.at? x.target = some .dir :=
      (isDir_iff.mp hdir).resolve_left (ne_nil_of_resolved hx.target)
    have hkeeps : Proc.Preserves (fun w : World δ => w.tree.at? x.target = some .dir)
        (writeSpecFile host x.modelId x.fileName (encodeUtf8 x.xml)) :=
      writeSpecFile_preserves (stays_dir x.target) x.modelId x.fileName (encodeUtf8 x.xml)
    have hstays := hkeeps w hat
    rw [hspec] at hstays
    exact isDir_iff.mpr (Or.inr hstays)
  · have hother : x.target ++ [modelJson] ≠ x.target ++ [x.fileName] := by
      intro hsame
      have hnames := List.append_cancel_left hsame
      exact fileName_ne_modelJson x (List.singleton_inj.mp hnames).symm
    rw [hread, if_neg hother]
    exact hmetadata
  · rw [hread, if_pos rfl]

end Progress

/-! ## Every run -/

section Steps

variable {host} {w after : World δ} {p p' : Phase}

/-- A step goes on with what its action returned, or the action or a fault raised. -/
theorem attempt_cases {fault : Option Raised} {action : Service δ α} {next : α → Phase}
    {raised : Raised → Phase} (h : attempt fault action next raised w = (p', after)) :
    (fault = none ∧ ∃ a, action w = (.ok a, after) ∧ p' = next a) ∨
      ∃ e, p' = raised e ∧
        (fault ≠ none ∧ after = w ∨ fault = none ∧ action w = (.error e, after)) := by
  unfold attempt at h
  cases fault with
  | some e =>
      cases h
      exact Or.inr ⟨e, rfl, Or.inl ⟨by simp, rfl⟩⟩
  | none =>
      rcases hrun : action w with ⟨result, t⟩
      rw [hrun] at h
      cases result with
      | ok a =>
          cases h
          exact Or.inl ⟨rfl, a, rfl, rfl⟩
      | error e =>
          cases h
          exact Or.inr ⟨e, rfl, Or.inr ⟨rfl, rfl⟩⟩

/-- What one step of a call does. -/
structure Advances (host : Host δ) (fault : Option Raised) (p p' : Phase) (w after : World δ) :
    Prop where
  checked : ∀ x, p'.creation? = some x → x.Checked host
  progress : Progress w.tree p → Progress after.tree p'
  /-- A step into a quiet phase reads, or ends the call by an exception. -/
  quiet : p'.Quiet → p.Quiet ∧ after.tree = w.tree ∨ p.EndsBy host w.tree fault

/-- A call that has raised holds nothing that the invariant speaks of. -/
theorem advances_raising {fault : Option Raised} {x : Creation} {e : Raised}
    (hx : x.Checked host) : Advances host fault p (.raising x e) w after where
  checked := by
    intro y hy
    cases hy
    exact hx
  progress := fun _ => trivial
  quiet := fun hquiet => hquiet.elim

theorem advances {args : Arguments} {fault : Option Raised}
    (h : advance host args fault p w = some (p', after))
    (hchecked : ∀ x, p.creation? = some x → x.Checked host) :
    Advances host fault p p' w after := by
  cases p with
  | idle =>
      rcases attempt_cases (Option.some.inj h) with ⟨-, x, hrun, rfl⟩ | ⟨e, rfl, hraised⟩
      · rcases admitting_run host args w with ⟨y, htarget, hleaf, hdecided⟩ | ⟨e, herror⟩
        · rw [hdecided] at hrun
          cases hrun
          refine ⟨?_, fun _ => trivial, fun _ => Or.inl ⟨trivial, rfl⟩⟩
          intro z hz
          cases hz
          exact ⟨htarget, hleaf⟩
        · rw [herror] at hrun
          cases hrun
      · have htree : after.tree = w.tree := by
          rcases hraised with ⟨-, hsame⟩ | ⟨-, hrun⟩
          · rw [hsame]
          · rcases admitting_run host args w with ⟨y, -, -, hdecided⟩ | ⟨e', herror⟩
            · rw [hdecided] at hrun
              cases hrun
            · rw [herror] at hrun
              cases hrun
              rfl
        refine ⟨?_, fun _ => trivial, fun _ => Or.inl ⟨trivial, htree⟩⟩
        intro z hz
        cases hz
  | checked x =>
      have hx := hchecked x rfl
      rcases attempt_cases (Option.some.inj h) with ⟨-, a, hrun, rfl⟩ | ⟨e, rfl, -⟩
      · refine ⟨?_, fun _ => trivial, ?_⟩
        · intro y hy
          cases hy
          exact hx
        · intro _
          exact Or.inl ⟨trivial, (importDefinition_run_ok hrun).1⟩
      · exact advances_raising hx
  | imported x =>
      have hx := hchecked x rfl
      rcases attempt_cases (Option.some.inj h) with ⟨-, a, hrun, rfl⟩ | ⟨e, rfl, -⟩
      · refine ⟨?_, fun _ => made_run hx hrun, fun hquiet => hquiet.elim⟩
        intro y hy
        cases hy
        exact hx
      · exact advances_raising hx
  | made x =>
      have hx := hchecked x rfl
      rcases attempt_cases (Option.some.inj h) with ⟨-, a, hrun, rfl⟩ | ⟨e, rfl, -⟩
      · refine ⟨?_, fun hdir => described_run hx hdir hrun, fun hquiet => hquiet.elim⟩
        intro y hy
        cases hy
        exact hx
      · exact advances_raising hx
  | described x =>
      have hx := hchecked x rfl
      rcases attempt_cases (Option.some.inj h) with ⟨-, a, hrun, rfl⟩ | ⟨e, rfl, -⟩
      · refine ⟨?_, fun hfound => drawn_run hx hfound.1 hfound.2 hrun, fun hquiet => hquiet.elim⟩
        intro y hy
        cases hy
        exact hx
      · exact advances_raising hx
  | drawn x =>
      have hx := hchecked x rfl
      rcases attempt_cases (Option.some.inj h) with ⟨-, identity, hrun, rfl⟩ | ⟨e, rfl, hraised⟩
      · have htree : after.tree = w.tree := by
          simp only [requireIdentity, inspect_bind_run, check_bind_run] at hrun
          split at hrun
          · split at hrun
            · cases hrun
              rfl
            · cases hrun
          · cases hrun
        refine ⟨?_, ?_, fun hquiet => hquiet.elim⟩
        · intro y hy
          cases hy
          exact hx
        · intro hintact
          show Intact after.tree x
          rw [htree]
          exact hintact
      · refine ⟨?_, fun _ => trivial, fun _ => Or.inr ?_⟩
        · intro y hy
          cases hy
        · rcases hraised with ⟨hfault, -⟩ | ⟨-, hrun⟩
          · exact Or.inl hfault
          · right
            intro identity hfound
            simp only [requireIdentity, inspect_bind_run, check_bind_run, hfound] at hrun
            cases hrun
  | raising x e =>
      rcases attempt_cases (Option.some.inj h) with ⟨-, a, -, rfl⟩ | ⟨e', rfl, -⟩
      · refine ⟨?_, fun _ => trivial, fun _ => Or.inr trivial⟩
        intro y hy
        cases hy
      · refine ⟨?_, fun _ => trivial, fun _ => Or.inr trivial⟩
        intro y hy
        cases hy
  | returned x identity => cases h
  | failed e => cases h

/-- A call whose others have nothing at the target finds what it has made there. -/
structure Inv (host : Host δ) (s : State δ ι) : Prop where
  checked : ∀ c x, (s.phase c).creation? = some x → x.Checked host
  progress : ∀ c, (∀ other, other ≠ c → (s.phase other).Quiet) → Progress s.tree (s.phase c)

theorem inv_start (tree : FileTree) (session : ι → δ) : Inv host (start tree session) where
  checked := by
    intro c x hx
    cases hx
  progress := fun _ _ => trivial

/-- A step that spares the others keeps the invariant. -/
theorem inv_step [DecidableEq ι] {args : ι → Arguments} {s s' : State δ ι} {e : Event ι}
    (hinv : Inv host s) (hspares : Spares host s e) (hstep : step host args s e = some s') :
    Inv host s' := by
  obtain ⟨⟨p', after⟩, hadvance, hs'⟩ := Option.map_eq_some_iff.mp hstep
  have hstepped := advances hadvance (hinv.checked e.call)
  have hown : s'.phase e.call = p' := by rw [← hs']; simp
  have hother : ∀ c, c ≠ e.call → s'.phase c = s.phase c := by
    intro c hc
    rw [← hs']
    simp [Function.update_of_ne hc]
  have htree : s'.tree = after.tree := by rw [← hs']
  constructor
  · intro c x hx
    by_cases hc : c = e.call
    · rw [hc, hown] at hx
      exact hstepped.checked x hx
    · rw [hother c hc] at hx
      exact hinv.checked c x hx
  · intro c hquiet
    rw [htree]
    by_cases hc : c = e.call
    · rw [hc] at hquiet ⊢
      rw [hown]
      apply hstepped.progress
      apply hinv.progress e.call
      intro other hne
      have hstays := hquiet other hne
      rw [hother other hne] at hstays
      exact hstays
    · rw [hother c hc]
      have hnew := hquiet e.call (Ne.symm hc)
      rw [hown] at hnew
      rcases hstepped.quiet hnew with ⟨hold, hsame⟩ | hends
      · -- the call that acts only read
        rw [hsame]
        apply hinv.progress c
        intro other hne
        by_cases hactor : other = e.call
        · rw [hactor]
          exact hold
        · have hstays := hquiet other hne
          rw [hother other hactor] at hstays
          exact hstays
      · exact progress_of_not_holds (hspares hends c hc)

/-- However the calls interleave and wherever they fail: while every call that ends by an
exception finds no other call's directory, a call that returned has its directory and its
files as it wrote them when the others have failed. -/
theorem intact_of_run [DecidableEq ι] {args : ι → Arguments} {tree : FileTree} {session : ι → δ}
    {events : List (Event ι)} {s : State δ ι}
    (hrun : Run (step host args) (Spares host) (start tree session) events s) {c : ι}
    {x : Creation} {identity : ModelIdentity} (hreturned : s.phase c = .returned x identity)
    (hfailed : ∀ other, other ≠ c → ∃ e, s.phase other = .failed e) : Intact s.tree x := by
  have hinv := hrun.invariant (inv_start tree session) fun _ _ _ hinv hspares hstep =>
    inv_step hinv hspares hstep
  have hprogress := hinv.progress c (by
    intro other hne
    obtain ⟨e, he⟩ := hfailed other hne
    rw [he]
    trivial)
  rw [hreturned] at hprogress
  exact hprogress

end Steps

/-! ## Two calls -/

/-- A catalog with one group. -/
def groupFiles : FileTree :=
  ⟨[(["sales".toList], .dir)], closed_of_forall (by decide +kernel), by decide +kernel⟩

/-- Two requests for the same model. -/
def sameModel (_ : Fin 2) : Arguments where
  groupId := some "sales".toList
  leafId := some "order".toList
  displayName := none
  description := none
  userId := 1

/-- The creation of a call that returned. -/
def Phase.returned? : Phase → Option Creation
  | .returned x _ => some x
  | _ => none

theorem returned?_eq_some {p : Phase} {x : Creation} (h : p.returned? = some x) :
    ∃ identity, p = .returned x identity := by
  cases p with
  | returned y identity =>
      cases h
      exact ⟨identity, rfl⟩
  | _ => cases h

/-- The call has failed. -/
def Phase.isFailed : Phase → Bool
  | .failed _ => true
  | _ => false

/-- The directory of the model. -/
def orderDir : TreePath := ["sales".toList, "order".toList]

/-- What a state shows of the two calls. -/
def shown (s : State Unit (Fin 2)) : Option TreePath × Bool × Bool :=
  ((s.phase 0).returned?.map Creation.target, (s.phase 1).isFailed, s.tree.isDir orderDir)

/-- A step of one of the calls without a fault. -/
def go (c : Fin 2) : Event (Fin 2) := ⟨c, none⟩

/-- The second call comes when the first one has returned, and is refused by its check. -/
def oneAfterTheOther : List (Event (Fin 2)) :=
  [go 0, go 0, go 0, go 0, go 0, go 0, go 1]

/-- Both calls pass the check; the first one returns, the import of the second one raises. -/
def checkedTogether : List (Event (Fin 2)) :=
  [go 0, go 1, go 0, go 0, go 0, go 0, go 0, ⟨1, some .osError⟩, go 1]

/-- No call is about to end by an exception after its checks. -/
def calm (s : State Unit (Fin 2)) (e : Event (Fin 2)) : Bool :=
  match s.phase e.call with
  | .raising _ _ => false
  | .drawn x =>
      match e.fault, getModelIdentity exampleHost s.tree x.modelId with
      | none, .ok (some _) => true
      | _, _ => false
  | _ => true

theorem spares_of_calm {s : State Unit (Fin 2)} {e : Event (Fin 2)} (h : calm s e = true) :
    Spares exampleHost s e := by
  intro hends
  unfold calm at h
  unfold Phase.EndsBy at hends
  split at h
  · cases h
  · rename_i x hphase
    rw [hphase] at hends
    split at h
    · rename_i identity hfault hfound
      rcases hends with hfaulty | hmissing
      · exact absurd hfault hfaulty
      · exact absurd hfound (hmissing identity)
    · cases h
  · rename_i hraising hdrawn
    split at hends
    · rename_i x e' hphase
      exact absurd hphase (hraising x e')
    · rename_i x hphase
      exact absurd hphase (hdrawn x)
    · exact hends.elim

/-- The second call comes when the first one has returned, and its check refuses it. -/
theorem intact_after_refusal :
    ∃ s x, Run (step exampleHost sameModel) (Spares exampleHost) (start groupFiles fun _ => ())
      oneAfterTheOther s ∧ (s.phase 0).returned? = some x ∧ Intact s.tree x := by
  have hexec : (exec (step exampleHost sameModel) (fun s e => calm s e = true)
      (start groupFiles fun _ => ()) oneAfterTheOther).map shown =
        some (some orderDir, true, true) := by
    decide +kernel
  obtain ⟨s, hcalm, hshown⟩ := run_of_exec_map hexec
  have hrun := hcalm.mono fun _ _ h => spares_of_calm h
  simp only [shown, Prod.mk.injEq] at hshown
  obtain ⟨hreturned, hrefused, -⟩ := hshown
  obtain ⟨x, hx, -⟩ := Option.map_eq_some_iff.mp hreturned
  obtain ⟨identity, hphase⟩ := returned?_eq_some hx
  refine ⟨s, x, hrun, hx, intact_of_run hrun hphase ?_⟩
  intro other hother
  have hone : other = 1 := by omega
  rw [hone]
  cases hfailed : s.phase 1 with
  | failed e => exact ⟨e, rfl⟩
  | _ =>
      rw [hfailed] at hrefused
      cases hrefused

/-- The second call passed its check before the first one made the directory, and removes
it when its import raises. -/
theorem removed_by_the_other :
    ∃ s x, Run (step exampleHost sameModel) (fun _ _ => True) (start groupFiles fun _ => ())
      checkedTogether s ∧ (s.phase 0).returned? = some x ∧ (s.phase 1).isFailed = true ∧
      ¬ Intact s.tree x := by
  have hexec : (exec (step exampleHost sameModel) (fun _ _ => True)
      (start groupFiles fun _ => ()) checkedTogether).map shown =
        some (some orderDir, true, false) := by
    decide +kernel
  obtain ⟨s, hrun, hshown⟩ := run_of_exec_map hexec
  simp only [shown, Prod.mk.injEq] at hshown
  obtain ⟨hreturned, hrefused, hgone⟩ := hshown
  obtain ⟨x, hx, htarget⟩ := Option.map_eq_some_iff.mp hreturned
  refine ⟨s, x, hrun, hx, hrefused, ?_⟩
  intro hintact
  have hdir := hintact.dir
  rw [htarget, hgone] at hdir
  cases hdir

end M8flow.Catalog.Creating
