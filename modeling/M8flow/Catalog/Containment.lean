import M8flow.Catalog.Identifiers
import M8flow.Lib.PosixPath

/-!
# Paths stay inside the tenant

`_tenant_models_root`, `_strictly_inside` and `_resolved_inside_tenant` on the texts they
work with, for any tenant identifier and any parts.

- `tenantModelsRoot_eq_ok`, `resolvedInsideTenant_eq_ok`: what the two functions accept,
  and where that is.
- `resolvedInsideTenant_refines`: below an accepted root the function is the one that the
  rest of the catalog is about, which starts from the segments of the root.
- `tenant_paths_contained`: nothing accepted leaves its tenant, and when two tenants are
  apart.
-/

namespace M8flow.Catalog.Containment

open M8flow.Lib

/-- What the functions read of the process they run in. -/
structure Server where
  cwd : TreePath
  cwd_names : ∀ segment ∈ cwd, IsEntryName segment
  /-- `M8FLOW_BACKEND_BPMN_SPEC_ABSOLUTE_DIR`. -/
  m8flowSpecDir : Option Text
  /-- `SPIFFWORKFLOW_BACKEND_BPMN_SPEC_ABSOLUTE_DIR`. -/
  spiffworkflowSpecDir : Option Text

/-- `os.path.realpath` in the process. -/
def realPath (server : Server) (s : Text) : Except Raised Text :=
  match realpath server.cwd s with
  | some path => .ok path
  | none => .error .valueError

/-- The base directory of `_tenant_models_root`. -/
def specBase (server : Server) : Except Raised Text :=
  realPath server (((truthy server.m8flowSpecDir).or
    (truthy server.spiffworkflowSpecDir)).getD "/tmp/m8flow-process-models".toList)

/-- `_strictly_inside`: no common path, no descendant. -/
def strictlyInside (child parent : Text) : Bool :=
  child ≠ parent && commonpath parent child = some parent

/-- The real path of what is joined to `upper`, refused unless it lies strictly below: the
prefix with its slash is compared, and the components are. -/
def joinedInside (server : Server) (upper : Text) (parts : List Text) (refusal : ApiError) :
    Except Raised Text :=
  match realPath server (osPathJoin upper parts) with
  | .error raised => .error raised
  | .ok found =>
      if ¬ (osPathJoin upper [[]]).isPrefixOf found then .error (.api refusal)
      else if ¬ strictlyInside found upper then .error (.api refusal)
      else .ok found

/-- `ApiError("invalid_tenant", ...)`. -/
def invalidTenant : ApiError := .of "invalid_tenant" "Invalid tenant" 400

/-- `_tenant_models_root`. -/
def tenantModelsRoot (server : Server) (tenantId : Text) : Except Raised Text := do
  let base ← specBase server
  joinedInside server base [tenantId] invalidTenant

/-- `_resolved_inside_tenant`. -/
def resolvedInsideTenant (server : Server) (tenantId : Text) (parts : List Text)
    (pathError : ApiError) : Except Raised Text := do
  let root ← tenantModelsRoot server tenantId
  joinedInside server root parts pathError

variable {server : Server}

/-! ## What is accepted -/

theorem realPath_eq_ok {s path : Text} :
    realPath server s = .ok path ↔ realpath server.cwd s = some path := by
  unfold realPath
  cases realpath server.cwd s with
  | none => simp
  | some found => simp

/-- The base directory is the text of an absolute path. -/
theorem specBase_names {base : Text} (h : specBase server = .ok base) :
    ∃ path : TreePath, (∀ segment ∈ path, IsEntryName segment) ∧ base = path.absolute :=
  realpath_names server.cwd_names (realPath_eq_ok.mp h)

theorem strictlyInside_absolute {path lower : TreePath}
    (h : ∀ segment ∈ path, IsSegment segment) (hlower : ∀ segment ∈ lower, IsSegment segment) :
    strictlyInside lower.absolute path.absolute = true ↔ path <+: lower ∧ lower ≠ path := by
  unfold strictlyInside
  rw [Bool.and_eq_true, decide_eq_true_eq, decide_eq_true_eq, commonpath_absolute h hlower,
    and_comm]
  refine and_congr_right fun _ => ?_
  constructor
  · intro hne hsame
    exact hne (congrArg TreePath.absolute hsame)
  · intro hne hsame
    exact hne (absolute_inj hlower h hsame)

/-- Together the two checks accept a real path exactly when it lies below. -/
theorem joinedInside_absolute {path : TreePath} (h : ∀ segment ∈ path, IsSegment segment)
    (parts : List Text) (refusal : ApiError) :
    joinedInside server path.absolute parts refusal =
      if '\x00' ∈ osPathJoin path.absolute parts then .error .valueError
      else
        match resolveUnder path parts with
        | some below => .ok (TreePath.absolute (path ++ below))
        | none => .error (.api refusal) := by
  have hreal : realPath server (osPathJoin path.absolute parts) =
      if '\x00' ∈ osPathJoin path.absolute parts then .error .valueError
      else .ok (normalizeSegments (joinParts path parts)).absolute := by
    unfold realPath
    rw [realpath_osPathJoin h]
    by_cases hnul : '\x00' ∈ osPathJoin path.absolute parts
    · rw [if_pos hnul, if_pos hnul]
    · rw [if_neg hnul, if_neg hnul]
  have hfound : ∀ segment ∈ normalizeSegments (joinParts path parts), IsSegment segment :=
    isSegment_of_mem_normalizeSegments
      (slash_not_mem_joinParts fun segment hmem => (h segment hmem).2.2.2)
  unfold joinedInside
  rw [hreal]
  by_cases hnul : '\x00' ∈ osPathJoin path.absolute parts
  · rw [if_pos hnul, if_pos hnul]
  · rw [if_neg hnul, if_neg hnul]
    dsimp only
    cases hbelow : resolveUnder path parts with
    | some below =>
        obtain ⟨hrest, hsame⟩ := resolveUnder_eq_some.mp hbelow
        have hinside : strictlyInside (TreePath.absolute (path ++ below)) path.absolute = true := by
          rw [strictlyInside_absolute h (hsame ▸ hfound)]
          refine ⟨List.prefix_append _ _, ?_⟩
          intro hroot
          exact hrest (List.append_right_eq_self.mp hroot)
        rw [hsame, if_neg (not_not.mpr (startsWith_join_empty_of_below h hrest)),
          if_neg (not_not.mpr hinside)]
    | none =>
        have houtside :
            strictlyInside (normalizeSegments (joinParts path parts)).absolute path.absolute ≠
              true := by
          rw [Ne, strictlyInside_absolute h hfound]
          intro hinside
          obtain ⟨⟨below, hbelow'⟩, hne⟩ := hinside
          have hsome : resolveUnder path parts = some below := by
            rw [resolveUnder_eq_some]
            refine ⟨?_, hbelow'.symm⟩
            intro hnil
            rw [hnil, List.append_nil] at hbelow'
            exact hne hbelow'.symm
          rw [hbelow] at hsome
          cases hsome
        rw [if_pos houtside, ite_self]

theorem joinedInside_eq_ok {path : TreePath} (h : ∀ segment ∈ path, IsSegment segment)
    {parts : List Text} {refusal : ApiError} {target : Text} :
    joinedInside server path.absolute parts refusal = .ok target ↔
      '\x00' ∉ osPathJoin path.absolute parts ∧
        ∃ below, resolveUnder path parts = some below ∧
          target = TreePath.absolute (path ++ below) := by
  rw [joinedInside_absolute h]
  by_cases hnul : '\x00' ∈ osPathJoin path.absolute parts
  · simp [hnul]
  · cases resolveUnder path parts with
    | none => simp [hnul]
    | some below => simp [hnul, eq_comm]

/-- The root of an accepted tenant identifier. -/
theorem tenantModelsRoot_eq_ok {tenantId root : Text} :
    tenantModelsRoot server tenantId = .ok root ↔
      ∃ base : TreePath, (∀ segment ∈ base, IsEntryName segment) ∧
        specBase server = .ok base.absolute ∧ '\x00' ∉ osPathJoin base.absolute [tenantId] ∧
        ∃ path, resolveUnder base [tenantId] = some path ∧
          root = TreePath.absolute (base ++ path) := by
  unfold tenantModelsRoot
  cases hbase : specBase server with
  | error raised =>
      constructor
      · intro h
        cases h
      · intro h
        obtain ⟨base, -, hok, -⟩ := h
        cases hok
  | ok text =>
      obtain ⟨base, hnames, htext⟩ := specBase_names hbase
      have hsegments : ∀ segment ∈ base, IsSegment segment := fun segment hmem =>
        (hnames segment hmem).1
      subst htext
      change joinedInside server base.absolute [tenantId] invalidTenant = .ok root ↔ _
      rw [joinedInside_eq_ok hsegments]
      constructor
      · intro h
        exact ⟨base, hnames, rfl, h⟩
      · intro h
        obtain ⟨other, hother, hsame, h⟩ := h
        have heq : base = other :=
          absolute_inj hsegments (fun segment hmem => (hother segment hmem).1)
            (Except.ok.inj hsame)
        rw [heq]
        exact h

/-- A root has only names of entries. -/
theorem isSegment_of_root {base path : TreePath} {tenantId : Text}
    (hbase : ∀ segment ∈ base, IsEntryName segment)
    (hpath : resolveUnder base [tenantId] = some path) :
    ∀ segment ∈ base ++ path, IsSegment segment := by
  have hsegments : ∀ segment ∈ base, IsSegment segment := fun segment hmem =>
    (hbase segment hmem).1
  intro segment hmem
  rcases List.mem_append.mp hmem with hin | hin
  · exact hsegments segment hin
  · exact isSegment_of_resolveUnder hsegments hpath segment hin

/-- Below the root of a tenant the texts give what the catalog computes on segments. -/
theorem resolvedInsideTenant_refines {δ : Type} {host : Host δ} {tenantId : Text}
    (hroot : tenantModelsRoot server tenantId = .ok host.root.absolute) (parts : List Text)
    (pathError : ApiError) :
    resolvedInsideTenant server tenantId parts pathError =
      (Catalog.resolvedInsideTenant host parts pathError).map
        fun path => TreePath.absolute (host.root ++ path) := by
  have hnul := nul_mem_osPathJoin host.root_segments parts
  unfold resolvedInsideTenant
  rw [hroot]
  change joinedInside server host.root.absolute parts pathError = _
  rw [joinedInside_absolute host.root_segments]
  unfold Catalog.resolvedInsideTenant
  by_cases hin : '\x00' ∈ osPathJoin host.root.absolute parts
  · have hany : ((joinParts host.root parts).any fun part => '\x00' ∈ part) = true := by
      rw [List.any_eq_true]
      obtain ⟨part, hmem, hpart⟩ := hnul.mp hin
      exact ⟨part, hmem, decide_eq_true hpart⟩
    rw [if_pos hin, if_pos hany]
    rfl
  · have hany : ((joinParts host.root parts).any fun part => '\x00' ∈ part) ≠ true := by
      intro hsome
      obtain ⟨part, hmem, hpart⟩ := List.any_eq_true.mp hsome
      exact hin (hnul.mpr ⟨part, hmem, of_decide_eq_true hpart⟩)
    rw [if_neg hin, if_neg hany]
    cases resolveUnder host.root parts with
    | none => rfl
    | some below => rfl

/-! ## Containment -/

/-- A descendant of a directory, both as absolute texts. -/
def StrictlyBelow (child dir : Text) : Prop :=
  ∃ path rest : TreePath, (∀ segment ∈ path ++ rest, IsSegment segment) ∧ rest ≠ [] ∧
    dir = path.absolute ∧ child = TreePath.absolute (path ++ rest)

/-- No path is in both directories. -/
def Apart (dir other : Text) : Prop :=
  ∀ path : Text, ¬ ((path = dir ∨ StrictlyBelow path dir) ∧
    (path = other ∨ StrictlyBelow path other))

theorem resolvedInsideTenant_eq_ok {tenantId target : Text} {parts : List Text}
    {pathError : ApiError} :
    resolvedInsideTenant server tenantId parts pathError = .ok target ↔
      ∃ root, tenantModelsRoot server tenantId = .ok root ∧
        joinedInside server root parts pathError = .ok target := by
  unfold resolvedInsideTenant
  cases tenantModelsRoot server tenantId with
  | error raised =>
      constructor
      · intro h
        cases h
      · intro h
        obtain ⟨root, hroot, -⟩ := h
        cases hroot
  | ok root =>
      constructor
      · intro h
        exact ⟨root, rfl, h⟩
      · intro h
        obtain ⟨other, hother, h⟩ := h
        cases hother
        exact h

/-- An accepted root lies strictly below the base directory. -/
theorem root_below_base {tenantId root : Text} (h : tenantModelsRoot server tenantId = .ok root) :
    ∃ base, specBase server = .ok base ∧ StrictlyBelow root base := by
  obtain ⟨base, hbase, hok, -, path, hpath, hroot⟩ := tenantModelsRoot_eq_ok.mp h
  exact ⟨base.absolute, hok, base, path, isSegment_of_root hbase hpath,
    (resolveUnder_eq_some.mp hpath).1, rfl, hroot⟩

/-- An accepted path lies strictly below the tenant's root. -/
theorem target_below_root {tenantId target : Text} {parts : List Text} {pathError : ApiError}
    (h : resolvedInsideTenant server tenantId parts pathError = .ok target) :
    ∃ root, tenantModelsRoot server tenantId = .ok root ∧ StrictlyBelow target root := by
  obtain ⟨root, hroot, htarget⟩ := resolvedInsideTenant_eq_ok.mp h
  obtain ⟨base, hbase, -, -, path, hpath, htext⟩ := tenantModelsRoot_eq_ok.mp hroot
  have hsegments := isSegment_of_root hbase hpath
  subst htext
  obtain ⟨-, below, hbelow, hsame⟩ := (joinedInside_eq_ok hsegments).mp htarget
  refine ⟨_, hroot, base ++ path, below, ?_, (resolveUnder_eq_some.mp hbelow).1, rfl, hsame⟩
  intro segment hmem
  rcases List.mem_append.mp hmem with hin | hin
  · exact hsegments segment hin
  · exact isSegment_of_resolveUnder hsegments hbelow segment hin

/-- A path that continues another one is in its directory. -/
theorem within_of_isPrefix {dir lower : TreePath} (h : ∀ segment ∈ lower, IsSegment segment)
    (hstarts : dir <+: lower) :
    lower.absolute = dir.absolute ∨ StrictlyBelow lower.absolute dir.absolute := by
  obtain ⟨rest, hrest⟩ := hstarts
  by_cases hnil : rest = []
  · left
    rw [← hrest, hnil, List.append_nil]
  · right
    refine ⟨dir, rest, ?_, hnil, rfl, by rw [hrest]⟩
    rw [hrest]
    exact h

/-- Directories on one line of descent are the only ones that are not apart. -/
theorem apart_iff {path other : TreePath} (h : ∀ segment ∈ path, IsSegment segment)
    (hother : ∀ segment ∈ other, IsSegment segment) :
    Apart path.absolute other.absolute ↔ ¬ path <+: other ∧ ¬ other <+: path := by
  have hbelow : ∀ {dir : TreePath} {text : Text}, (∀ segment ∈ dir, IsSegment segment) →
      (text = dir.absolute ∨ StrictlyBelow text dir.absolute) →
      ∃ rest, (∀ segment ∈ dir ++ rest, IsSegment segment) ∧
        text = TreePath.absolute (dir ++ rest) := by
    intro dir text hdir hin
    rcases hin with hsame | hstrict
    · refine ⟨[], ?_, ?_⟩
      · rw [List.append_nil]
        exact hdir
      · rw [List.append_nil, hsame]
    · obtain ⟨upper, rest, hsegments, -, hupper, htext⟩ := hstrict
      have hdirs : dir = upper :=
        absolute_inj hdir (fun segment hmem => hsegments segment (List.mem_append_left _ hmem)) hupper
      rw [hdirs]
      exact ⟨rest, hsegments, htext⟩
  constructor
  · intro hapart
    constructor
    · intro hstarts
      exact hapart other.absolute ⟨within_of_isPrefix hother hstarts, Or.inl rfl⟩
    · intro hstarts
      exact hapart path.absolute ⟨Or.inl rfl, within_of_isPrefix h hstarts⟩
  · intro hneither text hboth
    obtain ⟨rest, hrest, htext⟩ := hbelow h hboth.1
    obtain ⟨more, hmore, htext'⟩ := hbelow hother hboth.2
    have hsame : path ++ rest = other ++ more :=
      absolute_inj hrest hmore (htext.symm.trans htext')
    have hstarts : other <+: path ++ rest := ⟨more, hsame.symm⟩
    rcases List.prefix_or_prefix_of_prefix (List.prefix_append path rest) hstarts with hup | hdown
    · exact hneither.1 hup
    · exact hneither.2 hdown

/-- The name of an entry is accepted as an identifier, and its root is that entry. -/
theorem tenantModelsRoot_name {base : TreePath} {tenantId : Text}
    (hbase : ∀ segment ∈ base, IsEntryName segment) (hok : specBase server = .ok base.absolute)
    (hname : IsEntryName tenantId) :
    tenantModelsRoot server tenantId = .ok (TreePath.absolute (base ++ [tenantId])) := by
  have hjoin : joinParts base [tenantId] = base ++ [tenantId] :=
    @joinParts_concat base [] tenantId hname.1
  have hnames : ∀ segment ∈ base ++ [tenantId], IsEntryName segment := by
    intro segment hmem
    rcases List.mem_append.mp hmem with hin | hin
    · exact hbase segment hin
    · exact List.mem_singleton.mp hin ▸ hname
  have hresolved : resolveUnder base [tenantId] = some [tenantId] := by
    rw [resolveUnder_eq_some, hjoin]
    refine ⟨List.cons_ne_nil _ _, ?_⟩
    unfold normalizeSegments
    rw [foldl_pushSegment fun segment hmem => (hnames segment hmem).1, List.nil_append]
  refine tenantModelsRoot_eq_ok.mpr ⟨base, hbase, hok, ?_, _, hresolved, rfl⟩
  rw [nul_mem_osPathJoin fun segment hmem => (hbase segment hmem).1, hjoin]
  intro hnul
  obtain ⟨segment, hmem, hin⟩ := hnul
  exact (hnames segment hmem).2 hin

/-- Nothing accepted leaves its tenant.  For every server and every tenant identifier and
list of parts, an accepted path lies strictly below the tenant's root, and the root strictly
below the base directory.  Two accepted identifiers have roots that are apart exactly when
neither root is the other one or lies below it; two different names of entries do. -/
theorem tenant_paths_contained (server : Server) :
    (∀ tenantId parts pathError target,
      resolvedInsideTenant server tenantId parts pathError = .ok target →
        ∃ root base, tenantModelsRoot server tenantId = .ok root ∧
          specBase server = .ok base ∧ StrictlyBelow root base ∧ StrictlyBelow target root) ∧
    (∀ tenantId other root root', tenantModelsRoot server tenantId = .ok root →
      tenantModelsRoot server other = .ok root' →
        (Apart root root' ↔
          root ≠ root' ∧ ¬ StrictlyBelow root root' ∧ ¬ StrictlyBelow root' root)) ∧
    (∀ base tenantId other, specBase server = .ok base → IsEntryName tenantId →
      IsEntryName other → tenantId ≠ other →
        ∃ root root', tenantModelsRoot server tenantId = .ok root ∧
          tenantModelsRoot server other = .ok root' ∧ Apart root root') := by
  refine ⟨?_, ?_, ?_⟩
  · intro tenantId parts pathError target h
    obtain ⟨root, hroot, hbelow⟩ := target_below_root h
    obtain ⟨base, hbase, hupper⟩ := root_below_base hroot
    exact ⟨root, base, hroot, hbase, hupper, hbelow⟩
  · intro tenantId other root root' h h'
    obtain ⟨base, hbase, -, -, path, hpath, hroot⟩ := tenantModelsRoot_eq_ok.mp h
    obtain ⟨base', hbase', -, -, path', hpath', hroot'⟩ := tenantModelsRoot_eq_ok.mp h'
    have hsegments := isSegment_of_root hbase hpath
    have hsegments' := isSegment_of_root hbase' hpath'
    subst hroot
    subst hroot'
    constructor
    · intro hapart
      refine ⟨?_, ?_, ?_⟩
      · intro hsame
        exact hapart _ ⟨Or.inl rfl, Or.inl hsame⟩
      · intro hbelow
        exact hapart _ ⟨Or.inl rfl, Or.inr hbelow⟩
      · intro hbelow
        exact hapart _ ⟨Or.inr hbelow, Or.inl rfl⟩
    · intro hneither
      obtain ⟨hne, hbelow, hbelow'⟩ := hneither
      rw [apart_iff hsegments hsegments']
      constructor
      · intro hstarts
        rcases within_of_isPrefix hsegments' hstarts with hsame | hin
        · exact hne hsame.symm
        · exact hbelow' hin
      · intro hstarts
        rcases within_of_isPrefix hsegments hstarts with hsame | hin
        · exact hne hsame
        · exact hbelow hin
  · intro base tenantId other hbase hname hother hne
    obtain ⟨path, hnames, htext⟩ := specBase_names hbase
    subst htext
    refine ⟨_, _, tenantModelsRoot_name hnames hbase hname,
      tenantModelsRoot_name hnames hbase hother, ?_⟩
    have hsegments : ∀ name, IsEntryName name → ∀ segment ∈ path ++ [name], IsSegment segment := by
      intro name hentry segment hmem
      rcases List.mem_append.mp hmem with hin | hin
      · exact (hnames segment hin).1
      · exact List.mem_singleton.mp hin ▸ hentry.1
    rw [apart_iff (hsegments tenantId hname) (hsegments other hother), List.prefix_append_right_inj,
      List.prefix_append_right_inj]
    have hsingle : ∀ a b : Text, [a] <+: [b] → a = b := by
      intro a b hstarts
      exact (List.cons_prefix_cons.mp hstarts).1
    exact ⟨fun hstarts => hne (hsingle _ _ hstarts), fun hstarts => hne (hsingle _ _ hstarts).symm⟩

/-- A server that has neither variable set. -/
def defaultServer : Server where
  cwd := []
  cwd_names := by simp
  m8flowSpecDir := none
  spiffworkflowSpecDir := none

theorem default_tenant_paths_contained :
    (∃ root base, tenantModelsRoot defaultServer "t1".toList = .ok root ∧
      specBase defaultServer = .ok base ∧ StrictlyBelow root base ∧
      StrictlyBelow "/tmp/m8flow-process-models/t1/finance/pay".toList root) ∧
    (Apart "/tmp/m8flow-process-models/t1".toList "/tmp/m8flow-process-models/t1-evil".toList ↔
      "/tmp/m8flow-process-models/t1".toList ≠ "/tmp/m8flow-process-models/t1-evil".toList ∧
      ¬ StrictlyBelow "/tmp/m8flow-process-models/t1".toList
        "/tmp/m8flow-process-models/t1-evil".toList ∧
      ¬ StrictlyBelow "/tmp/m8flow-process-models/t1-evil".toList
        "/tmp/m8flow-process-models/t1".toList) ∧
    ∃ root root', tenantModelsRoot defaultServer "t1".toList = .ok root ∧
      tenantModelsRoot defaultServer "t1-evil".toList = .ok root' ∧ Apart root root' :=
  ⟨(tenant_paths_contained defaultServer).1 "t1".toList ["finance/../finance".toList, "pay".toList]
      modelPathError "/tmp/m8flow-process-models/t1/finance/pay".toList rfl,
    (tenant_paths_contained defaultServer).2.1 "t1".toList "t1-evil".toList _ _ rfl rfl,
    (tenant_paths_contained defaultServer).2.2 "/tmp/m8flow-process-models".toList "t1".toList
      "t1-evil".toList rfl (by decide) (by decide) (by decide)⟩

/-- Different identifiers can be accepted with one root inside the other. -/
theorem nested_tenant_roots :
    ¬ ∀ (server : Server) (tenantId other root root' : Text),
      tenantModelsRoot server tenantId = .ok root → tenantModelsRoot server other = .ok root' →
        tenantId ≠ other → Apart root root' := by
  intro h
  refine h defaultServer "a".toList "a/b".toList "/tmp/m8flow-process-models/a".toList
    "/tmp/m8flow-process-models/a/b".toList rfl rfl (by decide)
    "/tmp/m8flow-process-models/a/b".toList ⟨Or.inr ?_, Or.inl rfl⟩
  exact ⟨["tmp".toList, "m8flow-process-models".toList, "a".toList], ["b".toList], by decide,
    by decide, rfl, rfl⟩

end M8flow.Catalog.Containment
