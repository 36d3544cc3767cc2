import M8flow.Lib.FileTree

/-!
# Paths as text

`os.path` of a POSIX host, on the texts themselves: `join`, `realpath` on a file system
without links, `commonpath`.

`TreePath.absolute` is the text of an absolute path.  What the three functions do with
such texts is what `joinParts`, `normalizeSegments` and the common part of two paths do
with the segments:

- `splitOn_osPathJoin`: splitting a joined text is joining the segments.
- `realpath_osPathJoin`: the real path of joined parts is an absolute text.
- `startsWith_join_empty_of_below`, `commonpath_absolute`: the two ways to ask whether a
  path lies below another.
-/

namespace M8flow.Lib

/-! ## The functions -/

/-- `os.path.join`: a part that starts with a slash starts over. -/
def osPathJoin (path : Text) (parts : List Text) : Text :=
  parts.foldl (fun path part =>
    if ['/'].isPrefixOf part then part
    else if path = [] ∨ path.getLast? = some '/' then path ++ part
    else path ++ '/' :: part) path

/-- A name that an entry of a directory can have. -/
def IsEntryName (name : Text) : Prop := IsSegment name ∧ '\x00' ∉ name

instance (name : Text) : Decidable (IsEntryName name) := inferInstanceAs (Decidable (_ ∧ _))

/-- The text of an absolute path. -/
def TreePath.absolute (path : TreePath) : Text := '/' :: path.text

/-- `os.path.realpath`, in a working directory and without links; a NUL is a `ValueError`. -/
def realpath (cwd : TreePath) (s : Text) : Option Text :=
  if '\x00' ∈ s then none
  else if ['/'].isPrefixOf s then
    some (TreePath.absolute (normalizeSegments (Text.splitOn ['/'] s)))
  else some (TreePath.absolute (normalizeSegments (cwd ++ Text.splitOn ['/'] s)))

/-- The components that `os.path.commonpath` compares. -/
def pathComponents (s : Text) : List Text :=
  (Text.splitOn ['/'] s).filter fun part => part ≠ [] && part ≠ ['.']

/-- What two lists start with. -/
def commonParts : List Text → List Text → List Text
  | part :: parts, other :: others =>
      if part = other then part :: commonParts parts others else []
  | _, _ => []

/-- `os.path.commonpath` of two paths; an absolute and a relative one are a `ValueError`. -/
def commonpath (one other : Text) : Option Text :=
  if ['/'].isPrefixOf one = ['/'].isPrefixOf other then
    let common := TreePath.text (commonParts (pathComponents one) (pathComponents other))
    some (if ['/'].isPrefixOf one then '/' :: common else common)
  else none

/-! ## Absolute texts -/

section Absolute

variable {path other : TreePath}

theorem isPrefixOf_absolute : ['/'].isPrefixOf path.absolute = true := by
  unfold TreePath.absolute
  rw [Text.singleton_isPrefixOf, beq_self_eq_true]

/-- The text of an absolute path starts with the empty part before its first slash. -/
theorem splitOn_absolute (h : ∀ segment ∈ path, IsSegment segment) :
    Text.splitOn ['/'] path.absolute = if path = [] then [[], []] else [] :: path := by
  have hsplit : Text.splitOn ['/'] path.absolute = [] :: Text.splitOn ['/'] path.text :=
    Text.splitOn_append (s := []) (by simp) path.text
  rw [hsplit]
  split
  · rename_i hnil
    rw [hnil]
    rfl
  · rename_i hne
    rw [splitOn_text hne h]

theorem pathComponents_absolute (h : ∀ segment ∈ path, IsSegment segment) :
    pathComponents path.absolute = path := by
  have hkeep : path.filter (fun part => part ≠ [] && part ≠ ['.']) = path := by
    rw [List.filter_eq_self]
    intro segment hmem
    obtain ⟨hne, hdot, -, -⟩ := h segment hmem
    simp [hne, hdot]
  unfold pathComponents
  rw [splitOn_absolute h]
  split
  · rename_i hnil
    rw [hnil]
    rfl
  · rw [List.filter_cons_of_neg (by simp), hkeep]

/-- Paths with the same absolute text are the same. -/
theorem absolute_inj (h : ∀ segment ∈ path, IsSegment segment)
    (hother : ∀ segment ∈ other, IsSegment segment) (hsame : path.absolute = other.absolute) :
    path = other := by
  rw [← pathComponents_absolute h, hsame, pathComponents_absolute hother]

/-- Normalising what an absolute text splits into gives the path back. -/
theorem normalizeSegments_absolute (h : ∀ segment ∈ path, IsSegment segment) :
    normalizeSegments (Text.splitOn ['/'] path.absolute) = path := by
  rw [splitOn_absolute h]
  split
  · rename_i hnil
    rw [hnil]
    rfl
  · have hskip : normalizeSegments ([] :: path) = path.foldl pushSegment [] := rfl
    rw [hskip, foldl_pushSegment h, List.nil_append]

end Absolute

/-! ## Joining -/

/-- What normalising depends on: the text is absolute, and its segments lead where
the others lead. -/
def SameWay (s : Text) (segments : List Text) : Prop :=
  ['/'].isPrefixOf s = true ∧ normalizeSegments (Text.splitOn ['/'] s) = normalizeSegments segments

/-- One part is joined. -/
theorem SameWay.join {s : Text} {segments : List Text} (h : SameWay s segments) (part : Text) :
    SameWay (osPathJoin s [part]) (joinParts segments [part]) := by
  obtain ⟨hstart, hway⟩ := h
  obtain ⟨tail, hs⟩ := List.isPrefixOf_iff_prefix.mp hstart
  have hstarts : ∀ rest : Text, ['/'].isPrefixOf (s ++ rest) = true := by
    intro rest
    rw [List.isPrefixOf_iff_prefix, ← hs, List.append_assoc]
    exact List.prefix_append _ _
  have hafter : ∀ more : List Text, normalizeSegments (Text.splitOn ['/'] s ++ more) =
      normalizeSegments (segments ++ more) := by
    intro more
    unfold normalizeSegments at hway ⊢
    rw [List.foldl_append, List.foldl_append, hway]
  unfold osPathJoin joinParts
  rw [List.foldl_cons, List.foldl_cons, List.foldl_nil, List.foldl_nil]
  cases hpart : ['/'].isPrefixOf part with
  | true => exact ⟨hpart, rfl⟩
  | false =>
      rw [if_neg Bool.false_ne_true, if_neg Bool.false_ne_true]
      split
      · rename_i hends
        -- the text ends with a slash: the empty part behind it is replaced
        refine ⟨hstarts part, ?_⟩
        have hne : s ≠ [] := by
          rw [← hs]
          exact List.cons_ne_nil _ _
        obtain hnil | hlast := hends
        · exact absurd hnil hne
        · have hsplit : s = s.dropLast ++ ['/'] := (List.dropLast_append_getLast? '/' hlast).symm
          have hold : Text.splitOn ['/'] s = Text.splitOn ['/'] s.dropLast ++ [[]] := by
            conv_lhs => rw [hsplit]
            exact Text.splitOn_append_sep s.dropLast []
          have hnew : Text.splitOn ['/'] (s ++ part) =
              Text.splitOn ['/'] s.dropLast ++ Text.splitOn ['/'] part := by
            conv_lhs => rw [hsplit]
            rw [List.append_assoc]
            exact Text.splitOn_append_sep s.dropLast part
          rw [← hafter, hnew, hold]
          unfold normalizeSegments
          rw [List.append_assoc, List.foldl_append, List.foldl_append]
          rfl
      · refine ⟨hstarts _, ?_⟩
        rw [← hafter, Text.splitOn_append_sep]

/-- All parts are joined. -/
theorem SameWay.joins {s : Text} {segments : List Text} (h : SameWay s segments)
    (parts : List Text) : SameWay (osPathJoin s parts) (joinParts segments parts) := by
  induction parts generalizing s segments with
  | nil => exact h
  | cons part parts ih => exact ih (h.join part)

/-- Splitting a text that is joined to an absolute path leads where joining the segments does. -/
theorem splitOn_osPathJoin {path : TreePath} (h : ∀ segment ∈ path, IsSegment segment)
    (parts : List Text) :
    ['/'].isPrefixOf (osPathJoin path.absolute parts) = true ∧
      normalizeSegments (Text.splitOn ['/'] (osPathJoin path.absolute parts)) =
        normalizeSegments (joinParts path parts) := by
  have hstart : SameWay path.absolute path := by
    refine ⟨isPrefixOf_absolute, ?_⟩
    unfold normalizeSegments
    rw [foldl_pushSegment h]
    exact normalizeSegments_absolute h
  exact hstart.joins parts

/-- The real path of joined parts, in any working directory. -/
theorem realpath_osPathJoin {path : TreePath} (h : ∀ segment ∈ path, IsSegment segment)
    (cwd : TreePath) (parts : List Text) :
    realpath cwd (osPathJoin path.absolute parts) =
      if '\x00' ∈ osPathJoin path.absolute parts then none
      else some (normalizeSegments (joinParts path parts)).absolute := by
  obtain ⟨hstart, hway⟩ := splitOn_osPathJoin h parts
  unfold realpath
  rw [if_pos hstart, hway]

/-- What is in a text is in its parts. -/
theorem mem_iff_exists_mem_splitOn {c : Char} (hc : c ≠ '/') (s : Text) :
    c ∈ s ↔ ∃ part ∈ Text.splitOn ['/'] s, c ∈ part := by
  have hgeneral : ∀ parts : List Text, c ∈ TreePath.text parts ↔ ∃ part ∈ parts, c ∈ part := by
    intro parts
    induction parts with
    | nil => simp [TreePath.text, List.intercalate]
    | cons part parts ih =>
        cases parts with
        | nil => simp [TreePath.text_singleton]
        | cons other parts =>
            rw [TreePath.text_cons, List.mem_append, List.mem_cons, ih, List.exists_mem_cons_iff]
            simp [hc]
  conv_lhs => rw [← text_splitOn s]
  exact hgeneral _

/-- Joining brings in the same characters on both sides. -/
theorem mem_osPathJoin {c : Char} (hc : c ≠ '/') {s : Text} {segments : List Text}
    (h : c ∈ s ↔ ∃ part ∈ segments, c ∈ part) (parts : List Text) :
    c ∈ osPathJoin s parts ↔ ∃ part ∈ joinParts segments parts, c ∈ part := by
  induction parts generalizing s segments with
  | nil => exact h
  | cons part parts ih =>
      unfold osPathJoin joinParts
      rw [List.foldl_cons, List.foldl_cons]
      apply ih
      cases hpart : ['/'].isPrefixOf part with
      | true => exact mem_iff_exists_mem_splitOn hc part
      | false =>
          rw [if_neg Bool.false_ne_true, if_neg Bool.false_ne_true]
          have hboth : (∃ other ∈ segments ++ Text.splitOn ['/'] part, c ∈ other) ↔
              c ∈ s ∨ c ∈ part := by
            rw [h, mem_iff_exists_mem_splitOn hc part]
            simp only [List.mem_append, or_and_right, exists_or]
          rw [hboth]
          split
          · exact List.mem_append
          · rw [List.mem_append, List.mem_cons]
            simp [hc]

/-- A NUL is in the joined text exactly when it is in one of the joined segments. -/
theorem nul_mem_osPathJoin {path : TreePath} (h : ∀ segment ∈ path, IsSegment segment)
    (parts : List Text) :
    '\x00' ∈ osPathJoin path.absolute parts ↔ ∃ part ∈ joinParts path parts, '\x00' ∈ part := by
  apply mem_osPathJoin (by decide)
  rw [mem_iff_exists_mem_splitOn (by decide), splitOn_absolute h]
  split
  · rename_i hnil
    rw [hnil]
    simp
  · simp

/-- Normalising brings in no new parts. -/
theorem mem_of_mem_normalizeSegments {segments : List Text} {part : Text}
    (h : part ∈ normalizeSegments segments) : part ∈ segments := by
  have hgeneral : ∀ path : TreePath, part ∈ segments.foldl pushSegment path →
      part ∈ path ∨ part ∈ segments := by
    clear h
    induction segments with
    | nil => exact fun path hmem => Or.inl hmem
    | cons first segments ih =>
        intro path hmem
        rcases ih _ hmem with hin | hin
        · unfold pushSegment at hin
          split at hin
          · exact Or.inl hin
          · split at hin
            · exact Or.inl (List.mem_of_mem_dropLast hin)
            · rcases List.mem_append.mp hin with hold | hnew
              · exact Or.inl hold
              · exact Or.inr (List.mem_singleton.mp hnew ▸ List.mem_cons_self)
        · exact Or.inr (List.mem_cons_of_mem _ hin)
  rcases hgeneral [] h with hin | hin
  · cases hin
  · exact hin

/-- A real path is the absolute text of names of entries. -/
theorem realpath_names {cwd : TreePath} (hcwd : ∀ segment ∈ cwd, IsEntryName segment)
    {s found : Text} (h : realpath cwd s = some found) :
    ∃ path : TreePath, (∀ segment ∈ path, IsEntryName segment) ∧ found = path.absolute := by
  have hnormal : ∀ segments : List Text, (∀ part ∈ segments, '/' ∉ part ∧ '\x00' ∉ part) →
      ∀ segment ∈ normalizeSegments segments, IsEntryName segment := by
    intro segments hclean segment hmem
    exact ⟨isSegment_of_mem_normalizeSegments (fun part hpart => (hclean part hpart).1) segment hmem,
      (hclean segment (mem_of_mem_normalizeSegments hmem)).2⟩
  unfold realpath at h
  split at h
  · cases h
  · rename_i hnul
    have hparts : ∀ part ∈ Text.splitOn ['/'] s, '/' ∉ part ∧ '\x00' ∉ part := fun part hmem =>
      ⟨Text.not_mem_of_mem_splitOn hmem,
        fun hin => hnul ((mem_iff_exists_mem_splitOn (by decide) s).mpr ⟨part, hmem, hin⟩)⟩
    split at h
    · exact ⟨_, hnormal _ hparts, (Option.some.inj h).symm⟩
    · refine ⟨_, hnormal _ ?_, (Option.some.inj h).symm⟩
      intro part hmem
      rcases List.mem_append.mp hmem with hin | hin
      · exact ⟨(hcwd part hin).1.2.2.2, (hcwd part hin).2⟩
      · exact hparts part hin

/-! ## Below another path -/

section Below

variable {path rest : TreePath}

theorem getLast?_absolute (hne : path ≠ []) (h : ∀ segment ∈ path, IsSegment segment) :
    path.absolute.getLast? ≠ some '/' := by
  have hlast : path = path.dropLast ++ [path.getLast hne] :=
    (List.dropLast_append_getLast hne).symm
  obtain ⟨hname, -, -, hslash⟩ := h _ (List.getLast_mem hne)
  have htext : ∃ before : Text, path.absolute = before ++ path.getLast hne := by
    unfold TreePath.absolute
    by_cases hup : path.dropLast = []
    · refine ⟨['/'], ?_⟩
      conv_lhs => rw [hlast, hup, List.nil_append, TreePath.text_singleton]
      rfl
    · refine ⟨'/' :: TreePath.text path.dropLast ++ ['/'], ?_⟩
      conv_lhs => rw [hlast, TreePath.text_append hup (List.cons_ne_nil _ _),
        TreePath.text_singleton]
      simp
  obtain ⟨before, hbefore⟩ := htext
  rw [hbefore, List.getLast?_append_of_ne_nil _ hname]
  intro hends
  exact hslash (List.mem_of_getLast? hends)

/-- `os.path.join(path, "")` ends with one slash. -/
theorem osPathJoin_empty (h : ∀ segment ∈ path, IsSegment segment) :
    osPathJoin path.absolute [[]] = if path = [] then ['/'] else path.absolute ++ ['/'] := by
  unfold osPathJoin
  rw [List.foldl_cons, List.foldl_nil]
  split
  · rename_i hstart
    cases hstart
  · by_cases hnil : path = []
    · subst hnil
      rfl
    · have hne : path.absolute ≠ [] := List.cons_ne_nil _ _
      rw [if_neg (not_or.mpr ⟨hne, getLast?_absolute hnil h⟩), if_neg hnil]

/-- What lies below a path passes the check by prefix. -/
theorem startsWith_join_empty_of_below (h : ∀ segment ∈ path, IsSegment segment)
    (hrest : rest ≠ []) :
    (osPathJoin path.absolute [[]]).isPrefixOf (TreePath.absolute (path ++ rest)) = true := by
  rw [osPathJoin_empty h, List.isPrefixOf_iff_prefix]
  split
  · exact ⟨_, rfl⟩
  · rename_i hne
    refine ⟨rest.text, ?_⟩
    unfold TreePath.absolute
    rw [TreePath.text_append hne hrest]
    simp

theorem commonParts_eq_left {one other : List Text} :
    commonParts one other = one ↔ one <+: other := by
  induction one generalizing other with
  | nil => simp [commonParts]
  | cons part parts ih =>
      cases other with
      | nil => simp [commonParts]
      | cons first others =>
          unfold commonParts
          by_cases hsame : part = first
          · rw [if_pos hsame, List.cons.injEq, ih, List.cons_prefix_cons]
            simp [hsame]
          · rw [if_neg hsame, List.cons_prefix_cons]
            simp [hsame]

theorem mem_of_mem_commonParts {one other : List Text} {part : Text}
    (h : part ∈ commonParts one other) : part ∈ one := by
  induction one generalizing other with
  | nil => simp [commonParts] at h
  | cons first parts ih =>
      cases other with
      | nil => simp [commonParts] at h
      | cons second others =>
          unfold commonParts at h
          split at h
          · rcases List.mem_cons.mp h with hhead | htail
            · exact hhead ▸ List.mem_cons_self
            · exact List.mem_cons_of_mem _ (ih htail)
          · cases h

/-- The check by components: the common path is the upper one exactly when the lower
one starts with it. -/
theorem commonpath_absolute {lower : TreePath} (h : ∀ segment ∈ path, IsSegment segment)
    (hlower : ∀ segment ∈ lower, IsSegment segment) :
    commonpath path.absolute lower.absolute = some path.absolute ↔ path <+: lower := by
  unfold commonpath
  rw [isPrefixOf_absolute, isPrefixOf_absolute, if_pos rfl, pathComponents_absolute h,
    pathComponents_absolute hlower]
  dsimp only
  rw [if_pos rfl, ← commonParts_eq_left]
  have hcommon : ∀ segment ∈ commonParts path lower, IsSegment segment :=
    fun segment hmem => h segment (mem_of_mem_commonParts hmem)
  constructor
  · intro hsame
    exact absolute_inj hcommon h (Option.some.inj hsame)
  · intro hsame
    rw [hsame]
    rfl

end Below

end M8flow.Lib
