import M8flow.Lib.Table
import M8flow.Lib.Text
import Mathlib.Data.List.Dedup

/-!
# Directory trees

A tree of directories and files below a root, and the paths in it.

- `normalizeSegments` and `resolveUnder` are `os.path.realpath` of joined parts,
  where no path has a symbolic link, with the check that the result lies strictly
  below the root.
- `FileTree` is a tree in which what has an entry lies in a directory.  `mkdirs`,
  `write` and `remove` keep that, and `none` stands for an `OSError`.

Each operation has one lemma that says what is found at every path afterwards.
-/

namespace M8flow.Lib

/-- A path below the root: its segments. -/
abbrev TreePath := List Text

/-- The content of a file. -/
abbrev Bytes := ByteArray

/-! ## Paths -/

/-- The name of one entry of a directory. -/
def IsSegment (segment : Text) : Prop :=
  segment ≠ [] ∧ segment ≠ ['.'] ∧ segment ≠ ['.', '.'] ∧ '/' ∉ segment

instance (segment : Text) : Decidable (IsSegment segment) :=
  inferInstanceAs (Decidable (_ ∧ _ ∧ _ ∧ _))

/-- Go on from a directory by one part of a path. -/
def pushSegment (path : TreePath) (segment : Text) : TreePath :=
  if segment = [] ∨ segment = ['.'] then path
  else if segment = ['.', '.'] then path.dropLast
  else path ++ [segment]

/-- `os.path.realpath`, for the segments of an absolute path without links. -/
def normalizeSegments (segments : List Text) : TreePath := segments.foldl pushSegment []

/-- `os.path.join`: a part that starts with a slash starts over. -/
def joinParts (root : TreePath) (parts : List Text) : List Text :=
  parts.foldl (fun path part =>
    if ['/'].isPrefixOf part then Text.splitOn ['/'] part
    else path ++ Text.splitOn ['/'] part) root

/-- The place of the joined parts strictly below the root, if they are there. -/
def resolveUnder (root : TreePath) (parts : List Text) : Option TreePath :=
  let target := normalizeSegments (joinParts root parts)
  if root.isPrefixOf target ∧ target ≠ root then some (target.drop root.length) else none

/-- The path as text. -/
def TreePath.text (path : TreePath) : Text := ['/'].intercalate path

section Paths

theorem foldl_pushSegment {segments : List Text} (h : ∀ segment ∈ segments, IsSegment segment)
    (path : TreePath) : segments.foldl pushSegment path = path ++ segments := by
  induction segments generalizing path with
  | nil => simp
  | cons segment segments ih =>
      obtain ⟨hne, hdot, hdots, -⟩ := h segment List.mem_cons_self
      have hpush : pushSegment path segment = path ++ [segment] := by
        unfold pushSegment
        rw [if_neg (not_or.mpr ⟨hne, hdot⟩), if_neg hdots]
      rw [List.foldl_cons, hpush, ih fun other hmem => h other (List.mem_cons_of_mem _ hmem)]
      simp

/-- Appending the name of an entry appends it to the normal form. -/
theorem normalizeSegments_concat {segments : List Text} {name : Text} (h : IsSegment name) :
    normalizeSegments (segments ++ [name]) = normalizeSegments segments ++ [name] := by
  have hsegments : ∀ segment ∈ [name], IsSegment segment := by
    intro segment hmem
    rw [List.mem_singleton.mp hmem]
    exact h
  unfold normalizeSegments
  rw [List.foldl_append, foldl_pushSegment hsegments]

/-- The normal form of parts without slashes has only names of entries. -/
theorem isSegment_of_mem_normalizeSegments {segments : List Text}
    (h : ∀ segment ∈ segments, '/' ∉ segment) :
    ∀ segment ∈ normalizeSegments segments, IsSegment segment := by
  have hgeneral : ∀ path : TreePath, (∀ segment ∈ path, IsSegment segment) →
      ∀ segment ∈ segments.foldl pushSegment path, IsSegment segment := by
    induction segments with
    | nil => exact fun path hpath => hpath
    | cons part segments ih =>
        intro path hpath
        apply ih fun segment hmem => h segment (List.mem_cons_of_mem _ hmem)
        intro segment hmem
        unfold pushSegment at hmem
        split at hmem
        · exact hpath segment hmem
        · rename_i hskip
          split at hmem
          · exact hpath segment (List.mem_of_mem_dropLast hmem)
          · rename_i hup
            rcases List.mem_append.mp hmem with hold | hnew
            · exact hpath segment hold
            · rw [List.mem_singleton.mp hnew]
              obtain ⟨hne, hdot⟩ := not_or.mp hskip
              exact ⟨hne, hdot, hup, h part List.mem_cons_self⟩
  exact hgeneral [] (by simp)

theorem slash_not_mem_joinParts {root : TreePath} {parts : List Text}
    (hroot : ∀ segment ∈ root, '/' ∉ segment) :
    ∀ segment ∈ joinParts root parts, '/' ∉ segment := by
  unfold joinParts
  induction parts generalizing root with
  | nil => exact hroot
  | cons part parts ih =>
      rw [List.foldl_cons]
      apply ih
      intro segment hmem
      split at hmem
      · exact Text.not_mem_of_mem_splitOn hmem
      · rcases List.mem_append.mp hmem with hold | hnew
        · exact hroot segment hold
        · exact Text.not_mem_of_mem_splitOn hnew

theorem resolveUnder_eq_some {root : TreePath} {parts : List Text} {path : TreePath} :
    resolveUnder root parts = some path ↔
      path ≠ [] ∧ normalizeSegments (joinParts root parts) = root ++ path := by
  unfold resolveUnder
  dsimp only
  constructor
  · intro h
    split at h
    · rename_i hinside
      obtain ⟨rest, hrest⟩ := List.isPrefixOf_iff_prefix.mp hinside.1
      have hpath : rest = path := by
        rw [← hrest, List.drop_left] at h
        exact Option.some.inj h
      rw [← hpath]
      refine ⟨?_, hrest.symm⟩
      intro hnil
      rw [hnil, List.append_nil] at hrest
      exact hinside.2 hrest.symm
    · cases h
  · intro h
    obtain ⟨hne, hsame⟩ := h
    have hstarts : root.isPrefixOf (root ++ path) = true :=
      List.isPrefixOf_iff_prefix.mpr (List.prefix_append root path)
    have hbelow : root ++ path ≠ root := fun hroot => hne (List.append_right_eq_self.mp hroot)
    rw [hsame, if_pos ⟨hstarts, hbelow⟩, List.drop_left]

/-- A resolved path has only names of entries. -/
theorem isSegment_of_resolveUnder {root : TreePath} {parts : List Text} {path : TreePath}
    (hroot : ∀ segment ∈ root, IsSegment segment) (h : resolveUnder root parts = some path) :
    ∀ segment ∈ path, IsSegment segment := by
  have hparts : ∀ segment ∈ joinParts root parts, '/' ∉ segment :=
    slash_not_mem_joinParts fun segment hmem => (hroot segment hmem).2.2.2
  intro segment hmem
  apply isSegment_of_mem_normalizeSegments hparts
  rw [(resolveUnder_eq_some.mp h).2]
  exact List.mem_append_right root hmem

/-- Joining the name of an entry appends it. -/
theorem joinParts_concat {root : TreePath} {parts : List Text} {name : Text}
    (hname : IsSegment name) : joinParts root (parts ++ [name]) = joinParts root parts ++ [name] := by
  have hstart : ['/'].isPrefixOf name = false := by
    rw [← Bool.not_eq_true, List.isPrefixOf_iff_prefix]
    intro hstarts
    exact hname.2.2.2 (hstarts.subset (List.mem_singleton_self _))
  unfold joinParts
  rw [List.foldl_append, List.foldl_cons, List.foldl_nil, hstart, if_neg Bool.false_ne_true,
    Text.splitOn_of_not_mem hname.2.2.2]

/-- An entry of a resolved directory resolves to what is below it. -/
theorem resolveUnder_concat {root : TreePath} {parts : List Text} {path : TreePath} {name : Text}
    (hname : IsSegment name) (h : resolveUnder root parts = some path) :
    resolveUnder root (parts ++ [name]) = some (path ++ [name]) := by
  obtain ⟨hne, hsame⟩ := resolveUnder_eq_some.mp h
  rw [resolveUnder_eq_some, joinParts_concat hname, normalizeSegments_concat hname, hsame,
    List.append_assoc]
  exact ⟨by simp, rfl⟩

theorem TreePath.text_cons (segment other : Text) (path : TreePath) :
    TreePath.text (segment :: other :: path) = segment ++ '/' :: TreePath.text (other :: path) := by
  simp [TreePath.text, List.intercalate]

theorem TreePath.text_singleton (name : Text) : TreePath.text [name] = name := by
  simp [TreePath.text, List.intercalate]

theorem TreePath.text_append {path rest : TreePath} (hne : path ≠ []) (hrest : rest ≠ []) :
    TreePath.text (path ++ rest) = path.text ++ '/' :: rest.text := by
  induction path with
  | nil => exact absurd rfl hne
  | cons segment path ih =>
      cases path with
      | nil =>
          obtain ⟨other, more, hmore⟩ := List.exists_cons_of_ne_nil hrest
          rw [hmore, List.singleton_append, TreePath.text_cons, TreePath.text_singleton]
      | cons other path =>
          have hlater := ih (List.cons_ne_nil _ _)
          rw [List.cons_append] at hlater ⊢
          rw [List.cons_append, TreePath.text_cons, hlater, TreePath.text_cons, List.append_assoc,
            List.cons_append]

theorem splitOn_ne_nil (s : Text) : Text.splitOn ['/'] s ≠ [] := by
  have hgeneral : ∀ s part : Text, Text.splitFrom ['/'] 0 part s ≠ [] := by
    intro s
    induction s with
    | nil => exact fun part => List.cons_ne_nil _ _
    | cons c s ih =>
        intro part
        unfold Text.splitFrom
        split
        · exact List.cons_ne_nil _ _
        · exact ih _
  exact hgeneral s []

/-- The parts of a text make it up again. -/
theorem text_splitOn (s : Text) : TreePath.text (Text.splitOn ['/'] s) = s := by
  have hgeneral : ∀ n, ∀ s : Text, s.length ≤ n → TreePath.text (Text.splitOn ['/'] s) = s := by
    intro n
    induction n with
    | zero =>
        intro s hlength
        have hnil : s = [] := List.length_eq_zero_iff.mp (by omega)
        rw [hnil]
        rfl
    | succ n ih =>
        intro s hlength
        by_cases hmem : '/' ∈ s
        · obtain ⟨before, rest, hs, hbefore⟩ := List.eq_append_cons_of_mem hmem
          have hrest : rest.length ≤ n := by
            have hsum := congrArg List.length hs
            rw [List.length_append, List.length_cons] at hsum
            omega
          obtain ⟨part, parts, hparts⟩ := List.exists_cons_of_ne_nil (splitOn_ne_nil rest)
          rw [hs, Text.splitOn_append hbefore, hparts, TreePath.text_cons, ← hparts, ih rest hrest]
        · rw [Text.splitOn_of_not_mem hmem, TreePath.text_singleton]
  exact hgeneral s.length s (Nat.le_refl _)

/-- The text of a path is split into its segments. -/
theorem splitOn_text {path : TreePath} (hne : path ≠ [])
    (h : ∀ segment ∈ path, IsSegment segment) : Text.splitOn ['/'] path.text = path := by
  induction path with
  | nil => exact absurd rfl hne
  | cons segment path ih =>
      have hslash := (h segment List.mem_cons_self).2.2.2
      cases path with
      | nil =>
          rw [TreePath.text_singleton, Text.splitOn_of_not_mem hslash]
      | cons other path =>
          rw [TreePath.text_cons, Text.splitOn_append hslash,
            ih (List.cons_ne_nil _ _) fun part hmem => h part (List.mem_cons_of_mem _ hmem)]

/-- A path's text resolves to the path. -/
theorem resolveUnder_text {root path : TreePath} (hroot : ∀ segment ∈ root, IsSegment segment)
    (hne : path ≠ []) (h : ∀ segment ∈ path, IsSegment segment) :
    resolveUnder root [path.text] = some path := by
  have hstart : ['/'].isPrefixOf path.text = false := by
    cases path with
    | nil => exact absurd rfl hne
    | cons segment rest =>
        obtain ⟨hsegment, -, -, hslash⟩ := h segment List.mem_cons_self
        cases segment with
        | nil => exact absurd rfl hsegment
        | cons c segment =>
            have hc : '/' ≠ c := fun hsame => hslash (hsame ▸ List.mem_cons_self)
            have htext : ∃ tail, TreePath.text ((c :: segment) :: rest) = c :: tail := by
              cases rest with
              | nil => exact ⟨segment, TreePath.text_singleton _⟩
              | cons other rest => exact ⟨_, TreePath.text_cons _ _ _⟩
            obtain ⟨tail, htail⟩ := htext
            rw [htail, Text.singleton_isPrefixOf, beq_eq_false_iff_ne]
            exact hc
  have hjoin : joinParts root [path.text] = root ++ path := by
    unfold joinParts
    rw [List.foldl_cons, List.foldl_nil, hstart, if_neg Bool.false_ne_true, splitOn_text hne h]
  rw [resolveUnder_eq_some, hjoin]
  refine ⟨hne, ?_⟩
  unfold normalizeSegments
  rw [foldl_pushSegment, List.nil_append]
  intro segment hmem
  rcases List.mem_append.mp hmem with hin | hin
  · exact hroot segment hin
  · exact h segment hin

end Paths

/-! ## Trees -/

local instance (priority := 2000) instDecidableEqBytes : DecidableEq Bytes :=
  ByteArray.instDecidableEq

/-- What a path has in a tree. -/
inductive Node where
  | dir
  | file (content : Bytes)
  deriving DecidableEq

/-- What the entries have at a path. -/
def nodeAt (entries : List (TreePath × Node)) (path : TreePath) : Option Node :=
  (Table.lookup Prod.fst entries path).map Prod.snd

/-- What has an entry lies in the root or in a directory. -/
def Closed (entries : List (TreePath × Node)) : Prop :=
  ∀ path segment, nodeAt entries (path ++ [segment]) ≠ none →
    path = [] ∨ nodeAt entries path = some .dir

theorem nodeAt_append (entries more : List (TreePath × Node)) (path : TreePath) :
    nodeAt (entries ++ more) path = (nodeAt entries path).or (nodeAt more path) := by
  unfold nodeAt
  rw [Table.lookup_append, Option.map_or]

theorem nodeAt_cons (entry : TreePath × Node) (entries : List (TreePath × Node))
    (path : TreePath) :
    nodeAt (entry :: entries) path = if entry.1 = path then some entry.2 else nodeAt entries path := by
  unfold nodeAt
  rw [Table.lookup_cons]
  split
  · rfl
  · rfl

theorem nodeAt_dirs (paths : List TreePath) (path : TreePath) :
    nodeAt (paths.map fun made => (made, .dir)) path =
      if path ∈ paths then some .dir else none := by
  induction paths with
  | nil => rfl
  | cons made paths ih =>
      rw [List.map_cons, nodeAt_cons, ih]
      by_cases hsame : made = path
      · simp [hsame]
      · simp [hsame, Ne.symm hsame]

theorem nodeAt_filter (p : TreePath → Bool) (entries : List (TreePath × Node)) (path : TreePath) :
    nodeAt (entries.filter fun entry => p entry.1) path =
      if p path then nodeAt entries path else none := by
  induction entries with
  | nil => simp [nodeAt]
  | cons entry entries ih =>
      rw [List.filter_cons, nodeAt_cons]
      by_cases hsame : entry.1 = path
      · rw [hsame, if_pos rfl]
        by_cases hp : p path
        · rw [if_pos hp, if_pos hp, nodeAt_cons, if_pos hsame]
        · rw [if_neg hp, if_neg hp, ih, if_neg hp]
      · rw [if_neg hsame]
        by_cases hp : p entry.1
        · rw [if_pos hp, nodeAt_cons, if_neg hsame, ih]
        · rw [if_neg hp, ih]

/-- The directories that are missing on the way to a path, the path included. -/
def missingDirs (entries : List (TreePath × Node)) (path : TreePath) : List TreePath :=
  path.inits.filter fun above => above ≠ [] ∧ nodeAt entries above = none

theorem mem_missingDirs {entries : List (TreePath × Node)} {path above : TreePath} :
    above ∈ missingDirs entries path ↔
      above <+: path ∧ above ≠ [] ∧ nodeAt entries above = none := by
  unfold missingDirs
  rw [List.mem_filter, List.mem_inits, decide_eq_true_eq]

/-- Making the missing directories keeps the tree closed, if no file is in the way. -/
theorem closed_missingDirs {entries : List (TreePath × Node)} (h : Closed entries)
    {path : TreePath}
    (hway : ∀ above, above <+: path → ∀ content, nodeAt entries above ≠ some (.file content)) :
    Closed (entries ++ (missingDirs entries path).map fun above => (above, .dir)) := by
  intro parent segment hchild
  rw [nodeAt_append, nodeAt_dirs] at hchild ⊢
  by_cases hroot : parent = []
  · exact Or.inl hroot
  · right
    by_cases hold : nodeAt entries (parent ++ [segment]) = none
    · have hmissing : parent ++ [segment] ∈ missingDirs entries path := by
        by_contra hnot
        rw [hold, if_neg hnot] at hchild
        exact hchild rfl
      have hbelow : parent <+: path :=
        (List.prefix_append parent [segment]).trans (mem_missingDirs.mp hmissing).1
      cases hparent : nodeAt entries parent with
      | none =>
          rw [if_pos (mem_missingDirs.mpr ⟨hbelow, hroot, hparent⟩)]
          rfl
      | some node =>
          cases node with
          | dir => rfl
          | file content => exact absurd hparent (hway parent hbelow content)
    · rcases h parent segment hold with hnil | hdir
      · exact absurd hnil hroot
      · rw [hdir]
        rfl

theorem closed_write {entries : List (TreePath × Node)} (h : Closed entries) {path : TreePath}
    {content : Bytes}
    (hparent : path.dropLast = [] ∨ nodeAt entries path.dropLast = some .dir)
    (hfile : nodeAt entries path ≠ some .dir) :
    Closed ((path, .file content) :: entries) := by
  intro parent segment hchild
  rw [nodeAt_cons] at hchild ⊢
  by_cases hnew : path = parent ++ [segment]
  · have hdrop : path.dropLast = parent := by rw [hnew, List.dropLast_concat]
    have hother : path ≠ parent := by
      intro hsame
      have hlength := congrArg List.length hnew
      rw [hsame, List.length_append] at hlength
      simp at hlength
    rw [if_neg hother, ← hdrop]
    exact hparent
  · rw [if_neg hnew] at hchild
    rcases h parent segment hchild with hroot | hdir
    · exact Or.inl hroot
    · right
      have hother : path ≠ parent := fun hsame => hfile (hsame ▸ hdir)
      rw [if_neg hother, hdir]

theorem closed_remove {entries : List (TreePath × Node)} (h : Closed entries) (path : TreePath) :
    Closed (entries.filter fun entry => !path.isPrefixOf entry.1) := by
  intro parent segment hchild
  rw [nodeAt_filter fun other => !path.isPrefixOf other] at hchild ⊢
  split at hchild
  · rename_i hkept
    rcases h parent segment hchild with hroot | hdir
    · exact Or.inl hroot
    · right
      rw [hdir, if_pos]
      rw [Bool.not_eq_true', ← Bool.not_eq_true, List.isPrefixOf_iff_prefix] at hkept ⊢
      exact fun hbelow => hkept (hbelow.trans (List.prefix_append parent [segment]))
  · exact absurd rfl hchild

/-- Entries that each lie in the root or in a directory make a closed tree. -/
theorem closed_of_forall {entries : List (TreePath × Node)}
    (h : ∀ entry ∈ entries, entry.1.dropLast = [] ∨ nodeAt entries entry.1.dropLast = some .dir) :
    Closed entries := by
  intro path segment hchild
  unfold nodeAt Table.lookup at hchild
  rw [ne_eq, Option.map_eq_none_iff, List.find?_eq_none] at hchild
  push Not at hchild
  obtain ⟨entry, hmem, hpath⟩ := hchild
  have hsame : entry.1 = path ++ [segment] := of_decide_eq_true hpath
  have hparent := h entry hmem
  rw [hsame, List.dropLast_concat] at hparent
  exact hparent

theorem root_missingDirs {entries : List (TreePath × Node)} (h : nodeAt entries [] = none)
    (path : TreePath) :
    nodeAt (entries ++ (missingDirs entries path).map fun above => (above, .dir)) [] = none := by
  have hnot : [] ∉ missingDirs entries path := fun hmem => (mem_missingDirs.mp hmem).2.1 rfl
  rw [nodeAt_append, nodeAt_dirs, h, if_neg hnot]
  rfl

theorem root_write {entries : List (TreePath × Node)} (h : nodeAt entries [] = none)
    {path : TreePath} (hne : path ≠ []) {content : Bytes} :
    nodeAt ((path, .file content) :: entries) [] = none := by
  rw [nodeAt_cons, if_neg hne, h]

theorem root_remove {entries : List (TreePath × Node)} (h : nodeAt entries [] = none)
    (path : TreePath) :
    nodeAt (entries.filter fun entry => !path.isPrefixOf entry.1) [] = none := by
  rw [nodeAt_filter fun other => !path.isPrefixOf other, h, ite_self]

/-- A tree; the root is a directory without an entry. -/
structure FileTree where
  entries : List (TreePath × Node)
  closed : Closed entries
  root : nodeAt entries [] = none

namespace FileTree

/-- What the tree has at a path. -/
def at? (tree : FileTree) (path : TreePath) : Option Node := nodeAt tree.entries path

/-- The tree without entries. -/
def empty : FileTree where
  entries := []
  closed _ _ h := absurd rfl h
  root := rfl

def isDir (tree : FileTree) (path : TreePath) : Bool := path = [] || tree.at? path = some .dir

def isFile (tree : FileTree) (path : TreePath) : Bool :=
  match tree.at? path with
  | some (.file _) => true
  | _ => false

def «exists» (tree : FileTree) (path : TreePath) : Bool := path = [] || (tree.at? path).isSome

/-- The content of a file. -/
def read (tree : FileTree) (path : TreePath) : Option Bytes :=
  match tree.at? path with
  | some (.file content) => some content
  | _ => none

/-- The names in a directory. -/
def children (tree : FileTree) (path : TreePath) : List Text :=
  (tree.entries.filterMap fun entry =>
    if entry.1.dropLast = path then entry.1.getLast? else none).dedup

theorem isDir_of_child {tree : FileTree} {path : TreePath} {segment : Text}
    (h : tree.at? (path ++ [segment]) ≠ none) : tree.isDir path = true := by
  unfold isDir
  rcases tree.closed path segment h with hroot | hdir
  · simp [hroot]
  · simp [at?, hdir]

theorem mem_children {tree : FileTree} {path : TreePath} {name : Text} :
    name ∈ tree.children path ↔ tree.at? (path ++ [name]) ≠ none := by
  unfold children at? nodeAt Table.lookup
  rw [List.mem_dedup, List.mem_filterMap, ne_eq, Option.map_eq_none_iff, List.find?_eq_none]
  constructor
  · intro h hnone
    obtain ⟨entry, hmem, hname⟩ := h
    split at hname
    · rename_i hparent
      have hlast : entry.1 = path ++ [name] := by
        rw [← hparent]
        exact (List.dropLast_append_getLast? name hname).symm
      exact hnone entry hmem (decide_eq_true hlast)
    · cases hname
  · intro h
    push Not at h
    obtain ⟨entry, hmem, hpath⟩ := h
    have hsame : entry.1 = path ++ [name] := of_decide_eq_true hpath
    refine ⟨entry, hmem, ?_⟩
    rw [hsame]
    simp

/-- Nothing lies below a path that has nothing. -/
theorem at?_below {tree : FileTree} {path : TreePath} (h : tree.exists path = false)
    {other : TreePath} (hbelow : path <+: other) : tree.at? other = none := by
  unfold «exists» at h
  rw [Bool.or_eq_false_iff, decide_eq_false_iff_not, Option.isSome_eq_false_iff,
    Option.isNone_iff_eq_none] at h
  obtain ⟨rest, hrest⟩ := hbelow
  rw [← hrest]
  induction rest using List.reverseRecOn generalizing other with
  | nil =>
      rw [List.append_nil]
      exact h.2
  | append_singleton rest segment ih =>
      have hparent := ih rfl
      by_contra hchild
      rw [← List.append_assoc] at hchild
      rcases tree.closed (path ++ rest) segment hchild with hroot | hdir
      · exact h.1 (List.append_eq_nil_iff.mp hroot).1
      · rw [at?, hdir] at hparent
        cases hparent

/-- A directory has an entry, unless it is the root. -/
theorem isDir_iff {tree : FileTree} {path : TreePath} :
    tree.isDir path = true ↔ path = [] ∨ tree.at? path = some .dir := by
  unfold isDir
  rw [Bool.or_eq_true, decide_eq_true_eq, decide_eq_true_eq]

/-! ### Operations -/

theorem not_file_of_inits {tree : FileTree} {path : TreePath}
    (h : ∀ above ∈ path.inits, tree.isFile above = false) :
    ∀ above, above <+: path → ∀ content, nodeAt tree.entries above ≠ some (.file content) := by
  intro above hbelow content hfile
  have hnot := h above ((List.mem_inits _ _).mpr hbelow)
  rw [isFile, at?, hfile] at hnot
  cases hnot

/-- `path.mkdir(parents=True, exist_ok=True)`. -/
def mkdirs (tree : FileTree) (path : TreePath) : Option FileTree :=
  if h : ∀ above ∈ path.inits, tree.isFile above = false then
    some ⟨_, closed_missingDirs tree.closed (not_file_of_inits h), root_missingDirs tree.root path⟩
  else none

/-- `path.write_bytes(content)`. -/
def write (tree : FileTree) (path : TreePath) (content : Bytes) : Option FileTree :=
  if h : (path.dropLast = [] ∨ tree.at? path.dropLast = some .dir) ∧ tree.at? path ≠ some .dir ∧
      path ≠ [] then
    some ⟨(path, .file content) :: tree.entries, closed_write tree.closed h.1 h.2.1,
      root_write tree.root h.2.2⟩
  else none

/-- `shutil.rmtree(path)`, and `path.unlink()` for a file. -/
def remove (tree : FileTree) (path : TreePath) : FileTree :=
  ⟨_, closed_remove tree.closed path, root_remove tree.root path⟩

/-- What is found after making directories. -/
theorem at?_mkdirs {tree after : FileTree} {path : TreePath} (h : tree.mkdirs path = some after)
    (other : TreePath) :
    after.at? other =
      (tree.at? other).or (if other <+: path ∧ other ≠ [] then some .dir else none) := by
  unfold mkdirs at h
  split at h
  · cases h
    unfold at?
    rw [nodeAt_append, nodeAt_dirs]
    cases hnode : nodeAt tree.entries other with
    | some node => rfl
    | none =>
        rw [Option.none_or, Option.none_or]
        by_cases hway : other <+: path ∧ other ≠ []
        · rw [if_pos hway, if_pos (mem_missingDirs.mpr ⟨hway.1, hway.2, hnode⟩)]
        · have hnot : other ∉ missingDirs tree.entries path :=
            fun hmem => hway ⟨(mem_missingDirs.mp hmem).1, (mem_missingDirs.mp hmem).2.1⟩
          rw [if_neg hway, if_neg hnot]
  · cases h

/-- What is found after writing a file. -/
theorem at?_write {tree after : FileTree} {path : TreePath} {content : Bytes}
    (h : tree.write path content = some after) (other : TreePath) :
    after.at? other = if other = path then some (.file content) else tree.at? other := by
  unfold write at h
  split at h
  · cases h
    unfold at?
    rw [nodeAt_cons]
    by_cases hsame : path = other
    · rw [if_pos hsame, if_pos hsame.symm]
    · rw [if_neg hsame, if_neg (Ne.symm hsame)]
  · cases h

/-- What is found after a removal. -/
theorem at?_remove (tree : FileTree) (path other : TreePath) :
    (tree.remove path).at? other = if path <+: other then none else tree.at? other := by
  unfold remove at?
  rw [nodeAt_filter fun other => !path.isPrefixOf other]
  by_cases hbelow : path <+: other
  · rw [if_pos hbelow, if_neg]
    rw [Bool.not_eq_true', ← Bool.not_eq_true, List.isPrefixOf_iff_prefix]
    exact not_not.mpr hbelow
  · rw [if_neg hbelow, if_pos]
    rw [Bool.not_eq_true', ← Bool.not_eq_true, List.isPrefixOf_iff_prefix]
    exact hbelow

/-! ### Changes -/

/-- What lies above a directory is a directory. -/
theorem isDir_above {tree : FileTree} {path above : TreePath} (h : tree.isDir path = true)
    (habove : above <+: path) : tree.isDir above = true := by
  obtain ⟨rest, hrest⟩ := habove
  rw [← hrest] at h
  clear hrest
  induction rest using List.reverseRecOn with
  | nil =>
      rw [List.append_nil] at h
      exact h
  | append_singleton rest segment ih =>
      rw [← List.append_assoc] at h
      have hchild : tree.at? (above ++ rest ++ [segment]) ≠ none := by
        rcases isDir_iff.mp h with hroot | hdir
        · simp at hroot
        · rw [hdir]
          exact Option.some_ne_none _
      exact ih (isDir_of_child hchild)

theorem isFile_of_isDir {tree : FileTree} {path : TreePath} (hne : path ≠ [])
    (h : tree.isDir path = true) : tree.isFile path = false := by
  unfold isFile
  rw [(isDir_iff.mp h).resolve_left hne]

/-- A file can be written into a directory, where there is no directory of its name. -/
theorem write_of_isDir {tree : FileTree} {path : TreePath} {name : Text} (content : Bytes)
    (hdir : tree.isDir path = true) (hfile : tree.at? (path ++ [name]) ≠ some .dir) :
    ∃ written, tree.write (path ++ [name]) content = some written := by
  unfold write
  rw [dif_pos]
  · exact ⟨_, rfl⟩
  · rw [List.dropLast_concat]
    exact ⟨isDir_iff.mp hdir, hfile, by simp⟩

/-- Nothing is missing on the way to a directory. -/
theorem mkdirs_of_isDir {tree : FileTree} {path : TreePath} (h : tree.isDir path = true) :
    ∃ made, tree.mkdirs path = some made ∧ ∀ other, made.at? other = tree.at? other := by
  have hway : ∀ above ∈ path.inits, tree.isFile above = false := by
    intro above hmem
    by_cases hne : above = []
    · unfold isFile at?
      rw [hne, tree.root]
    · exact isFile_of_isDir hne (isDir_above h ((List.mem_inits _ _).mp hmem))
  obtain ⟨made, hmade⟩ : ∃ made, tree.mkdirs path = some made := by
    unfold mkdirs
    rw [dif_pos hway]
    exact ⟨_, rfl⟩
  refine ⟨made, hmade, ?_⟩
  intro other
  rw [at?_mkdirs hmade]
  by_cases hbelow : other <+: path ∧ other ≠ []
  · rw [(isDir_iff.mp (isDir_above h hbelow.1)).resolve_left hbelow.2]
    rfl
  · rw [if_neg hbelow, Option.or_none]

/-- No file is in the way to the path, and no directory is at it. -/
def Writable (tree : FileTree) (path : TreePath) : Prop :=
  (∀ above ∈ path.dropLast.inits, tree.isFile above = false) ∧ tree.at? path ≠ some .dir

/-- That is what it takes to make the directories and to write the file. -/
theorem writable_iff {tree : FileTree} {path : TreePath} (content : Bytes) (hne : path ≠ []) :
    tree.Writable path ↔ ∃ made, tree.mkdirs path.dropLast = some made ∧
      ∃ written, made.write path content = some written := by
  have hlength : path.dropLast.length < path.length := by
    rw [List.length_dropLast]
    have hpos := List.length_pos_iff.mpr hne
    omega
  constructor
  · intro h
    obtain ⟨made, hmade⟩ : ∃ made, tree.mkdirs path.dropLast = some made := by
      unfold mkdirs
      rw [dif_pos h.1]
      exact ⟨_, rfl⟩
    refine ⟨made, hmade, ?_⟩
    unfold write
    rw [dif_pos]
    · exact ⟨_, rfl⟩
    · refine ⟨?_, ?_, hne⟩
      · by_cases hroot : path.dropLast = []
        · exact Or.inl hroot
        · right
          have hparent := h.1 path.dropLast ((List.mem_inits _ _).mpr (List.prefix_refl _))
          rw [at?_mkdirs hmade, if_pos ⟨List.prefix_refl _, hroot⟩]
          cases hnode : tree.at? path.dropLast with
          | none => rfl
          | some node =>
              cases node with
              | dir => rfl
              | file content =>
                  unfold isFile at hparent
                  rw [hnode] at hparent
                  cases hparent
      · have hnot : ¬ (path <+: path.dropLast ∧ path ≠ []) := by
          intro hbelow
          have hle := hbelow.1.length_le
          omega
        rw [at?_mkdirs hmade, if_neg hnot, Option.or_none]
        exact h.2
  · intro h
    obtain ⟨made, hmade, written, hwritten⟩ := h
    have hway : ∀ above ∈ path.dropLast.inits, tree.isFile above = false := by
      unfold mkdirs at hmade
      split at hmade
      · assumption
      · cases hmade
    refine ⟨hway, ?_⟩
    intro hdir
    unfold write at hwritten
    split at hwritten
    · rename_i hcond
      apply hcond.2.1
      rw [at?_mkdirs hmade, hdir]
      rfl
    · cases hwritten

theorem read_eq_some {tree : FileTree} {path : TreePath} {content : Bytes} :
    tree.read path = some content ↔ tree.at? path = some (.file content) := by
  unfold read
  split
  · rename_i found hfound
    rw [hfound]
    simp
  · rename_i hnot
    constructor
    · intro h
      cases h
    · intro h
      exact absurd h (hnot content)

theorem isFile_iff {tree : FileTree} {path : TreePath} :
    tree.isFile path = true ↔ ∃ content, tree.read path = some content := by
  unfold isFile read
  split
  · simp
  · simp

theorem read_mkdirs {tree after : FileTree} {path : TreePath} (h : tree.mkdirs path = some after)
    (other : TreePath) : after.read other = tree.read other := by
  unfold read
  rw [at?_mkdirs h]
  cases tree.at? other with
  | some node => rfl
  | none =>
      rw [Option.none_or]
      split_ifs
      · rfl
      · rfl

theorem read_write {tree after : FileTree} {path : TreePath} {content : Bytes}
    (h : tree.write path content = some after) (other : TreePath) :
    after.read other = if other = path then some content else tree.read other := by
  unfold read
  rw [at?_write h]
  by_cases hsame : other = path
  · rw [if_pos hsame, if_pos hsame]
  · rw [if_neg hsame, if_neg hsame]

/-- What an operation can do to a tree: the directories that it makes, the files that it
writes, and the paths that it removes. -/
structure Footprint where
  dirs : TreePath → Prop
  files : TreePath → Bytes → Prop
  gone : TreePath → Prop

/-- Every path is as it was, or differs as the footprint allows; a directory comes only
where there was nothing. -/
def Changed (F : Footprint) (tree after : FileTree) : Prop :=
  ∀ path, after.at? path = tree.at? path ∨
    (F.dirs path ∧ (tree.at? path = none ∨ F.gone path) ∧ after.at? path = some .dir) ∨
    (∃ content, F.files path content ∧ after.at? path = some (.file content)) ∨
    (F.gone path ∧ after.at? path = none)

namespace Changed

variable {F : Footprint} {tree between after : FileTree}

theorem refl (tree : FileTree) : Changed F tree tree := fun _ => Or.inl rfl

theorem trans (h : Changed F tree between) (h' : Changed F between after) :
    Changed F tree after := by
  intro path
  rcases h' path with hsame | ⟨hdir, hnone, hafter⟩ | hwritten | hremoved
  · rw [hsame]
    exact h path
  · right
    left
    refine ⟨hdir, ?_, hafter⟩
    rcases hnone with hnone | hpath
    · rcases h path with hfirst | ⟨-, -, hmade⟩ | ⟨content, -, hmade⟩ | ⟨hpath, -⟩
      · exact Or.inl (hfirst ▸ hnone)
      · rw [hmade] at hnone
        cases hnone
      · rw [hmade] at hnone
        cases hnone
      · exact Or.inr hpath
    · exact Or.inr hpath
  · exact Or.inr (Or.inr (Or.inl hwritten))
  · exact Or.inr (Or.inr (Or.inr hremoved))

theorem of_mkdirs {path : TreePath} (h : tree.mkdirs path = some after)
    (hdirs : ∀ above, above <+: path → above ≠ [] → F.dirs above) : Changed F tree after := by
  intro other
  rw [at?_mkdirs h]
  cases hnode : tree.at? other with
  | some node => exact Or.inl rfl
  | none =>
      rw [Option.none_or]
      split
      · rename_i hway
        exact Or.inr (Or.inl ⟨hdirs other hway.1 hway.2, Or.inl rfl, rfl⟩)
      · exact Or.inl rfl

theorem of_write {path : TreePath} {content : Bytes} (h : tree.write path content = some after)
    (hfile : F.files path content) : Changed F tree after := by
  intro other
  rw [at?_write h]
  split
  · rename_i hsame
    exact Or.inr (Or.inr (Or.inl ⟨content, hsame ▸ hfile, rfl⟩))
  · exact Or.inl rfl

theorem of_remove {path : TreePath} (hgone : ∀ other, path <+: other → F.gone other) :
    Changed F tree (tree.remove path) := by
  intro other
  rw [at?_remove]
  split
  · rename_i hbelow
    exact Or.inr (Or.inr (Or.inr ⟨hgone other hbelow, rfl⟩))
  · exact Or.inl rfl

/-- What is read at a path afterwards: what it was, what was written, or nothing. -/
theorem read (h : Changed F tree after) (path : TreePath) :
    after.read path = tree.read path ∨
      (∃ content, F.files path content ∧ after.read path = some content) ∨
      (F.gone path ∧ after.read path = none) := by
  have hdir : ∀ {other : FileTree}, other.at? path = some .dir → other.read path = none := by
    intro other hat
    unfold FileTree.read
    rw [hat]
  have hnone : ∀ {other : FileTree}, other.at? path = none → other.read path = none := by
    intro other hat
    unfold FileTree.read
    rw [hat]
  rcases h path with hsame | ⟨-, hbefore, hafter⟩ | ⟨content, hfile, hafter⟩ | ⟨hpath, hafter⟩
  · left
    unfold FileTree.read
    rw [hsame]
  · rcases hbefore with hbefore | hpath
    · left
      rw [hdir hafter, hnone hbefore]
    · exact Or.inr (Or.inr ⟨hpath, hdir hafter⟩)
  · exact Or.inr (Or.inl ⟨content, hfile, read_eq_some.mpr hafter⟩)
  · exact Or.inr (Or.inr ⟨hpath, hnone hafter⟩)

end Changed

end FileTree

end M8flow.Lib
