import M8flow.Keycloak.RealmTemplate
import M8flow.Lib.Replace

/-!
# The paths of groups

`normalize_organizational_group_identifier` and the walk down a default path.  What is
before a path's first colon is taken for a tenant and kept as it is, so a path need
not be its own canonical form, and the path of a group need not be its parent's with
its name below.

Both hold for clean paths: their segments have no white space around them, and their
first colon ends a segment, as the one of a tenant prefix does.  `CleanPath.straight` says
that the walk down such a path takes its segments as they are written, and
`cleanPath_of_no_colon` that a path without a colon is clean.
-/

namespace M8flow.Keycloak

open M8flow.Lib M8flow.Lib.Json

/-! ## Paths of groups -/

/-- The path of a group below another. -/
def childPath (parentPath segment : Text) : Text := parentPath ++ '/' :: segment

theorem childPath_inj {parentPath segment other : Text}
    (h : childPath parentPath segment = childPath parentPath other) : segment = other :=
  (List.cons.inj (List.append_cancel_left h)).2

theorem childPath_ne_nil (parentPath segment : Text) : childPath parentPath segment ≠ [] :=
  List.append_ne_nil_of_right_ne_nil _ (List.cons_ne_nil _ _)

/-- A path that is its own canonical form. -/
def Fixed (path : Text) : Prop := normalizeOrganizationalGroupIdentifier path = path

theorem normalize_of_blank {path : Text} (h : path.strip = []) :
    normalizeOrganizationalGroupIdentifier path = [] := by
  unfold normalizeOrganizationalGroupIdentifier
  rw [h]
  rfl

/-- A canonical path is not blank. -/
theorem Fixed.strip_ne_nil {path : Text} (h : Fixed path) (hne : path ≠ []) : path.strip ≠ [] := by
  intro hblank
  apply hne
  rw [← h]
  exact normalize_of_blank hblank

/-- The walk down a chain takes the segments as they are written. -/
def Straight : (parentPath : Text) → List Text → Prop
  | _, [] => True
  | parentPath, segment :: rest =>
      normalizeOrganizationalGroupIdentifier (underParent parentPath segment) =
          childPath parentPath segment ∧
        Fixed (childPath parentPath segment) ∧ Straight (childPath parentPath segment) rest

/-! ## Clean paths -/

section Clean

/-- A segment as a path is split into: it is not empty, and stripped. -/
structure CleanSegment (segment : Text) : Prop where
  ne_nil : segment ≠ []
  stripped : segment.strip = segment
  slash : '/' ∉ segment

/-- The first colon of the segments ends one of them. -/
def ColonLast : List Text → Prop
  | [] => True
  | segment :: rest =>
      if ':' ∈ segment then (Text.partition ':' segment).2.2 = [] else ColonLast rest

/-- The chain of a default path, which is empty where the code skips the path. -/
def chainOf (path : Text) : List Text :=
  let normalizedPath := normalizeOrganizationalGroupIdentifier path
  if normalizedPath = [] then []
  else Text.splitOn ['/'] (Text.stripWhere (· == '/') normalizedPath)

/-- The canonical form of the path is in clean segments, and its first colon ends one. -/
structure CleanPath (path : Text) : Prop where
  segments : ∀ segment ∈ chainOf path, segment ≠ [] ∧ segment.strip = segment
  colon : ColonLast (chainOf path)

/-- The text of an absolute path. -/
def pathText (segments : List Text) : Text := segments.flatMap fun segment => '/' :: segment

variable {segment : Text} {segments rest : List Text}

theorem pathText_cons (segment : Text) (rest : List Text) :
    pathText (segment :: rest) = '/' :: (segment ++ pathText rest) := rfl

theorem pathText_append (segments rest : List Text) :
    pathText (segments ++ rest) = pathText segments ++ pathText rest :=
  List.flatMap_append

theorem childPath_pathText (segments : List Text) (segment : Text) :
    childPath (pathText segments) segment = pathText (segments ++ [segment]) := by
  rw [pathText_append, pathText_cons, childPath]
  simp [pathText]

theorem slash_intercalate (h : segments ≠ []) :
    '/' :: ['/'].intercalate segments = pathText segments := by
  induction segments with
  | nil => exact absurd rfl h
  | cons segment rest ih =>
      cases rest with
      | nil => simp [pathText]
      | cons next rest =>
          rw [pathText_cons, ← ih (List.cons_ne_nil _ _), List.intercalate_cons_cons]
          simp

/-- A clean path is split into its segments, after an empty first part. -/
theorem splitOn_append_pathText {before : Text} (hbefore : '/' ∉ before)
    (h : ∀ segment ∈ segments, CleanSegment segment) :
    Text.splitOn ['/'] (before ++ pathText segments) = before :: segments := by
  induction segments generalizing before with
  | nil =>
      rw [pathText, List.flatMap_nil, List.append_nil, Text.splitOn_of_not_mem hbefore]
  | cons segment rest ih =>
      obtain ⟨hsegment, hrest⟩ := List.forall_mem_cons.mp h
      rw [pathText_cons, Text.splitOn_append hbefore, ih hsegment.slash hrest]

theorem filter_strip (h : ∀ segment ∈ segments, CleanSegment segment) :
    (segments.map Text.strip).filter (fun segment => segment ≠ []) = segments := by
  have hmap : segments.map Text.strip = segments :=
    (List.map_congr_left fun segment hsegment => (h segment hsegment).stripped).trans
      (List.map_id _)
  rw [hmap, List.filter_eq_self]
  exact fun segment hsegment => decide_eq_true (h segment hsegment).ne_nil

/-- The segments of a clean path, read again. -/
theorem segments_pathText (h : ∀ segment ∈ segments, CleanSegment segment) :
    ((Text.splitOn ['/'] (pathText segments)).map Text.strip).filter (fun segment => segment ≠ []) =
      segments := by
  have hsplit := splitOn_append_pathText List.not_mem_nil h
  rw [List.nil_append] at hsplit
  rw [hsplit, List.map_cons, List.filter_cons_of_neg (by simp), filter_strip h]

theorem CleanSegment.getLast (h : CleanSegment segment) :
    ∀ c, segment.getLast? = some c → ¬ Text.isSpace c := by
  intro c hlast
  have hne : Text.stripWhere Text.isSpace segment ≠ [] := by
    have hstrip : Text.stripWhere Text.isSpace segment = segment := h.stripped
    rw [hstrip]
    exact h.ne_nil
  have hchar := Text.stripWhere_getLast hne
  have hsame : (Text.stripWhere Text.isSpace segment).getLast? = some c := by
    have hstrip : Text.stripWhere Text.isSpace segment = segment := h.stripped
    rw [hstrip]
    exact hlast
  rw [List.getLast?_eq_some_getLast hne] at hsame
  rw [Option.some.inj hsame] at hchar
  exact hchar

/-- There is no white space around a clean path. -/
theorem strip_pathText (hne : segments ≠ []) (h : ∀ segment ∈ segments, CleanSegment segment) :
    (pathText segments).strip = pathText segments := by
  apply Text.stripWhere_eq_self_of_ends
  · intro c hhead
    cases segments with
    | nil => exact absurd rfl hne
    | cons segment rest =>
        rw [pathText_cons, List.head?_cons] at hhead
        rw [← Option.some.inj hhead]
        decide
  · intro c hlast
    obtain ⟨before, last, hsegments⟩ := (List.eq_nil_or_concat' segments).resolve_left hne
    have hclean := h last (hsegments ▸ List.mem_append_right _ (List.mem_singleton_self _))
    have htext : pathText segments = (pathText before ++ ['/']) ++ last := by
      rw [hsegments, pathText_append, pathText_cons]
      simp [pathText]
    rw [htext, List.getLast?_append_of_ne_nil _ hclean.ne_nil] at hlast
    exact hclean.getLast c hlast

/-- Where the first colon of the segments is. -/
theorem ColonLast.cases (h : ColonLast segments) :
    (∀ segment ∈ segments, ':' ∉ segment) ∨
      ∃ before word after, segments = before ++ (word ++ [':']) :: after ∧ ':' ∉ word ∧
        ∀ segment ∈ before, ':' ∉ segment := by
  induction segments with
  | nil => exact .inl fun _ hmem => absurd hmem List.not_mem_nil
  | cons segment rest ih =>
      unfold ColonLast at h
      split at h
      · rename_i hmem
        obtain ⟨word, after, hsegment, hword⟩ := List.eq_append_cons_of_mem hmem
        rw [hsegment, Text.partition_append hword] at h
        dsimp only at h
        refine .inr ⟨[], word, rest, ?_, hword, fun _ hnil => absurd hnil List.not_mem_nil⟩
        rw [hsegment, h, List.nil_append]
      · rename_i hnot
        obtain hnone | ⟨before, word, after, hrest, hword, hbefore⟩ := ih h
        · exact .inl (List.forall_mem_cons.mpr ⟨hnot, hnone⟩)
        · refine .inr ⟨segment :: before, word, after, ?_, hword,
            List.forall_mem_cons.mpr ⟨hnot, hbefore⟩⟩
          rw [hrest, List.cons_append]

theorem ColonLast.of_append (h : ColonLast (segments ++ rest)) : ColonLast segments := by
  induction segments with
  | nil => trivial
  | cons segment segments ih =>
      rw [List.cons_append] at h
      unfold ColonLast at h ⊢
      split at h
      · rename_i hmem
        rw [if_pos hmem]
        exact h
      · rename_i hnot
        rw [if_neg hnot]
        exact ih h

theorem not_mem_pathText {c : Char} (hc : c ≠ '/') (h : ∀ segment ∈ segments, c ∉ segment) :
    c ∉ pathText segments := by
  intro hmem
  obtain ⟨segment, hsegment, hin⟩ := List.mem_flatMap.mp hmem
  cases List.mem_cons.mp hin with
  | inl hsame => exact hc hsame
  | inr hin => exact h segment hsegment hin

/-- Without a tenant prefix only the segments are read. -/
theorem normalize_of_not_prefixed {path : Text} (hstrip : path.strip = path)
    (h : (Text.partition ':' path).2.2 = [])
    (hne : ((Text.splitOn ['/'] path).map Text.strip).filter (fun segment => segment ≠ []) ≠ []) :
    normalizeOrganizationalGroupIdentifier path =
      pathText (((Text.splitOn ['/'] path).map Text.strip).filter fun segment => segment ≠ []) := by
  unfold normalizeOrganizationalGroupIdentifier
  dsimp only
  have hprefixed : ¬ ((Text.partition ':' path).1 ≠ [] ∧ (Text.partition ':' path).2.2 ≠ []) :=
    fun hboth => hboth.2 h
  rw [hstrip, if_neg hprefixed, if_neg hprefixed, if_neg hne, List.nil_append,
    slash_intercalate hne]

/-- A clean path is canonical. -/
theorem fixed_pathText (hne : segments ≠ []) (h : ∀ segment ∈ segments, CleanSegment segment)
    (hcolon : ColonLast segments) : Fixed (pathText segments) := by
  have hstrip := strip_pathText hne h
  have hsegments := segments_pathText h
  have hplain : (Text.partition ':' (pathText segments)).2.2 = [] → Fixed (pathText segments) := by
    intro hremainder
    have hnormal := normalize_of_not_prefixed hstrip hremainder (by rw [hsegments]; exact hne)
    rw [hsegments] at hnormal
    exact hnormal
  obtain hnone | ⟨before, word, after, hsame, hword, hbefore⟩ := hcolon.cases
  · apply hplain
    rw [Text.partition, if_neg (not_mem_pathText (by decide) hnone)]
  · have hcolonless : ':' ∉ pathText before ++ '/' :: word := by
      intro hmem
      cases List.mem_append.mp hmem with
      | inl hmem => exact not_mem_pathText (by decide) hbefore hmem
      | inr hmem =>
          cases List.mem_cons.mp hmem with
          | inl hslash => exact absurd hslash (by decide)
          | inr hmem => exact hword hmem
    have htext : pathText segments = (pathText before ++ '/' :: word) ++ ':' :: pathText after := by
      rw [hsame, pathText_append, pathText_cons]
      simp
    have hpartition := Text.partition_append hcolonless (pathText after)
    rw [← htext] at hpartition
    cases after with
    | nil =>
        apply hplain
        rw [hpartition]
        rfl
    | cons next after =>
        -- what is before the colon is taken for a tenant, and the rest is read on its own
        have hafter : ∀ segment ∈ next :: after, CleanSegment segment := by
          intro segment hmem
          exact h segment (hsame ▸ List.mem_append_right _ (List.mem_cons_of_mem _ hmem))
        have hprefixed : (Text.partition ':' (pathText segments)).1 ≠ [] ∧
            (Text.partition ':' (pathText segments)).2.2 ≠ [] := by
          rw [hpartition]
          exact ⟨List.append_ne_nil_of_right_ne_nil _ (List.cons_ne_nil _ _), List.cons_ne_nil _ _⟩
        have hrest : Text.strip (pathText (next :: after)) = pathText (next :: after) :=
          strip_pathText (List.cons_ne_nil _ _) hafter
        unfold Fixed normalizeOrganizationalGroupIdentifier
        dsimp only
        rw [hstrip, if_pos hprefixed, if_pos hprefixed, hpartition]
        dsimp only
        rw [hrest, segments_pathText hafter, if_neg (List.cons_ne_nil _ _),
          slash_intercalate (List.cons_ne_nil _ _), htext]
        simp

/-- A first segment is put below the root. -/
theorem normalize_segment (h : CleanSegment segment) (hcolon : ColonLast [segment]) :
    normalizeOrganizationalGroupIdentifier segment = pathText [segment] := by
  have hremainder : (Text.partition ':' segment).2.2 = [] := by
    by_cases hmem : ':' ∈ segment
    · rw [ColonLast, if_pos hmem] at hcolon
      exact hcolon
    · rw [Text.partition, if_neg hmem]
  have hsegments : ((Text.splitOn ['/'] segment).map Text.strip).filter (fun s => s ≠ []) =
      [segment] := by
    rw [Text.splitOn_of_not_mem h.slash, filter_strip (List.forall_mem_singleton.mpr h)]
  have hnormal := normalize_of_not_prefixed h.stripped hremainder
    (by rw [hsegments]; exact List.cons_ne_nil _ _)
  rw [hsegments] at hnormal
  exact hnormal

/-- A clean chain is walked as it is written. -/
theorem straight_of_clean {before : List Text}
    (h : ∀ segment ∈ before ++ rest, CleanSegment segment)
    (hcolon : ColonLast (before ++ rest)) : Straight (pathText before) rest := by
  induction rest generalizing before with
  | nil => trivial
  | cons segment rest ih =>
      have happend : before ++ segment :: rest = (before ++ [segment]) ++ rest :=
        List.append_cons _ _ _
      rw [happend] at h hcolon
      have hclean : ∀ s ∈ before ++ [segment], CleanSegment s :=
        fun s hmem => h s (List.mem_append_left _ hmem)
      have hfixed := fixed_pathText (List.append_ne_nil_of_right_ne_nil _ (List.cons_ne_nil _ _))
        hclean hcolon.of_append
      have hchild := childPath_pathText before segment
      refine ⟨?_, hchild ▸ hfixed, hchild ▸ ih h hcolon⟩
      rw [hchild]
      cases before with
      | nil =>
          exact normalize_segment (hclean segment List.mem_cons_self) hcolon.of_append
      | cons first before =>
          have hparent : pathText (first :: before) ≠ [] := List.cons_ne_nil _ _
          rw [underParent, if_neg hparent]
          have hsame : pathText (first :: before) ++ '/' :: segment =
              pathText (first :: before ++ [segment]) := hchild
          rw [hsame]
          exact hfixed

theorem CleanPath.clean {path : Text} (h : CleanPath path) :
    ∀ segment ∈ [] ++ chainOf path, CleanSegment segment := by
  intro segment hmem
  obtain ⟨hne, hstrip⟩ := h.segments segment hmem
  refine ⟨hne, hstrip, ?_⟩
  rw [List.nil_append, chainOf] at hmem
  split at hmem
  · cases hmem
  · exact Text.not_mem_of_mem_splitOn hmem

theorem CleanPath.straight {path : Text} (h : CleanPath path) : Straight [] (chainOf path) :=
  straight_of_clean h.clean h.colon

/-! ### Paths without a colon -/

/-- Slashes around a clean path are stripped with the one it starts with. -/
theorem stripSlash_pathText (h : ∀ s ∈ segment :: rest, CleanSegment s) :
    Text.stripWhere (· == '/') (pathText (segment :: rest)) = segment ++ pathText rest := by
  have hstrip : Text.stripWhere (· == '/') (segment ++ pathText rest) =
      segment ++ pathText rest := by
    apply Text.stripWhere_eq_self_of_ends
    · intro c hhead
      rw [List.head?_append_of_ne_nil _ (h segment List.mem_cons_self).ne_nil] at hhead
      have hmem := List.mem_of_head? hhead
      exact fun hslash => (h segment List.mem_cons_self).slash (beq_iff_eq.mp hslash ▸ hmem)
    · intro c hlast
      obtain ⟨before, last, hlastSegment⟩ :=
        (List.eq_nil_or_concat' (segment :: rest)).resolve_left (List.cons_ne_nil _ _)
      have hclean := h last (hlastSegment ▸ List.mem_append_right _ (List.mem_singleton_self _))
      have htext : '/' :: (segment ++ pathText rest) = (pathText before ++ ['/']) ++ last := by
        rw [← pathText_cons, hlastSegment, pathText_append, pathText_cons]
        simp [pathText]
      have hne : segment ++ pathText rest ≠ [] :=
        List.append_ne_nil_of_left_ne_nil (h segment List.mem_cons_self).ne_nil _
      have hsame : (segment ++ pathText rest).getLast? = last.getLast? := by
        rw [← List.getLast?_append_of_ne_nil (pathText before ++ ['/']) hclean.ne_nil, ← htext,
          List.getLast?_cons_of_ne_nil hne]
      rw [hsame] at hlast
      exact fun hslash => hclean.slash (beq_iff_eq.mp hslash ▸ List.mem_of_getLast? hlast)
  rw [pathText_cons, Text.stripWhere, List.dropWhile_cons_of_pos (by decide)]
  exact hstrip

theorem colonLast_of_not_mem (h : ∀ s ∈ segments, ':' ∉ s) : ColonLast segments := by
  induction segments with
  | nil => trivial
  | cons segment rest ih =>
      obtain ⟨hsegment, hrest⟩ := List.forall_mem_cons.mp h
      rw [ColonLast, if_neg hsegment]
      exact ih hrest

/-- The chain of a path that has its segments in the canonical form. -/
theorem chainOf_eq {path : Text} (h : ∀ s ∈ segments, CleanSegment s)
    (hpath : normalizeOrganizationalGroupIdentifier path = pathText segments) :
    chainOf path = segments := by
  unfold chainOf
  rw [hpath]
  cases segments with
  | nil => rfl
  | cons segment rest =>
      obtain ⟨hsegment, hrest⟩ := List.forall_mem_cons.mp h
      have hne : pathText (segment :: rest) ≠ [] := List.cons_ne_nil _ _
      dsimp only
      rw [if_neg hne, stripSlash_pathText h, splitOn_append_pathText hsegment.slash hrest]

theorem cleanPath_of_no_colon {path : Text} (h : ':' ∉ path) : CleanPath path := by
  have hcolon : ':' ∉ path.strip := fun hmem => h ((Text.stripWhere_isInfix path).subset hmem)
  have hpartition : Text.partition ':' path.strip = (path.strip, false, []) := if_neg hcolon
  let segments := ((Text.splitOn ['/'] path.strip).map Text.strip).filter fun s => s ≠ []
  have hclean : ∀ s ∈ segments, CleanSegment s ∧ ':' ∉ s := by
    intro s hmem
    obtain ⟨hmap, hne⟩ := List.mem_filter.mp hmem
    obtain ⟨part, hpart, hstrip⟩ := List.mem_map.mp hmap
    have hpiece : s <:+: part := hstrip ▸ Text.stripWhere_isInfix part
    refine ⟨⟨of_decide_eq_true hne, ?_, ?_⟩, ?_⟩
    · rw [← hstrip, Text.strip_strip]
    · exact fun hslash => Text.not_mem_of_mem_splitOn hpart (hpiece.subset hslash)
    · have hpart := Text.infix_of_mem_splitOn (List.cons_ne_nil _ _) hpart
      exact fun hmem => hcolon ((hpiece.trans hpart).subset hmem)
  have hnormal : normalizeOrganizationalGroupIdentifier path = pathText segments := by
    have hprefixed : ¬ (path.strip ≠ [] ∧ ([] : Text) ≠ []) := fun hboth => hboth.2 rfl
    unfold normalizeOrganizationalGroupIdentifier
    dsimp only
    rw [hpartition]
    dsimp only
    rw [if_neg hprefixed, if_neg hprefixed, List.nil_append]
    change (if segments = [] then [] else '/' :: ['/'].intercalate segments) = pathText segments
    split
    · rename_i hnil
      rw [hnil]
      rfl
    · rename_i hne
      exact slash_intercalate hne
  have hchain := chainOf_eq (fun s hmem => (hclean s hmem).1) hnormal
  constructor
  · rw [hchain]
    exact fun s hmem => ⟨(hclean s hmem).1.ne_nil, (hclean s hmem).1.stripped⟩
  · rw [hchain]
    exact colonLast_of_not_mem fun s hmem => (hclean s hmem).2

end Clean

end M8flow.Keycloak
