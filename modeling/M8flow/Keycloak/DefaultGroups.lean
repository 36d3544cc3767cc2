import M8flow.Keycloak.GroupPaths
import Mathlib.Algebra.Ring.Nat
import Mathlib.Data.Set.Insert

/-!
# The default groups of a realm

What `_merge_default_organizational_groups` makes of a group tree.  A default path is a
chain of segments.  `Grown` says, level by level, what a tree has become when chains
are merged into it: an item that no chain goes through is what it was, the first
group of a chain's segment is adopted, and what is left of the chains gets new groups
at the end.

- `Grown.merge`: merging one more chain grows the tree by it.
- `Grown.merge_eq`: merging a chain again changes nothing.
- `Grown.places_eq_one`: every chain has one place where no siblings share a path.
- `Grown.alike`: what has grown is determined up to the order of siblings.
-/

namespace M8flow.Keycloak

open M8flow.Lib M8flow.Lib.Json

/-! ## A tree and the chains merged into it -/

/-- What is left of the chains that go through a segment. -/
def Through (segment : Text) (chains : Set (List Text)) : Set (List Text) :=
  {rest | segment :: rest ∈ chains}

/-- The chains that do not go through it. -/
def Beside (segment : Text) (chains : Set (List Text)) : Set (List Text) :=
  {chain | chain ∈ chains ∧ ∀ rest, chain ≠ segment :: rest}

/-- What the groups of a level have become when the chains are merged into it. -/
inductive Grown : Text → Set (List Text) → List Json → List Json → Prop where
  | done {parentPath chains} (h : ∀ chain ∈ chains, chain = []) : Grown parentPath chains [] []
  | new {parentPath chains segment below later} (hmem : ∃ rest, segment :: rest ∈ chains)
      (hfixed : Fixed (childPath parentPath segment))
      (hbelow : Grown (childPath parentPath segment) (Through segment chains) [] below)
      (hlater : Grown parentPath (Beside segment chains) [] later) :
      Grown parentPath chains []
        (newGroup segment (childPath parentPath segment) (fun _ => below) :: later)
  | untouched {parentPath chains item items items'}
      (h : ∀ segment rest, segment :: rest ∈ chains →
        isGroupAt parentPath (childPath parentPath segment) item = false)
      (hlater : Grown parentPath chains items items') :
      Grown parentPath chains (item :: items) (item :: items')
  | adopted {parentPath chains segment group below items items'}
      (hmem : ∃ rest, segment :: rest ∈ chains)
      (hfixed : Fixed (childPath parentPath segment))
      (hgroup : isGroupAt parentPath (childPath parentPath segment) (.obj group) = true)
      (hbelow : Grown (childPath parentPath segment) (Through segment chains)
        (subGroupsOf group) below)
      (hlater : Grown parentPath (Beside segment chains) items items') :
      Grown parentPath chains (.obj group :: items)
        (.obj (adoptGroup segment (childPath parentPath segment) (fun _ => below) group) :: items')

section Chains

variable {segment other : Text} {rest : List Text} {chains : Set (List Text)}

theorem through_insert_self :
    Through segment (insert (segment :: rest) chains) = insert rest (Through segment chains) := by
  ext chain
  constructor
  · intro h
    cases h with
    | inl h => exact .inl (List.cons.inj h).2
    | inr h => exact .inr h
  · intro h
    cases h with
    | inl h => exact .inl (congrArg _ h)
    | inr h => exact .inr h

theorem through_insert_of_ne {chain : List Text} (h : ∀ tail, chain ≠ segment :: tail) :
    Through segment (insert chain chains) = Through segment chains := by
  ext tail
  constructor
  · intro hmem
    cases hmem with
    | inl hsame => exact absurd hsame.symm (h tail)
    | inr hmem => exact hmem
  · exact .inr

theorem beside_insert_self :
    Beside segment (insert (segment :: rest) chains) = Beside segment chains := by
  ext chain
  constructor
  · intro h
    obtain ⟨hmem, hne⟩ := h
    cases hmem with
    | inl hsame => exact absurd hsame (hne rest)
    | inr hmem => exact ⟨hmem, hne⟩
  · exact fun h => ⟨.inr h.1, h.2⟩

theorem beside_insert_of_ne {chain : List Text} (h : ∀ tail, chain ≠ segment :: tail) :
    Beside segment (insert chain chains) = insert chain (Beside segment chains) := by
  ext tail
  constructor
  · intro hmem
    obtain ⟨hmem, hne⟩ := hmem
    cases hmem with
    | inl hsame => exact .inl hsame
    | inr hmem => exact .inr ⟨hmem, hne⟩
  · intro hmem
    cases hmem with
    | inl hsame => exact ⟨.inl hsame, fun other => hsame ▸ h other⟩
    | inr hmem => exact ⟨.inr hmem.1, hmem.2⟩

theorem through_beside (h : segment ≠ other) :
    Through segment (Beside other chains) = Through segment chains := by
  ext tail
  constructor
  · exact fun hmem => hmem.1
  · exact fun hmem => ⟨hmem, fun _ hsame => h (List.cons.inj hsame).1⟩

theorem beside_comm :
    Beside segment (Beside other chains) = Beside other (Beside segment chains) := by
  ext chain
  constructor
  · exact fun h => ⟨⟨h.1.1, h.2⟩, h.1.2⟩
  · exact fun h => ⟨⟨h.1.1, h.2⟩, h.1.2⟩

/-- Where no chain goes through a segment all are beside it. -/
theorem beside_eq_self (h : ∀ tail, segment :: tail ∉ chains) : Beside segment chains = chains := by
  ext chain
  constructor
  · exact fun hmem => hmem.1
  · intro hmem
    exact ⟨hmem, fun tail hsame => h tail (hsame ▸ hmem)⟩

end Chains

/-! ## Groups that are new or adopted -/

section Groups

variable {parentPath path segment candidatePath : Text} {below : List Json → List Json}
  {group fields : Fields}

theorem field_setDefault_self (fields : Fields) (key : Text) (value : Json) :
    field (setDefault fields key value) key = some ((field fields key).getD value) := by
  unfold setDefault
  split
  · rename_i old hold
    rw [hold, Option.getD_some]
  · rename_i hnone
    rw [field_set, if_pos rfl, hnone, Option.getD_none]

theorem setDefault_of_some {key : Text} {old : Json} (h : field fields key = some old)
    (value : Json) : setDefault fields key value = fields := by
  unfold setDefault
  rw [h]

theorem set_set (fields : Fields) (key : Text) (old value : Json) :
    set (set fields key old) key value = set fields key value := by
  by_cases hany : (fields.any fun entry => entry.1 = key) = true
  · have hagain : ((fields.map fun entry => if entry.1 = key then (key, old) else entry).any
        fun entry => entry.1 = key) = true := by
      obtain ⟨entry, hentry, hkey⟩ := List.any_eq_true.mp hany
      refine List.any_eq_true.mpr ⟨_, List.mem_map_of_mem hentry, ?_⟩
      rw [if_pos (of_decide_eq_true hkey)]
      exact decide_eq_true rfl
    unfold Json.set
    rw [if_pos hany, if_pos hany, if_pos hagain, List.map_map]
    apply List.map_congr_left
    intro entry _
    by_cases hkey : entry.1 = key
    · simp [hkey]
    · simp [hkey]
  · have hagain : ((fields ++ [(key, old)]).any fun entry => entry.1 = key) = true := by
      rw [List.any_append, Bool.or_eq_true]
      exact .inr (by simp)
    have hsame : (fields.map fun entry => if entry.1 = key then (key, value) else entry) =
        fields := by
      refine (List.map_congr_left ?_).trans (List.map_id _)
      intro entry hentry
      rw [if_neg fun hkey => hany (List.any_eq_true.mpr ⟨entry, hentry, decide_eq_true hkey⟩)]
      rfl
    unfold Json.set
    rw [if_neg hany, if_neg hany, if_pos hagain, List.map_append, hsame]
    simp

/-- A group with its name and its path, before the groups below it are set. -/
def named (segment candidatePath : Text) (group : Fields) : Fields :=
  setDefault (setDefault group "name".toList (.str segment)) "path".toList (.str candidatePath)

theorem field_named {key : Text} (hname : key ≠ "name".toList) (hpath : key ≠ "path".toList) :
    field (named segment candidatePath group) key = field group key := by
  rw [named, field_setDefault (Ne.symm hpath), field_setDefault (Ne.symm hname)]

theorem field_named_name :
    field (named segment candidatePath group) "name".toList =
      some ((field group "name".toList).getD (.str segment)) := by
  rw [named, field_setDefault (by decide), field_setDefault_self]

theorem field_named_path :
    field (named segment candidatePath group) "path".toList =
      some ((field group "path".toList).getD (.str candidatePath)) := by
  rw [named, field_setDefault_self, field_setDefault (by decide)]

theorem subGroupsOf_named :
    subGroupsOf (named segment candidatePath group) = subGroupsOf group := by
  rw [subGroupsOf, field_named (by decide) (by decide), subGroupsOf]

theorem adoptGroup_eq :
    adoptGroup segment candidatePath below group =
      set (named segment candidatePath group) "subGroups".toList
        (.arr (below (subGroupsOf group))) := by
  have hsub : subGroupsOf (named segment candidatePath group) = subGroupsOf group :=
    subGroupsOf_named
  rw [← hsub]
  rfl

/-- Only the groups below it at the time matter. -/
theorem adoptGroup_const :
    adoptGroup segment candidatePath below group =
      adoptGroup segment candidatePath (fun _ => below (subGroupsOf group)) group := by
  rw [adoptGroup_eq, adoptGroup_eq]

@[simp] theorem subGroupsOf_adoptGroup :
    subGroupsOf (adoptGroup segment candidatePath below group) = below (subGroupsOf group) := by
  rw [adoptGroup_eq, subGroupsOf, field_set, if_pos rfl]
  rfl

theorem field_adoptGroup {key : Text} (h : key ≠ "subGroups".toList) :
    field (adoptGroup segment candidatePath below group) key =
      field (named segment candidatePath group) key := by
  rw [adoptGroup_eq, field_set, if_neg (Ne.symm h)]

/-- A group that was adopted is only given other groups below it. -/
theorem adoptGroup_adoptGroup (other otherPath : Text) (more : List Json → List Json) :
    adoptGroup other otherPath more (adoptGroup segment candidatePath below group) =
      adoptGroup segment candidatePath (fun groups => more (below groups)) group := by
  have hname : field (adoptGroup segment candidatePath below group) "name".toList =
      some ((field group "name".toList).getD (.str segment)) := by
    rw [field_adoptGroup (by decide)]
    exact field_named_name
  have hpath : field (adoptGroup segment candidatePath below group) "path".toList =
      some ((field group "path".toList).getD (.str candidatePath)) := by
    rw [field_adoptGroup (by decide)]
    exact field_named_path
  have hsame : named other otherPath (adoptGroup segment candidatePath below group) =
      adoptGroup segment candidatePath below group := by
    rw [named, setDefault_of_some hname, setDefault_of_some hpath]
  rw [adoptGroup_eq, hsame, subGroupsOf_adoptGroup, adoptGroup_eq, set_set, adoptGroup_eq]

/-- So is one that was added. -/
theorem adoptGroup_newGroup (other otherPath : Text) (more : List Json → List Json) :
    .obj (adoptGroup other otherPath more (newGroup segment candidatePath below).fields) =
      newGroup segment candidatePath (fun groups => more (below groups)) := by
  have hnew : (newGroup segment candidatePath below).fields =
      adoptGroup segment candidatePath below [] := rfl
  rw [hnew, adoptGroup_adoptGroup]
  rfl

theorem isGroupAt_newGroup (hblank : candidatePath.strip ≠ []) :
    isGroupAt parentPath path (newGroup segment candidatePath below) =
      decide (normalizeOrganizationalGroupIdentifier candidatePath = path) := by
  have hwritten : writtenText (newGroup segment candidatePath below).fields "path".toList =
      some candidatePath := by
    have hfield : field (newGroup segment candidatePath below).fields "path".toList =
        some (.str candidatePath) := rfl
    rw [writtenText, hfield]
    simp [hblank]
  show decide (normalizedKeycloakGroupPath (newGroup segment candidatePath below).fields
    parentPath = path) = _
  rw [normalizedKeycloakGroupPath, hwritten]

/-- A group's path is the same after it was adopted. -/
theorem path_adoptGroup (hfixed : Fixed candidatePath) (hne : candidatePath ≠ [])
    (h : normalizedKeycloakGroupPath group parentPath = candidatePath) :
    normalizedKeycloakGroupPath (adoptGroup segment candidatePath below group) parentPath =
      candidatePath := by
  have hname : ∀ name, writtenText group "name".toList = some name →
      writtenText (adoptGroup segment candidatePath below group) "name".toList = some name := by
    intro name hwritten
    rw [writtenText, field_adoptGroup (by decide), field_named_name]
    rw [writtenText] at hwritten
    cases hfield : field group "name".toList with
    | none =>
        rw [hfield] at hwritten
        cases hwritten
    | some value =>
        rw [hfield] at hwritten
        exact hwritten
  unfold normalizedKeycloakGroupPath at h ⊢
  rw [writtenText, field_adoptGroup (by decide), field_named_path]
  cases hfield : field group "path".toList with
  | none =>
      have hfilter : ((some (Json.str candidatePath)).bind asText).filter (fun s => s.strip ≠ []) =
          some candidatePath := by
        simp [hfixed.strip_ne_nil hne]
      rw [Option.getD_none, hfilter]
      exact hfixed
  | some value =>
      rw [writtenText, hfield] at h
      rw [Option.getD_some]
      cases hpath : ((some value).bind asText).filter (fun s => s.strip ≠ []) with
      | some path =>
          rw [hpath] at h
          exact h
      | none =>
          rw [hpath] at h
          dsimp only at h ⊢
          cases hwritten : writtenText group "name".toList with
          | none =>
              rw [hwritten] at h
              exact absurd h.symm hne
          | some name =>
              rw [hwritten] at h
              rw [hname name hwritten]
              exact h

theorem isGroupAt_adoptGroup (hfixed : Fixed candidatePath) (hne : candidatePath ≠ [])
    (h : isGroupAt parentPath candidatePath (.obj group) = true) :
    isGroupAt parentPath path (.obj (adoptGroup segment candidatePath below group)) =
      decide (candidatePath = path) := by
  show decide (normalizedKeycloakGroupPath _ _ = _) = _
  rw [path_adoptGroup hfixed hne (of_decide_eq_true h)]

/-- An item is at one path at most. -/
theorem isGroupAt_unique {item : Json} {other : Text} (h : isGroupAt parentPath path item = true)
    (hother : isGroupAt parentPath other item = true) : path = other := by
  cases item with
  | obj group => exact (of_decide_eq_true h).symm.trans (of_decide_eq_true hother)
  | _ => cases h

end Groups

/-! ## Merging one chain -/

section Merge

variable {parentPath : Text} {chains : Set (List Text)} {items items' : List Json}

/-- A tree that no chain is left for is what it was. -/
theorem Grown.refl (h : ∀ chain ∈ chains, chain = []) (items : List Json) :
    Grown parentPath chains items items := by
  induction items with
  | nil => exact .done h
  | cons item items ih =>
      refine .untouched ?_ ih
      intro segment rest hmem
      cases h _ hmem

theorem Grown.insert_nil (h : Grown parentPath chains items items') :
    Grown parentPath (insert [] chains) items items' := by
  have hnil : ∀ segment : Text, ∀ tail, [] ≠ segment :: tail :=
    fun _ _ => (List.cons_ne_nil _ _).symm
  induction h with
  | done h =>
      refine .done fun chain hmem => ?_
      cases hmem with
      | inl hsame => exact hsame
      | inr hmem => exact h chain hmem
  | new hmem hfixed hbelow _ _ ihlater =>
      obtain ⟨rest, hrest⟩ := hmem
      refine .new ⟨rest, .inr hrest⟩ hfixed ?_ ?_
      · rw [through_insert_of_ne (hnil _)]
        exact hbelow
      · rw [beside_insert_of_ne (hnil _)]
        exact ihlater
  | untouched h _ ih =>
      refine .untouched ?_ ih
      intro segment rest hmem
      cases hmem with
      | inl hsame => cases hsame
      | inr hmem => exact h segment rest hmem
  | adopted hmem hfixed hgroup hbelow _ _ ihlater =>
      obtain ⟨rest, hrest⟩ := hmem
      refine .adopted ⟨rest, .inr hrest⟩ hfixed hgroup ?_ ?_
      · rw [through_insert_of_ne (hnil _)]
        exact hbelow
      · rw [beside_insert_of_ne (hnil _)]
        exact ihlater

section Step

variable {segment : Text} {rest : List Text}

theorem mergeSegments_nil (h : Straight parentPath (segment :: rest)) :
    mergeSegments parentPath (segment :: rest) [] =
      [newGroup segment (childPath parentPath segment)
        (mergeSegments (childPath parentPath segment) rest)] := by
  rw [mergeSegments, h.1, updateFirst]

/-- The group of the first segment is adopted. -/
theorem mergeSegments_cons_of_at (h : Straight parentPath (segment :: rest)) {item : Json}
    (hitem : isGroupAt parentPath (childPath parentPath segment) item = true) :
    mergeSegments parentPath (segment :: rest) (item :: items) =
      .obj (adoptGroup segment (childPath parentPath segment)
        (mergeSegments (childPath parentPath segment) rest) item.fields) :: items := by
  rw [mergeSegments, h.1, updateFirst, if_pos hitem]

/-- Any other item is passed. -/
theorem mergeSegments_cons_of_not (h : Straight parentPath (segment :: rest)) {item : Json}
    (hitem : isGroupAt parentPath (childPath parentPath segment) item = false) :
    mergeSegments parentPath (segment :: rest) (item :: items) =
      item :: mergeSegments parentPath (segment :: rest) items := by
  rw [mergeSegments, mergeSegments, h.1, updateFirst, if_neg (Bool.eq_false_iff.mp hitem)]

end Step

section At

variable {segment other : Text} {b : List Json → List Json} {group : Fields}

/-- The new group of a segment is at the segment's path alone. -/
theorem isGroupAt_new_self (hfixed : Fixed (childPath parentPath segment)) :
    isGroupAt parentPath (childPath parentPath segment)
      (newGroup segment (childPath parentPath segment) b) = true := by
  rw [isGroupAt_newGroup (hfixed.strip_ne_nil (childPath_ne_nil _ _)), hfixed]
  exact decide_eq_true rfl

theorem isGroupAt_new_of_ne (hfixed : Fixed (childPath parentPath segment))
    (hne : segment ≠ other) :
    isGroupAt parentPath (childPath parentPath other)
      (newGroup segment (childPath parentPath segment) b) = false := by
  rw [isGroupAt_newGroup (hfixed.strip_ne_nil (childPath_ne_nil _ _)), hfixed]
  exact decide_eq_false fun h => hne (childPath_inj h)

/-- So is an adopted one. -/
theorem isGroupAt_adopted_self (hfixed : Fixed (childPath parentPath segment))
    (hgroup : isGroupAt parentPath (childPath parentPath segment) (.obj group) = true) :
    isGroupAt parentPath (childPath parentPath segment)
      (.obj (adoptGroup segment (childPath parentPath segment) b group)) = true := by
  rw [isGroupAt_adoptGroup hfixed (childPath_ne_nil _ _) hgroup]
  exact decide_eq_true rfl

theorem isGroupAt_adopted_of_ne (hfixed : Fixed (childPath parentPath segment))
    (hgroup : isGroupAt parentPath (childPath parentPath segment) (.obj group) = true)
    (hne : segment ≠ other) :
    isGroupAt parentPath (childPath parentPath other)
      (.obj (adoptGroup segment (childPath parentPath segment) b group)) = false := by
  rw [isGroupAt_adoptGroup hfixed (childPath_ne_nil _ _) hgroup]
  exact decide_eq_false fun h => hne (childPath_inj h)

end At

/-- Merging one more chain grows a tree by it. -/
theorem Grown.merge {chain : List Text} (h : Grown parentPath chains items items')
    (hstraight : Straight parentPath chain) :
    Grown parentPath (insert chain chains) items (mergeSegments parentPath chain items') := by
  induction chain generalizing parentPath chains items items' with
  | nil =>
      rw [mergeSegments]
      exact h.insert_nil
  | cons segment rest ihchain =>
      -- the walk passes the items of the level until it finds the group of the segment
      induction h with
      | done hdone =>
          rw [mergeSegments_nil hstraight]
          have hnone : ∀ tail, ¬ segment :: tail ∈ _ := fun tail hmem => by cases hdone _ hmem
          refine .new ⟨rest, Set.mem_insert _ _⟩ hstraight.2.1 ?_ ?_
          · rw [through_insert_self]
            refine ihchain (Grown.refl ?_ []) hstraight.2.2
            intro tail hmem
            exact absurd hmem (hnone tail)
          · rw [beside_insert_self]
            exact .done fun chain hmem => hdone chain hmem.1
      | @new parentPath chains other below later hmem hfixed hbelow hlater _ ihlater =>
          obtain ⟨otherRest, hother⟩ := hmem
          by_cases hsame : other = segment
          · subst hsame
            have hat := isGroupAt_new_self (b := fun _ => below) hfixed
            rw [mergeSegments_cons_of_at hstraight hat, adoptGroup_newGroup]
            refine .new ⟨rest, Set.mem_insert _ _⟩ hfixed ?_ ?_
            · rw [through_insert_self]
              exact ihchain hbelow hstraight.2.2
            · rw [beside_insert_self]
              exact hlater
          · have hnot := isGroupAt_new_of_ne (b := fun _ => below) hfixed hsame
            have hne : ∀ tail, segment :: rest ≠ other :: tail :=
              fun tail h => hsame (List.cons.inj h).1.symm
            rw [mergeSegments_cons_of_not hstraight hnot]
            refine .new ⟨otherRest, Set.mem_insert_of_mem _ hother⟩ hfixed ?_ ?_
            · rw [through_insert_of_ne hne]
              exact hbelow
            · rw [beside_insert_of_ne hne]
              exact ihlater hstraight
      | @untouched parentPath chains item items items' hitem hlater ihlater =>
          by_cases hat : isGroupAt parentPath (childPath parentPath segment) item = true
          · have hnone : ∀ tail, segment :: tail ∉ chains := by
              intro tail hmem
              rw [hitem segment tail hmem] at hat
              cases hat
            cases item with
            | obj group =>
                rw [mergeSegments_cons_of_at hstraight hat, adoptGroup_const]
                refine .adopted ⟨rest, Set.mem_insert _ _⟩ hstraight.2.1 hat ?_ ?_
                · rw [through_insert_self]
                  exact ihchain (Grown.refl (fun tail hmem => absurd hmem (hnone tail)) _)
                    hstraight.2.2
                · rw [beside_insert_self, beside_eq_self hnone]
                  exact hlater
            | _ => cases hat
          · have hnot := Bool.eq_false_iff.mpr hat
            rw [mergeSegments_cons_of_not hstraight hnot]
            refine .untouched ?_ (ihlater hstraight)
            intro other tail hmem
            cases hmem with
            | inl hsame =>
                rw [(List.cons.inj hsame).1]
                exact hnot
            | inr hmem => exact hitem other tail hmem
      | @adopted parentPath chains other group below items items' hmem hfixed hgroup hbelow hlater _
          ihlater =>
          obtain ⟨otherRest, hother⟩ := hmem
          by_cases hsame : other = segment
          · subst hsame
            have hat := isGroupAt_adopted_self (b := fun _ => below) hfixed hgroup
            rw [mergeSegments_cons_of_at hstraight hat, Json.fields, adoptGroup_adoptGroup]
            refine .adopted ⟨rest, Set.mem_insert _ _⟩ hfixed hgroup ?_ ?_
            · rw [through_insert_self]
              exact ihchain hbelow hstraight.2.2
            · rw [beside_insert_self]
              exact hlater
          · have hnot := isGroupAt_adopted_of_ne (b := fun _ => below) hfixed hgroup hsame
            have hne : ∀ tail, segment :: rest ≠ other :: tail :=
              fun tail h => hsame (List.cons.inj h).1.symm
            rw [mergeSegments_cons_of_not hstraight hnot]
            refine .adopted ⟨otherRest, Set.mem_insert_of_mem _ hother⟩ hfixed hgroup ?_ ?_
            · rw [through_insert_of_ne hne]
              exact hbelow
            · rw [beside_insert_of_ne hne]
              exact ihlater hstraight

/-- Merging a chain again changes nothing. -/
theorem Grown.merge_eq {chain : List Text} (h : Grown parentPath chains items items')
    (hmem : chain ∈ chains) (hstraight : Straight parentPath chain) :
    mergeSegments parentPath chain items' = items' := by
  induction h generalizing chain with
  | done h =>
      rw [h chain hmem, mergeSegments]
  | @new parentPath chains other below later _ hfixed _ _ ihbelow ihlater =>
      cases chain with
      | nil => rw [mergeSegments]
      | cons segment rest =>
          by_cases hsame : other = segment
          · subst hsame
            have hat := isGroupAt_new_self (b := fun _ => below) hfixed
            rw [mergeSegments_cons_of_at hstraight hat, adoptGroup_newGroup,
              ihbelow hmem hstraight.2.2]
          · have hnot := isGroupAt_new_of_ne (b := fun _ => below) hfixed hsame
            rw [mergeSegments_cons_of_not hstraight hnot,
              ihlater ⟨hmem, fun _ h => hsame (List.cons.inj h).1.symm⟩ hstraight]
  | @untouched parentPath chains item items items' hitem _ ih =>
      cases chain with
      | nil => rw [mergeSegments]
      | cons segment rest =>
          rw [mergeSegments_cons_of_not hstraight (hitem segment rest hmem), ih hmem hstraight]
  | @adopted parentPath chains other group below items items' _ hfixed hgroup _ _ ihbelow ihlater =>
      cases chain with
      | nil => rw [mergeSegments]
      | cons segment rest =>
          by_cases hsame : other = segment
          · subst hsame
            have hat := isGroupAt_adopted_self (b := fun _ => below) hfixed hgroup
            rw [mergeSegments_cons_of_at hstraight hat, Json.fields, adoptGroup_adoptGroup,
              ihbelow hmem hstraight.2.2]
          · have hnot := isGroupAt_adopted_of_ne (b := fun _ => below) hfixed hgroup hsame
            rw [mergeSegments_cons_of_not hstraight hnot,
              ihlater ⟨hmem, fun _ h => hsame (List.cons.inj h).1.symm⟩ hstraight]

end Merge

/-! ## One place for each chain -/

section Places

variable {parentPath : Text} {chains : Set (List Text)} {items items' : List Json}

/-- The ways down a tree along a chain. -/
def places : (parentPath : Text) → List Text → List Json → Nat
  | _, [], _ => 1
  | parentPath, segment :: rest, groups =>
      (groups.map fun item =>
        if isGroupAt parentPath (childPath parentPath segment) item then
          places (childPath parentPath segment) rest (subGroupsOf item.fields)
        else 0).sum

/-- The levels of a tree, each with the path of the group above it. -/
inductive Level : Text → List Json → Text → List Json → Prop where
  | here {parentPath groups} : Level parentPath groups parentPath groups
  | under {parentPath groups group path level} (hmem : Json.obj group ∈ groups)
      (h : Level (normalizedKeycloakGroupPath group parentPath) (subGroupsOf group) path level) :
      Level parentPath groups path level

/-- Two items of a level are not at one path. -/
def Apart (parentPath : Text) (item other : Json) : Prop :=
  ∀ path ≠ [], isGroupAt parentPath path item = true → isGroupAt parentPath path other = false

/-- No siblings of the tree share a path. -/
def NoShared (parentPath : Text) (groups : List Json) : Prop :=
  ∀ path level, Level parentPath groups path level → level.Pairwise (Apart path)

theorem NoShared.tail {item : Json} (h : NoShared parentPath (item :: items)) :
    NoShared parentPath items := by
  intro path level hlevel
  cases hlevel with
  | here => exact (List.pairwise_cons.mp (h _ _ .here)).2
  | under hmem hlevel => exact h path level (.under (List.mem_cons_of_mem _ hmem) hlevel)

theorem NoShared.below {path : Text} {group : Fields}
    (h : NoShared parentPath (.obj group :: items))
    (hgroup : isGroupAt parentPath path (.obj group) = true) :
    NoShared path (subGroupsOf group) := by
  intro other level hlevel
  rw [← of_decide_eq_true hgroup] at hlevel
  exact h other level (.under List.mem_cons_self hlevel)

theorem noShared_nil (parentPath : Text) : NoShared parentPath [] := by
  intro path level hlevel
  cases hlevel with
  | here => exact .nil
  | under hmem _ => cases hmem

section Sum

variable {segment : Text} {rest : List Text} {item : Json}

theorem places_cons_of_at
    (h : isGroupAt parentPath (childPath parentPath segment) item = true) :
    places parentPath (segment :: rest) (item :: items) =
      places (childPath parentPath segment) rest (subGroupsOf item.fields) +
        places parentPath (segment :: rest) items := by
  rw [places, places, List.map_cons, List.sum_cons, if_pos h]

theorem places_cons_of_not
    (h : isGroupAt parentPath (childPath parentPath segment) item = false) :
    places parentPath (segment :: rest) (item :: items) =
      places parentPath (segment :: rest) items := by
  rw [places, places, List.map_cons, List.sum_cons, if_neg (Bool.eq_false_iff.mp h), Nat.zero_add]

/-- Without a group of the first segment there is no way down. -/
theorem places_eq_zero
    (h : ∀ item ∈ items, isGroupAt parentPath (childPath parentPath segment) item = false) :
    places parentPath (segment :: rest) items = 0 := by
  induction items with
  | nil => rfl
  | cons item items ih =>
      obtain ⟨hitem, hitems⟩ := List.forall_mem_cons.mp h
      rw [places_cons_of_not hitem, ih hitems]

end Sum

/-- A path of a grown level is that of an item that was there or of a chain's segment. -/
theorem Grown.at_path {segment : Text} (h : Grown parentPath chains items items') {item' : Json}
    (hmem : item' ∈ items')
    (hat : isGroupAt parentPath (childPath parentPath segment) item' = true) :
    (∃ item ∈ items, isGroupAt parentPath (childPath parentPath segment) item = true) ∨
      ∃ rest, segment :: rest ∈ chains := by
  induction h with
  | done _ => cases hmem
  | @new parentPath chains other below later hchain hfixed _ _ _ ihlater =>
      cases List.mem_cons.mp hmem with
      | inl hfirst =>
          by_cases hsame : other = segment
          · subst hsame
            exact .inr hchain
          · rw [hfirst, isGroupAt_new_of_ne hfixed hsame] at hat
            cases hat
      | inr hlater =>
          cases ihlater hlater hat with
          | inl hold =>
              obtain ⟨item, hitem, -⟩ := hold
              cases hitem
          | inr hnew =>
              obtain ⟨rest, hrest⟩ := hnew
              exact .inr ⟨rest, hrest.1⟩
  | @untouched parentPath chains item items items' _ _ ih =>
      cases List.mem_cons.mp hmem with
      | inl hfirst =>
          rw [hfirst] at hat
          exact .inl ⟨item, List.mem_cons_self, hat⟩
      | inr hlater =>
          refine (ih hlater hat).imp_left fun hold => ?_
          obtain ⟨old, hold, hpath⟩ := hold
          exact ⟨old, List.mem_cons_of_mem _ hold, hpath⟩
  | @adopted parentPath chains other group below items items' hchain hfixed hgroup _ _ _ ihlater =>
      cases List.mem_cons.mp hmem with
      | inl hfirst =>
          by_cases hsame : other = segment
          · subst hsame
            exact .inr hchain
          · rw [hfirst, isGroupAt_adopted_of_ne hfixed hgroup hsame] at hat
            cases hat
      | inr hlater =>
          cases ihlater hlater hat with
          | inl hold =>
              obtain ⟨old, hold, hpath⟩ := hold
              exact .inl ⟨old, List.mem_cons_of_mem _ hold, hpath⟩
          | inr hnew =>
              obtain ⟨rest, hrest⟩ := hnew
              exact .inr ⟨rest, hrest.1⟩

/-- Every chain has one place in what has grown, where no siblings shared a path. -/
theorem Grown.places_eq_one {chain : List Text} (h : Grown parentPath chains items items')
    (hshared : NoShared parentPath items) (hmem : chain ∈ chains) :
    places parentPath chain items' = 1 := by
  induction h generalizing chain with
  | done h =>
      rw [h chain hmem]
      rfl
  | @new parentPath chains other below later _ hfixed _ hlater ihbelow ihlater =>
      cases chain with
      | nil => rfl
      | cons segment rest =>
          by_cases hsame : other = segment
          · subst hsame
            have hnone : ∀ item ∈ later,
                isGroupAt parentPath (childPath parentPath other) item = false := by
              intro item hitem
              by_contra hat
              cases hlater.at_path hitem (Bool.not_eq_false _ ▸ hat) with
              | inl hold =>
                  obtain ⟨old, hold, -⟩ := hold
                  cases hold
              | inr hnew =>
                  obtain ⟨tail, htail⟩ := hnew
                  exact htail.2 tail rfl
            have hbelow := ihbelow (noShared_nil _) hmem
            rw [places_cons_of_at (isGroupAt_new_self hfixed), places_eq_zero hnone]
            exact hbelow
          · rw [places_cons_of_not (isGroupAt_new_of_ne hfixed hsame)]
            exact ihlater hshared ⟨hmem, fun _ h => hsame (List.cons.inj h).1.symm⟩
  | @untouched parentPath chains item items items' hitem _ ih =>
      cases chain with
      | nil => rfl
      | cons segment rest =>
          rw [places_cons_of_not (hitem segment rest hmem)]
          exact ih hshared.tail hmem
  | @adopted parentPath chains other group below items items' _ hfixed hgroup _ hlater ihbelow
      ihlater =>
      cases chain with
      | nil => rfl
      | cons segment rest =>
          by_cases hsame : other = segment
          · subst hsame
            have hnone : ∀ item ∈ items',
                isGroupAt parentPath (childPath parentPath other) item = false := by
              intro item hitem
              by_contra hat
              cases hlater.at_path hitem (Bool.not_eq_false _ ▸ hat) with
              | inl hold =>
                  obtain ⟨old, hold, hpath⟩ := hold
                  have hapart := (List.pairwise_cons.mp (hshared _ _ .here)).1 old hold
                  rw [hapart _ (childPath_ne_nil _ _) hgroup] at hpath
                  cases hpath
              | inr hnew =>
                  obtain ⟨tail, htail⟩ := hnew
                  exact htail.2 tail rfl
            have hbelow := ihbelow (hshared.below hgroup) hmem
            rw [places_cons_of_at (isGroupAt_adopted_self hfixed hgroup), places_eq_zero hnone,
              Json.fields, subGroupsOf_adoptGroup]
            exact hbelow
          · rw [places_cons_of_not (isGroupAt_adopted_of_ne hfixed hgroup hsame)]
            exact ihlater hshared.tail ⟨hmem, fun _ h => hsame (List.cons.inj h).1.symm⟩

end Places

/-! ## The order of siblings -/

section Order

variable {parentPath : Text} {chains : Set (List Text)} {items first second : List Json}

/-- The same tree, but for the order of siblings. -/
inductive Alike : List Json → List Json → Prop where
  | nil : Alike [] []
  | cons {item items items'} (tail : Alike items items') : Alike (item :: items) (item :: items')
  | under {f groups groups' items items'} (hbelow : Alike groups groups')
      (tail : Alike items items') :
      Alike (.obj (Json.set f "subGroups".toList (.arr groups)) :: items)
        (.obj (Json.set f "subGroups".toList (.arr groups')) :: items')
  | swap {item other items} : Alike (item :: other :: items) (other :: item :: items)
  | trans {items items' items''} (h : Alike items items') (h' : Alike items' items'') :
      Alike items items''

theorem Alike.refl (items : List Json) : Alike items items := by
  induction items with
  | nil => exact .nil
  | cons item items ih => exact .cons ih

theorem Alike.newGroup {segment path : Text} {groups groups' items items' : List Json}
    (hbelow : Alike groups groups') (tail : Alike items items') :
    Alike (newGroup segment path (fun _ => groups) :: items)
      (Keycloak.newGroup segment path (fun _ => groups') :: items') :=
  Alike.under (f := [("name".toList, .str segment), ("path".toList, .str path)]) hbelow tail

theorem Alike.adoptGroup {segment path : Text} {group : Fields}
    {groups groups' items items' : List Json}
    (hbelow : Alike groups groups') (tail : Alike items items') :
    Alike (.obj (adoptGroup segment path (fun _ => groups) group) :: items)
      (.obj (Keycloak.adoptGroup segment path (fun _ => groups') group) :: items') :=
  .under hbelow tail

/-- The new groups of a level can be taken in any order. -/
theorem Grown.new_first {segment : Text} (h : Grown parentPath chains [] second)
    (hmem : ∃ rest, segment :: rest ∈ chains) :
    ∃ below later, Grown (childPath parentPath segment) (Through segment chains) [] below ∧
      Grown parentPath (Beside segment chains) [] later ∧
      Alike (newGroup segment (childPath parentPath segment) (fun _ => below) :: later) second := by
  generalize hitems : ([] : List Json) = items at h
  induction h with
  | done h =>
      obtain ⟨rest, hrest⟩ := hmem
      cases h _ hrest
  | @new parentPath chains other below later hother hfixed hbelow hlater _ ihlater =>
      by_cases hsame : other = segment
      · subst hsame
        exact ⟨below, later, hbelow, hlater, .refl _⟩
      · obtain ⟨rest, hrest⟩ := hmem
        obtain ⟨otherRest, hotherRest⟩ := hother
        have hbeside : segment :: rest ∈ Beside other chains :=
          ⟨hrest, fun _ h => hsame (List.cons.inj h).1.symm⟩
        obtain ⟨first, others, hfirst, hothers, halike⟩ := ihlater ⟨rest, hbeside⟩ rfl
        rw [through_beside (Ne.symm hsame)] at hfirst
        rw [beside_comm] at hothers
        rw [← through_beside hsame] at hbelow
        refine ⟨first, _, hfirst,
          .new ⟨otherRest, hotherRest, fun _ h => hsame (List.cons.inj h).1⟩ hfixed hbelow hothers,
          ?_⟩
        exact .trans .swap (.cons halike)
  | untouched _ _ _ => cases hitems
  | adopted _ _ _ _ _ _ _ => cases hitems

/-- What a level has become is determined up to the order of siblings. -/
theorem Grown.alike (h : Grown parentPath chains items first)
    (h' : Grown parentPath chains items second) : Alike first second := by
  induction h generalizing second with
  | done h =>
      cases h' with
      | done _ => exact .nil
      | new hmem _ _ _ =>
          obtain ⟨rest, hrest⟩ := hmem
          cases h _ hrest
  | new hmem _ _ _ ihbelow ihlater =>
      obtain ⟨below, later, hbelow, hlater, halike⟩ := h'.new_first hmem
      exact .trans (.newGroup (ihbelow hbelow) (ihlater hlater)) halike
  | untouched hitem _ ih =>
      cases h' with
      | untouched _ hlater => exact .cons (ih hlater)
      | adopted hmem _ hgroup _ _ =>
          obtain ⟨rest, hrest⟩ := hmem
          rw [hitem _ rest hrest] at hgroup
          cases hgroup
  | @adopted parentPath chains segment group below items items' hmem hfixed hgroup hbelow hlater
      ihbelow ihlater =>
      cases h' with
      | untouched hitem _ =>
          obtain ⟨rest, hrest⟩ := hmem
          rw [hitem _ rest hrest] at hgroup
          cases hgroup
      | @adopted _ _ other _ below' _ later' _ _ hother hbelow' hlater' =>
          have hsame : segment = other := childPath_inj (isGroupAt_unique hgroup hother)
          subst hsame
          exact .adoptGroup (ihbelow hbelow') (ihlater hlater')

end Order

/-! ## What is kept -/

section Kept

/-- The fields of a group are kept, and no others come but its name, its path and the groups
below it. -/
structure KeepsFields (group group' : Fields) : Prop where
  others : ∀ key, key ≠ "name".toList → key ≠ "path".toList → key ≠ "subGroups".toList →
    field group' key = field group key
  own : ∀ key, key ≠ "subGroups".toList → ∀ value, field group key = some value →
    field group' key = some value

/-- Every item is kept in its place, with the fields of every group at every level; anything
may follow. -/
inductive Kept : List Json → List Json → Prop where
  | added {more} : Kept [] more
  | same {item items items'} (tail : Kept items items') : Kept (item :: items) (item :: items')
  | extended {group group' items items'} (hfields : KeepsFields group group')
      (hbelow : Kept (subGroupsOf group) (subGroupsOf group')) (tail : Kept items items') :
      Kept (.obj group :: items) (.obj group' :: items')

variable {segment path : Text} {group group' group'' : Fields} {items items' items'' : List Json}

theorem KeepsFields.trans (h : KeepsFields group group') (h' : KeepsFields group' group'') :
    KeepsFields group group'' where
  others := fun key hname hpath hsub =>
    (h'.others key hname hpath hsub).trans (h.others key hname hpath hsub)
  own := fun key hsub value hvalue => h'.own key hsub value (h.own key hsub value hvalue)

theorem Kept.refl (items : List Json) : Kept items items := by
  induction items with
  | nil => exact .added
  | cons item items ih => exact .same ih

theorem Kept.trans (h : Kept items items') (h' : Kept items' items'') : Kept items items'' := by
  induction h generalizing items'' with
  | added => exact .added
  | same _ ih =>
      cases h' with
      | same tail => exact .same (ih tail)
      | extended hfields hbelow tail => exact .extended hfields hbelow (ih tail)
  | extended hfields hbelow _ ihbelow ihtail =>
      cases h' with
      | same tail => exact .extended hfields hbelow (ihtail tail)
      | extended hfields' hbelow' tail =>
          exact .extended (hfields.trans hfields') (ihbelow hbelow') (ihtail tail)

theorem keepsFields_adoptGroup (below : List Json → List Json) :
    KeepsFields group (adoptGroup segment path below group) where
  others := by
    intro key hname hpath hsub
    rw [field_adoptGroup hsub, field_named hname hpath]
  own := by
    intro key hsub value hvalue
    rw [field_adoptGroup hsub]
    by_cases hname : key = "name".toList
    · rw [hname] at hvalue ⊢
      rw [field_named_name, hvalue, Option.getD_some]
    · by_cases hpath : key = "path".toList
      · rw [hpath] at hvalue ⊢
        rw [field_named_path, hvalue, Option.getD_some]
      · rw [field_named hname hpath, hvalue]

/-- Merging a chain keeps what is there. -/
theorem kept_mergeSegments (parentPath : Text) (segments : List Text) (items : List Json) :
    Kept items (mergeSegments parentPath segments items) := by
  induction segments generalizing parentPath items with
  | nil =>
      rw [mergeSegments]
      exact .refl items
  | cons segment rest ihsegments =>
      rw [mergeSegments]
      generalize normalizeOrganizationalGroupIdentifier (underParent parentPath segment) = candidate
      induction items with
      | nil => exact .added
      | cons item items ih =>
          rw [updateFirst]
          split
          · rename_i hat
            cases item with
            | obj group =>
                refine .extended (keepsFields_adoptGroup _) ?_ (.refl items)
                rw [Json.fields, subGroupsOf_adoptGroup]
                exact ihsegments candidate (subGroupsOf group)
            | _ => cases hat
          · exact .same ih

end Kept

/-! ## The result -/

section Result

variable {groups merged : List Json} {path : Text} {paths : List Text}

/-- The chains of a list of default paths. -/
def chainsOf (paths : List Text) : Set (List Text) := {chain | ∃ path ∈ paths, chainOf path = chain}

theorem mergeGroupPath_eq (groups : List Json) (path : Text) :
    mergeGroupPathIntoKeycloakGroups (.arr groups) path =
      .ok (.arr (mergeSegments [] (chainOf path) groups)) := by
  unfold mergeGroupPathIntoKeycloakGroups chainOf
  cases normalizeOrganizationalGroupIdentifier path with
  | nil => rfl
  | cons c rest => rfl

/-- All default paths are merged, one after the other. -/
def mergePaths (groups : List Json) (paths : List Text) : List Json :=
  paths.foldl (fun groups path => mergeSegments [] (chainOf path) groups) groups

theorem mergeDefault_eq (groups : List Json) (paths : List Text) :
    mergeDefaultOrganizationalGroups (.arr groups) paths =
      .ok (.arr (mergePaths groups paths)) := by
  unfold mergeDefaultOrganizationalGroups mergePaths
  induction paths generalizing groups with
  | nil => rfl
  | cons path paths ih =>
      rw [List.foldlM_cons, mergeGroupPath_eq, List.foldl_cons, ← ih]
      rfl

theorem kept_mergePaths (groups : List Json) (paths : List Text) :
    Kept groups (mergePaths groups paths) := by
  unfold mergePaths
  induction paths generalizing groups with
  | nil => exact .refl groups
  | cons path paths ih =>
      rw [List.foldl_cons]
      exact (kept_mergeSegments [] (chainOf path) groups).trans (ih _)

theorem grown_foldl {chains : Set (List Text)} {before : List Json}
    (h : Grown [] chains groups before) (hclean : ∀ path ∈ paths, CleanPath path) :
    Grown [] (chainsOf paths ∪ chains) groups (mergePaths before paths) := by
  induction paths generalizing before chains with
  | nil =>
      have hnone : chainsOf [] ∪ chains = chains := by
        ext chain
        constructor
        · intro hmem
          cases hmem with
          | inl hnil =>
              obtain ⟨path, hpath, -⟩ := hnil
              cases hpath
          | inr hmem => exact hmem
        · exact .inr
      rw [hnone]
      exact h
  | cons path paths ih =>
      obtain ⟨hpath, hpaths⟩ := List.forall_mem_cons.mp hclean
      have hstep := ih (h.merge hpath.straight) hpaths
      have hsame : chainsOf paths ∪ insert (chainOf path) chains =
          chainsOf (path :: paths) ∪ chains := by
        ext chain
        constructor
        · intro hmem
          obtain ⟨other, hother, hchain⟩ | hfirst | hmem := hmem
          · exact .inl ⟨other, List.mem_cons_of_mem _ hother, hchain⟩
          · exact .inl ⟨path, List.mem_cons_self, hfirst.symm⟩
          · exact .inr hmem
        · intro hmem
          obtain ⟨other, hother, hchain⟩ | hmem := hmem
          · cases List.mem_cons.mp hother with
            | inl hfirst => exact .inr (.inl (hfirst ▸ hchain.symm))
            | inr hother => exact .inl ⟨other, hother, hchain⟩
          · exact .inr (.inr hmem)
      rw [hsame] at hstep
      exact hstep

/-- The merged tree has grown by the chains of the default paths. -/
theorem grown_mergePaths (groups : List Json) (hclean : ∀ path ∈ paths, CleanPath path) :
    Grown [] (chainsOf paths) groups (mergePaths groups paths) := by
  have hempty : Grown [] ∅ groups groups := Grown.refl (fun _ hmem => hmem.elim) groups
  have h := grown_foldl hempty hclean
  rw [Set.union_empty] at h
  exact h

theorem mergePaths_eq_self
    (h : ∀ path ∈ paths, mergeSegments [] (chainOf path) groups = groups) :
    mergePaths groups paths = groups := by
  unfold mergePaths
  induction paths with
  | nil => rfl
  | cons path paths ih =>
      obtain ⟨hpath, hpaths⟩ := List.forall_mem_cons.mp h
      rw [List.foldl_cons, hpath]
      exact ih hpaths

/-- The merged tree is the closure of the tree under the default paths. -/
structure Closure (groups : List Json) (paths : List Text) (merged : List Json) : Prop where
  /-- Nothing else is added than what the chains of the paths miss. -/
  grown : Grown [] (chainsOf paths) groups merged
  once : NoShared [] groups → ∀ path ∈ paths, places [] (chainOf path) merged = 1
  idempotent : mergeDefaultOrganizationalGroups (.arr merged) paths = .ok (.arr merged)
  anyOrder : ∀ others, others.Perm paths → ∃ merged',
    mergeDefaultOrganizationalGroups (.arr groups) others = .ok (.arr merged') ∧
      Alike merged merged'

/-- Every list of groups is merged with every list of paths, and kept; and with clean paths the
result is the closure. -/
theorem mergeDefault_closure (groups : List Json) (paths : List Text) :
    ∃ merged, mergeDefaultOrganizationalGroups (.arr groups) paths = .ok (.arr merged) ∧
      Kept groups merged ∧
      ((∀ path ∈ paths, CleanPath path) → Closure groups paths merged) := by
  refine ⟨mergePaths groups paths, mergeDefault_eq groups paths, kept_mergePaths groups paths, ?_⟩
  intro hclean
  have hgrown := grown_mergePaths groups hclean
  have hchain : ∀ path ∈ paths, chainOf path ∈ chainsOf paths :=
    fun path hpath => ⟨path, hpath, rfl⟩
  constructor
  · exact hgrown
  · exact fun hshared path hpath => hgrown.places_eq_one hshared (hchain path hpath)
  · rw [mergeDefault_eq, mergePaths_eq_self]
    exact fun path hpath => hgrown.merge_eq (hchain path hpath) (hclean path hpath).straight
  · intro others hperm
    have hothers : chainsOf others = chainsOf paths := by
      ext chain
      exact exists_congr fun path => and_congr_left fun _ => hperm.mem_iff
    have hother := grown_mergePaths groups fun path hpath => hclean path (hperm.mem_iff.mp hpath)
    rw [hothers] at hother
    exact ⟨_, mergeDefault_eq groups others, hgrown.alike hother⟩

end Result

/-! ## Trees and paths that are not so -/

/-- A group without groups below it. -/
def leaf (name path : Text) : Json := newGroup name path (fun _ => [])

/-- A group elsewhere with a default group's path stays beside it; and what is no list of groups
below a group is replaced by one. -/
theorem merge_not_closure :
    mergeDefaultOrganizationalGroups (.arr [leaf "b".toList "/a/b".toList]) ["/a/b".toList] =
      .ok (.arr [leaf "b".toList "/a/b".toList,
        newGroup "a".toList "/a".toList (fun _ => [leaf "b".toList "/a/b".toList])]) ∧
    mergeDefaultOrganizationalGroups (.arr [.obj [("name".toList, .str "a".toList),
        ("path".toList, .str "/a".toList), ("subGroups".toList, .null)]]) ["/a".toList] =
      .ok (.arr [leaf "a".toList "/a".toList]) := by
  constructor
  · rfl
  · rfl

end M8flow.Keycloak
