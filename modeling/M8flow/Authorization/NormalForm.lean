import M8flow.Authorization.Held

/-!
# Normal forms of paths

`_normalize_authorization_path` takes an API prefix from the front of a path, slashes from its
end, and reads the public Task Review path as the one that grants name.  It is applied again
by the fallback.

- `InNormalForm` are the paths that it leaves alone.
- `normalize_idempotent_iff`: from which paths one application is enough.
- `normalize_bare`, `normalize_slashes`, `normalize_prefixed`: the ways to write a path
  without the prefix.
- `normal_form_iff`: when a path has the one normal form.
-/

namespace M8flow.Authorization

open M8flow.Auth M8flow.Identity M8flow.Lib

/-- `_API_PATH_PREFIX`. -/
def apiPathPrefix : Text := "/v1.0".toList

/-- The path, rooted. -/
def rooted (path : Text) : Text := if ['/'].isPrefixOf path then path else '/' :: path

/-- What a normalized path looks like: it is rooted, has no slash at its end unless it is the
root, has no API prefix, and is not a public Task Review path. -/
structure InNormalForm (path : Text) : Prop where
  head : path.head? = some '/'
  last : path ≠ ['/'] → path.getLast? ≠ some '/'
  bare : ¬ apiPathPrefix.isPrefixOf path
  canonical : isUnder "/m8flow/task-review".toList path = false

/-- Slashes at the end are dropped, and the path is rooted. -/
def trimmed (path : Text) : Text :=
  rooted ((truthy (some (Text.rstripChar '/' path))).getD ['/'])

/-- The public Task Review path is read as its target. -/
def aliased (path : Text) : Text :=
  if isUnder "/m8flow/task-review".toList path then
    "/m8flow/task-review-access".toList ++ path.drop "/m8flow/task-review".toList.length
  else path

theorem normalize_eq (path : Text) :
    normalizeAuthorizationPath path = aliased (trimmed (withoutApiPathPrefix path)) := rfl

section Paths

variable {path : Text}

theorem rooted_head (path : Text) : (rooted path).head? = some '/' := by
  unfold rooted
  split
  · rename_i h
    obtain ⟨rest, hrest⟩ := List.isPrefixOf_iff_prefix.mp h
    rw [← hrest]
    rfl
  · rfl

theorem rooted_of_head (h : path.head? = some '/') : rooted path = path := by
  obtain ⟨rest, hrest⟩ : ∃ rest, path = '/' :: rest := by
    cases path with
    | nil => cases h
    | cons c rest =>
        rw [List.head?_cons] at h
        exact ⟨rest, by rw [Option.some.inj h]⟩
  unfold rooted
  rw [hrest]
  rfl

/-- A path without the prefix, rooted or not, is left as it is. -/
theorem withoutApiPathPrefix_of_not (h : ¬ apiPathPrefix.isPrefixOf (rooted path)) :
    withoutApiPathPrefix path = path := by
  unfold apiPathPrefix rooted at h
  unfold withoutApiPathPrefix
  dsimp only
  rw [if_neg h]

/-- A path with the prefix is left without it. -/
theorem withoutApiPathPrefix_of_prefixed {rest : Text} (h : rooted path = apiPathPrefix ++ rest) :
    withoutApiPathPrefix path = if rest = [] then ['/'] else rest := by
  unfold rooted at h
  have hstarts : apiPathPrefix.isPrefixOf (apiPathPrefix ++ rest) = true :=
    List.isPrefixOf_iff_prefix.mpr (List.prefix_append _ _)
  have hdrop : (apiPathPrefix ++ rest).drop 5 = rest := rfl
  unfold withoutApiPathPrefix
  dsimp only
  rw [h]
  unfold apiPathPrefix at hstarts hdrop ⊢
  rw [if_pos hstarts, hdrop]
  cases rest with
  | nil => rfl
  | cons c rest => rfl

theorem trimmed_head (path : Text) : (trimmed path).head? = some '/' := rooted_head _

/-- Slashes at the end do not matter. -/
theorem trimmed_slashes (path : Text) (n : Nat) :
    trimmed (path ++ List.replicate n '/') = trimmed path := by
  unfold trimmed
  rw [Text.rstripChar_append_replicate]

/-- What is left of a path without slashes at its end. -/
theorem trimmed_cases (path : Text) :
    (Text.rstripChar '/' path = [] ∧ trimmed path = ['/']) ∨
      (Text.rstripChar '/' path ≠ [] ∧ trimmed path = rooted (Text.rstripChar '/' path)) := by
  unfold trimmed
  by_cases hnil : Text.rstripChar '/' path = []
  · rw [hnil]
    exact Or.inl ⟨rfl, rfl⟩
  · have htruthy : truthy (some (Text.rstripChar '/' path)) = some (Text.rstripChar '/' path) :=
      truthy_eq_some.mpr ⟨rfl, hnil⟩
    rw [htruthy]
    exact Or.inr ⟨hnil, rfl⟩

theorem trimmed_last (h : trimmed path ≠ ['/']) : (trimmed path).getLast? ≠ some '/' := by
  rcases trimmed_cases path with ⟨-, hroot⟩ | ⟨hne, hrooted⟩
  · exact absurd hroot h
  · rw [hrooted]
    have hlast : (Text.rstripChar '/' path).getLast? ≠ some '/' := by
      rw [List.getLast?_eq_some_getLast hne]
      intro hslash
      have hnot := List.rdropWhile_last_not (· == '/') path hne
      rw [show (List.rdropWhile (· == '/') path).getLast hne = '/' from Option.some.inj hslash]
        at hnot
      exact hnot rfl
    unfold rooted
    split
    · exact hlast
    · rw [List.getLast?_cons, List.getLast?_eq_some_getLast hne, Option.getD_some,
        ← List.getLast?_eq_some_getLast hne]
      exact hlast

/-- A rooted path without a slash at its end is not changed. -/
theorem trimmed_eq_self (hhead : path.head? = some '/')
    (hlast : path ≠ ['/'] → path.getLast? ≠ some '/') : trimmed path = path := by
  by_cases hroot : path = ['/']
  · rw [hroot]
    rfl
  · have hsame : Text.rstripChar '/' path = path := by
      apply Text.rstripChar_eq_self
      intro hne hslash
      apply hlast hroot
      rw [List.getLast?_eq_some_getLast hne, hslash]
    rcases trimmed_cases path with ⟨hnil, -⟩ | ⟨-, hrooted⟩
    · rw [hsame] at hnil
      rw [hnil] at hhead
      cases hhead
    · rw [hrooted, hsame, rooted_of_head hhead]

/-- A prefix that does not end in a slash is in front of what is left of a path. -/
theorem prefix_rstrip {front : Text} (hlast : front.getLast? ≠ some '/') :
    front <+: Text.rstripChar '/' path ↔ front <+: path := by
  have hleft : Text.rstripChar '/' path <+: path := List.rdropWhile_prefix _ path
  constructor
  · exact fun h => h.trans hleft
  · intro h
    rcases List.prefix_or_prefix_of_prefix h hleft with hshort | hlong
    · exact hshort
    · -- the front would reach into the slashes
      obtain ⟨slashes, hslashes⟩ := hlong
      by_cases hnil : slashes = []
      · rw [hnil, List.append_nil] at hslashes
        rw [hslashes]
      · have hwhole : Text.rstripChar '/' path ++ path.rtakeWhile (· == '/') = path :=
          List.rdropWhile_append_rtakeWhile
        obtain ⟨rest, hrest⟩ := h
        rw [← hslashes, List.append_assoc] at hrest
        have htake : slashes ++ rest = path.rtakeWhile (· == '/') :=
          List.append_cancel_left (hrest.trans hwhole.symm)
        have hin : slashes.getLast hnil ∈ path.rtakeWhile (· == '/') := by
          rw [← htake]
          exact List.mem_append_left _ (List.getLast_mem hnil)
        have hslash : slashes.getLast hnil = '/' := by
          have hall := List.mem_rtakeWhile_imp hin
          exact beq_iff_eq.mp hall
        refine absurd ?_ hlast
        rw [← hslashes, List.getLast?_append_of_ne_nil _ hnil,
          List.getLast?_eq_some_getLast hnil, hslash]

theorem apiPathPrefix_last : apiPathPrefix.getLast? ≠ some '/' := by decide

/-- Whether the prefix is in front of a path does not depend on the slashes at its end. -/
theorem prefix_trimmed (path : Text) :
    apiPathPrefix <+: trimmed path ↔ apiPathPrefix <+: rooted path := by
  have hroot : ¬ apiPathPrefix <+: ['/'] := by
    intro h
    have hlength := h.length_le
    exact absurd hlength (by decide)
  unfold rooted
  by_cases hslash : ['/'].isPrefixOf path = true
  · -- what is left of a rooted path is rooted, or it is empty
    have hstripped : apiPathPrefix <+: Text.rstripChar '/' path ↔ apiPathPrefix <+: path :=
      prefix_rstrip apiPathPrefix_last
    rw [if_pos hslash, ← hstripped]
    rcases trimmed_cases path with ⟨hnil, htrimmed⟩ | ⟨hne, htrimmed⟩
    · rw [htrimmed, hnil]
      refine iff_of_false hroot ?_
      intro h
      exact absurd (List.prefix_nil.mp h) (by decide)
    · have hhead : (Text.rstripChar '/' path).head? = some '/' := by
        have hleft : Text.rstripChar '/' path <+: path := List.rdropWhile_prefix _ path
        obtain ⟨rest, hrest⟩ := hleft
        obtain ⟨tail, htail⟩ := List.isPrefixOf_iff_prefix.mp hslash
        have hsame := congrArg List.head? (hrest.trans htail.symm)
        rw [List.head?_append_of_ne_nil _ hne] at hsame
        exact hsame
      rw [htrimmed, rooted_of_head hhead]
  · -- the slash is put in front of both
    rw [if_neg hslash]
    have hv : apiPathPrefix = '/' :: "v1.0".toList := rfl
    rcases trimmed_cases path with ⟨hnil, htrimmed⟩ | ⟨hne, htrimmed⟩
    · have hall := List.rdropWhile_eq_nil_iff.mp hnil
      have hempty : path = [] := by
        cases path with
        | nil => rfl
        | cons c rest =>
            have hc := hall c List.mem_cons_self
            rw [Text.singleton_isPrefixOf, beq_iff_eq] at hslash
            exact absurd (beq_iff_eq.mp hc).symm hslash
      rw [htrimmed, hempty]
    · have hhead : ¬ ['/'].isPrefixOf (Text.rstripChar '/' path) = true := by
        intro h
        apply hslash
        exact List.isPrefixOf_iff_prefix.mpr
          ((List.isPrefixOf_iff_prefix.mp h).trans (List.rdropWhile_prefix _ path))
      have hrooted : rooted (Text.rstripChar '/' path) = '/' :: Text.rstripChar '/' path :=
        if_neg hhead
      have hstripped : "v1.0".toList <+: Text.rstripChar '/' path ↔ "v1.0".toList <+: path :=
        prefix_rstrip (by decide)
      rw [htrimmed, hrooted, hv, List.cons_prefix_cons, List.cons_prefix_cons, hstripped]

/-- A path that is read as its alias is rooted elsewhere. -/
theorem prefix_aliased (path : Text) : apiPathPrefix <+: aliased path ↔ apiPathPrefix <+: path := by
  unfold aliased
  split
  · rename_i hunder
    refine iff_of_false ?_ ?_
    · intro h
      have htarget : "/m8flow/task-review-access".toList <+:
          "/m8flow/task-review-access".toList ++ path.drop "/m8flow/task-review".toList.length :=
        List.prefix_append _ _
      have hshort := List.prefix_of_prefix_length_le h htarget (by decide)
      exact absurd (List.isPrefixOf_iff_prefix.mpr hshort) (by decide)
    · intro h
      have hpublic : "/m8flow/task-review".toList <+: path := by
        unfold isUnder at hunder
        rw [Bool.or_eq_true, decide_eq_true_eq, List.isPrefixOf_iff_prefix] at hunder
        rcases hunder with hsame | hlonger
        · rw [hsame]
        · exact (List.prefix_append _ _).trans hlonger
      have hshort := List.prefix_of_prefix_length_le h hpublic (by decide)
      exact absurd (List.isPrefixOf_iff_prefix.mpr hshort) (by decide)
  · exact Iff.rfl

theorem prefix_normalize (path : Text) :
    apiPathPrefix <+: normalizeAuthorizationPath path ↔
      apiPathPrefix <+: rooted (withoutApiPathPrefix path) := by
  rw [normalize_eq, prefix_aliased, prefix_trimmed]

theorem isUnder_iff {front : Text} :
    isUnder front path ↔ path = front ∨ front ++ ['/'] <+: path := by
  unfold isUnder
  rw [Bool.or_eq_true, decide_eq_true_eq, List.isPrefixOf_iff_prefix]

/-- The target of Task Review paths is not a public one. -/
theorem aliased_of_under (h : isUnder "/m8flow/task-review".toList path) :
    isUnder "/m8flow/task-review".toList (aliased path) = false := by
  have hunder := h
  unfold aliased
  rw [if_pos h, ← Bool.not_eq_true, isUnder_iff]
  intro hagain
  rcases hagain with hsame | hlonger
  · have hlength := congrArg List.length hsame
    rw [List.length_append] at hlength
    have htarget : "/m8flow/task-review-access".toList.length = 26 := by decide
    have hpublic : "/m8flow/task-review".toList.length = 19 := by decide
    rw [htarget, hpublic] at hlength
    omega
  · have htarget : "/m8flow/task-review-access".toList <+:
        "/m8flow/task-review-access".toList ++ path.drop "/m8flow/task-review".toList.length :=
      List.prefix_append _ _
    have hshort := List.prefix_of_prefix_length_le hlonger htarget (by decide)
    exact absurd (List.isPrefixOf_iff_prefix.mpr hshort) (by decide)

/-- A normalized path is in normal form, unless it has the prefix again. -/
theorem inNormalForm_normalize (path : Text)
    (h : ¬ apiPathPrefix <+: rooted (withoutApiPathPrefix path)) :
    InNormalForm (normalizeAuthorizationPath path) := by
  have hprefix : ¬ apiPathPrefix.isPrefixOf (normalizeAuthorizationPath path) := by
    rw [List.isPrefixOf_iff_prefix, prefix_normalize]
    exact h
  rw [normalize_eq] at hprefix ⊢
  by_cases hunder : isUnder "/m8flow/task-review".toList (trimmed (withoutApiPathPrefix path)) = true
  · refine ⟨?_, ?_, hprefix, aliased_of_under hunder⟩
    · unfold aliased
      rw [if_pos hunder]
      rfl
    · intro _
      unfold aliased
      rw [if_pos hunder]
      by_cases hrest : (trimmed (withoutApiPathPrefix path)).drop
          "/m8flow/task-review".toList.length = []
      · rw [hrest]
        decide
      · have hpublic : trimmed (withoutApiPathPrefix path) ≠ ['/'] := by
          intro hroot
          rw [hroot] at hrest
          exact hrest rfl
        rw [List.getLast?_append_of_ne_nil _ hrest]
        have hlast := trimmed_last hpublic
        rw [← List.take_append_drop "/m8flow/task-review".toList.length
          (trimmed (withoutApiPathPrefix path)), List.getLast?_append_of_ne_nil _ hrest] at hlast
        exact hlast
  · have hsame : aliased (trimmed (withoutApiPathPrefix path)) =
        trimmed (withoutApiPathPrefix path) := if_neg hunder
    rw [hsame] at hprefix ⊢
    exact ⟨trimmed_head _, trimmed_last, hprefix, Bool.eq_false_of_not_eq_true hunder⟩

/-- What is in normal form is left alone. -/
theorem normalize_of_inNormalForm (h : InNormalForm path) :
    normalizeAuthorizationPath path = path := by
  have hbare : withoutApiPathPrefix path = path := by
    apply withoutApiPathPrefix_of_not
    rw [rooted_of_head h.head]
    exact h.bare
  have hunder : ¬ isUnder "/m8flow/task-review".toList path = true := by
    rw [h.canonical]
    exact Bool.false_ne_true
  rw [normalize_eq, hbare, trimmed_eq_self h.head h.last]
  exact if_neg hunder

theorem length_trimmed_le (path : Text) : (trimmed path).length ≤ path.length + 1 := by
  have hstrip : (Text.rstripChar '/' path).length ≤ path.length :=
    (List.rdropWhile_prefix (· == '/') path).length_le
  rcases trimmed_cases path with ⟨-, hroot⟩ | ⟨-, hrooted⟩
  · rw [hroot, List.length_singleton]
    omega
  · rw [hrooted]
    unfold rooted
    split
    · omega
    · rw [List.length_cons]
      omega

/-- A path with the prefix is changed. -/
theorem normalize_ne_of_prefixed (h : apiPathPrefix <+: path) :
    normalizeAuthorizationPath path ≠ path := by
  intro hsame
  obtain ⟨rest, hrest⟩ := h
  have hhead : path.head? = some '/' := by
    rw [← hrest]
    rfl
  have hbare : withoutApiPathPrefix path = if rest = [] then ['/'] else rest :=
    withoutApiPathPrefix_of_prefixed ((rooted_of_head hhead).trans hrest.symm)
  have haliased : apiPathPrefix <+: trimmed (withoutApiPathPrefix path) := by
    rw [← prefix_aliased, ← normalize_eq, hsame]
    exact ⟨rest, hrest⟩
  have hunder : ¬ isUnder "/m8flow/task-review".toList (trimmed (withoutApiPathPrefix path)) = true := by
    rw [isUnder_iff]
    intro hunder
    have hpublic : "/m8flow/task-review".toList <+: trimmed (withoutApiPathPrefix path) := by
      rcases hunder with hpath | hlonger
      · rw [hpath]
      · exact (List.prefix_append _ _).trans hlonger
    have hshort := List.prefix_of_prefix_length_le haliased hpublic (by decide)
    exact absurd (List.isPrefixOf_iff_prefix.mpr hshort) (by decide)
  -- what is left is shorter, by more than the slash that may be put in front of it
  have hleft : trimmed (withoutApiPathPrefix path) = path := by
    have haliasedSame : aliased (trimmed (withoutApiPathPrefix path)) =
        trimmed (withoutApiPathPrefix path) := if_neg hunder
    rw [normalize_eq, haliasedSame] at hsame
    exact hsame
  have hlength := length_trimmed_le (withoutApiPathPrefix path)
  have hwhole : path.length = 5 + rest.length := by
    rw [← hrest, List.length_append]
    rfl
  rw [hleft, hbare, hwhole] at hlength
  split at hlength
  · rw [List.length_singleton] at hlength
    omega
  · omega

/-- One application is enough unless the path has the prefix again without its prefix. -/
theorem normalize_idempotent_iff (path : Text) :
    normalizeAuthorizationPath (normalizeAuthorizationPath path) =
        normalizeAuthorizationPath path ↔
      ¬ apiPathPrefix <+: rooted (withoutApiPathPrefix path) := by
  constructor
  · intro h hprefix
    exact normalize_ne_of_prefixed ((prefix_normalize path).mpr hprefix) h
  · exact fun h => normalize_of_inNormalForm (inNormalForm_normalize path h)

end Paths

/-! ## Ways to write a path -/

/-- A path without the prefix and with slashes at its end. -/
theorem normalize_slashes {path : Text} (hhead : path.head? = some '/')
    (hbare : ¬ apiPathPrefix <+: path) (n : Nat) :
    normalizeAuthorizationPath (path ++ List.replicate n '/') = normalizeAuthorizationPath path := by
  have hkept : ∀ m, withoutApiPathPrefix (path ++ List.replicate m '/') =
      path ++ List.replicate m '/' := by
    intro m
    apply withoutApiPathPrefix_of_not
    have hrooted : rooted (path ++ List.replicate m '/') = path ++ List.replicate m '/' := by
      apply rooted_of_head
      rw [List.head?_append_of_ne_nil _ (by intro hnil; rw [hnil] at hhead; cases hhead)]
      exact hhead
    have hstripped : ∀ s : Text, apiPathPrefix <+: Text.rstripChar '/' s ↔ apiPathPrefix <+: s :=
      fun s => prefix_rstrip apiPathPrefix_last
    rw [hrooted, List.isPrefixOf_iff_prefix, ← hstripped, Text.rstripChar_append_replicate, hstripped]
    exact hbare
  have hzero := hkept 0
  rw [List.replicate_zero, List.append_nil] at hzero
  rw [normalize_eq, normalize_eq, hkept n, hzero, trimmed_slashes]

/-- A rooted path with the prefix in front of it. -/
theorem normalize_prefixed {path : Text} (hhead : path.head? = some '/')
    (hbare : ¬ apiPathPrefix <+: path) :
    normalizeAuthorizationPath (apiPathPrefix ++ path) = normalizeAuthorizationPath path := by
  have hne : path ≠ [] := by
    intro hnil
    rw [hnil] at hhead
    cases hhead
  have hprefixed : withoutApiPathPrefix (apiPathPrefix ++ path) = path := by
    have hrooted : rooted (apiPathPrefix ++ path) = apiPathPrefix ++ path := rooted_of_head rfl
    rw [withoutApiPathPrefix_of_prefixed hrooted, if_neg hne]
  have hkept : withoutApiPathPrefix path = path := by
    apply withoutApiPathPrefix_of_not
    rw [rooted_of_head hhead, List.isPrefixOf_iff_prefix]
    exact hbare
  rw [normalize_eq, normalize_eq, hprefixed, hkept]

/-- The answer depends on the normalized path. -/
theorem allowUri_of_normalize {path other : Text}
    (h : normalizeAuthorizationPath path = normalizeAuthorizationPath other) (context : Context)
    (store : Store) (user : Option UserModel) (method : Text) (session groupFallback : Bool) :
    allowUri context store user method path session groupFallback =
      allowUri context store user method other session groupFallback := by
  cases user with
  | none => rfl
  | some user =>
      unfold allowUri allowWithGroups
      dsimp only
      rw [h]

/-! ## One normal form -/

/-- An API prefix is taken off only where it is a whole first segment. -/
def RemovesSegment (path : Text) : Prop :=
  withoutApiPathPrefix path ≠ path → isUnder apiPathPrefix (rooted path)

/-- A rooted path without the prefix is answered the same with slashes at its end and with
the prefix in front. -/
def SameAnswer (path : Text) : Prop :=
  path.head? = some '/' → ¬ apiPathPrefix <+: path →
    ∀ (context : Context) (store : Store) (user : Option UserModel) (method : Text)
      (session groupFallback : Bool),
      (∀ n, allowUri context store user method (path ++ List.replicate n '/') session groupFallback =
        allowUri context store user method path session groupFallback) ∧
      allowUri context store user method (apiPathPrefix ++ path) session groupFallback =
        allowUri context store user method path session groupFallback

/-- The path has one normal form. -/
structure OneNormalForm (path : Text) : Prop where
  idempotent : normalizeAuthorizationPath (normalizeAuthorizationPath path) =
    normalizeAuthorizationPath path
  segment : RemovesSegment path
  answer : SameAnswer path

/-- Where the path has the prefix, with or without a slash in front, it is a whole segment and
does not come again. -/
def OncePrefixed (path : Text) : Prop :=
  ∀ rest, rooted path = apiPathPrefix ++ rest →
    (rest = [] ∨ rest.head? = some '/') ∧ ¬ apiPathPrefix <+: rest

theorem isUnder_append (rest : Text) :
    isUnder apiPathPrefix (apiPathPrefix ++ rest) ↔ rest = [] ∨ rest.head? = some '/' := by
  rw [isUnder_iff, List.append_right_eq_self, List.prefix_append_right_inj]
  refine or_congr_right ?_
  cases rest with
  | nil => simp
  | cons c rest => simp [eq_comm]

/-- A path with the prefix is changed when it is taken off. -/
theorem withoutApiPathPrefix_ne {path rest : Text} (h : rooted path = apiPathPrefix ++ rest) :
    withoutApiPathPrefix path ≠ path := by
  rw [withoutApiPathPrefix_of_prefixed h]
  intro hsame
  have hwhole : (rooted path).length = 5 + rest.length := by
    rw [h, List.length_append]
    rfl
  have hrooted : (rooted path).length ≤ path.length + 1 := by
    unfold rooted
    split
    · omega
    · rw [List.length_cons]
  rw [hwhole] at hrooted
  split at hsame
  · rw [← hsame, List.length_singleton] at hrooted
    omega
  · rw [← hsame] at hrooted
    omega

theorem sameAnswer (path : Text) : SameAnswer path := by
  intro hhead hbare context store user method session groupFallback
  constructor
  · intro n
    exact allowUri_of_normalize (normalize_slashes hhead hbare n) context store user method session
      groupFallback
  · exact allowUri_of_normalize (normalize_prefixed hhead hbare) context store user method session
      groupFallback

/-- A path has one normal form exactly where the prefix, if it has it, is a whole segment and
does not come twice. -/
theorem normal_form_iff (path : Text) : OneNormalForm path ↔ OncePrefixed path := by
  constructor
  · intro h rest hrest
    have hsegment := h.segment (withoutApiPathPrefix_ne hrest)
    rw [hrest, isUnder_append] at hsegment
    refine ⟨hsegment, ?_⟩
    intro hagain
    have hidempotent := (normalize_idempotent_iff path).mp h.idempotent
    apply hidempotent
    have hne : rest ≠ [] := by
      intro hnil
      rw [hnil, List.prefix_nil] at hagain
      exact absurd hagain (by decide)
    have hhead : rest.head? = some '/' := by
      rcases hsegment with hnil | hhead
      · exact absurd hnil hne
      · exact hhead
    rw [withoutApiPathPrefix_of_prefixed hrest, if_neg hne, rooted_of_head hhead]
    exact hagain
  · intro h
    refine ⟨?_, ?_, sameAnswer path⟩
    · rw [normalize_idempotent_iff]
      by_cases hprefix : apiPathPrefix.isPrefixOf (rooted path) = true
      · obtain ⟨rest, hrest⟩ := List.isPrefixOf_iff_prefix.mp hprefix
        obtain ⟨hsegment, honce⟩ := h rest hrest.symm
        rw [withoutApiPathPrefix_of_prefixed hrest.symm]
        split
        · intro hroot
          exact absurd hroot.length_le (by decide)
        · rename_i hne
          have hhead : rest.head? = some '/' := by
            rcases hsegment with hnil | hhead
            · exact absurd hnil hne
            · exact hhead
          rw [rooted_of_head hhead]
          exact honce
      · rw [withoutApiPathPrefix_of_not hprefix, ← List.isPrefixOf_iff_prefix]
        exact hprefix
    · intro hchanged
      by_cases hprefix : apiPathPrefix.isPrefixOf (rooted path) = true
      · obtain ⟨rest, hrest⟩ := List.isPrefixOf_iff_prefix.mp hprefix
        rw [← hrest, isUnder_append]
        exact (h rest hrest.symm).1
      · exact absurd (withoutApiPathPrefix_of_not hprefix) hchanged

/-- A prefix that comes twice is taken off once at a time, and a first segment that only
starts with the prefix loses it. -/
theorem two_normal_forms :
    normalizeAuthorizationPath "/v1.0/v1.0/secrets".toList = "/v1.0/secrets".toList ∧
      normalizeAuthorizationPath "/v1.0/secrets".toList = "/secrets".toList ∧
      ¬ OneNormalForm "/v1.0/v1.0/secrets".toList ∧
      normalizeAuthorizationPath "/v1.0beta/secrets".toList = "/beta/secrets".toList ∧
      ¬ RemovesSegment "/v1.0beta/secrets".toList := by
  refine ⟨by decide, by decide, ?_, by decide, ?_⟩
  · intro h
    exact absurd h.idempotent (by decide)
  · intro h
    exact absurd (h (by decide)) (by decide)

end M8flow.Authorization
