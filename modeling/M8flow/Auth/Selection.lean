import M8flow.Auth.Membership

/-!
# When a selection stays within the organization

The membership that answers for a tenant should carry an identifier of that
tenant.  An exact match does.  A canonical match resolves the membership's
identifiers *together with the tenant's own*, so a membership that names no row
of the tenant table resolves to the tenant's row as well, and so does one that
names that row by its slug.

- `Denotes` is what the answer should meet, `Resolved` the condition on the list
  of memberships under which it does.
- `membershipForActiveTenant_denotes_iff` is the equivalence for one list.
- `select_denotes_iff` carries it over the enrichment from the directory.
-/

namespace M8flow.Auth

open M8flow.Lib

/-- The organization of the membership is the tenant: one of its identifiers is one of
the tenant's. -/
def Denotes (tenants : List TenantRow) (tenantId : Text) (m : Membership) : Prop :=
  ∃ token ∈ refTokens m, token ∈ currentTenantIdentifiers tenants none (some tenantId)

/-- The identifiers of the membership name no row but those the tenant id names. -/
def namesNoOther (tenants : List TenantRow) (tenantId : Text) (m : Membership) : Bool :=
  tenants.all fun row => !row.namedBy (refTokens m) || row.namedBy [tenantId.strip]

/-- The condition on the memberships for the answer to denote the tenant: one of them
matches exactly; or the tenant has a row, and the first membership that names no other
row has its slug; or it has none or several, and no membership names a row whose id is
the tenant id but for white space. -/
def Resolved (tenants : List TenantRow) (tenantId : Text) (memberships : List Membership) : Prop :=
  (∃ m ∈ memberships, exactMatch tenants tenantId m) ∨
    match findTenantRow tenants [some tenantId] with
    | some row => row.id.strip = [] ∨
        ∀ m ∈ memberships.find? fun m => namesNoOther tenants tenantId m,
          row.slug.strip ∈ refTokens m
    | none => tenantId.strip = [] ∨ (∃ row ∈ tenants, row.namedBy [tenantId.strip]) ∨
        ∀ m ∈ memberships, ∀ row ∈ findTenantRow tenants ((refTokens m).map some),
          row.id.strip ≠ tenantId.strip

/-! ## One membership -/

section Match

variable {tenants : List TenantRow} {tenantId : Text} {m : Membership}

theorem strip_of_mem_refTokens {token : Text} (h : token ∈ refTokens m) :
    token.strip = token ∧ token ≠ [] := by
  obtain ⟨value, _, hvalue⟩ := mem_normalizedIdentifiers.mp h
  obtain ⟨given, _, rfl, hne⟩ := nonblank_eq_some.mp hvalue
  exact ⟨Text.strip_strip given, hne⟩

theorem normalized_tenantId (h : tenantId.strip ≠ []) :
    normalizedIdentifiers [some tenantId] = [tenantId.strip] := by
  unfold normalizedIdentifiers
  rw [List.filterMap_cons_some (nonblank_eq_some.mpr ⟨tenantId, rfl, rfl, h⟩)]
  rfl

/-- The tokens and the tenant id together name what either names. -/
theorem namedBy_together (h : tenantId.strip ≠ []) (row : TenantRow) :
    row.namedBy (normalizedIdentifiers ((refTokens m).map some ++ [some tenantId])) =
      (row.namedBy (refTokens m) || row.namedBy [tenantId.strip]) := by
  rw [Bool.eq_iff_iff, Bool.or_eq_true]
  simp only [namedBy_iff, mem_normalizedIdentifiers, List.mem_append, List.mem_map,
    List.mem_singleton]
  constructor
  · rintro ⟨s, ⟨value, hvalue, hs⟩, hrow⟩
    obtain ⟨given, hgiven, hstrip, _⟩ := nonblank_eq_some.mp hs
    rcases hvalue with ⟨token, htoken, rfl⟩ | rfl
    · rw [← Option.some.inj hgiven, (strip_of_mem_refTokens htoken).1] at hstrip
      exact Or.inl ⟨token, htoken, by rw [hstrip]; exact hrow⟩
    · rw [← Option.some.inj hgiven] at hstrip
      exact Or.inr ⟨s, hstrip.symm, hrow⟩
  · rintro (⟨token, htoken, hrow⟩ | ⟨s, rfl, hrow⟩)
    · obtain ⟨hstrip, hne⟩ := strip_of_mem_refTokens htoken
      refine ⟨token, ⟨some token, Or.inl ⟨token, htoken, rfl⟩, ?_⟩, hrow⟩
      exact nonblank_eq_some.mpr ⟨token, rfl, hstrip, hne⟩
    · refine ⟨_, ⟨_, Or.inr rfl, ?_⟩, hrow⟩
      exact nonblank_eq_some.mpr ⟨tenantId, rfl, rfl, h⟩

/-- The tokens alone are normalised. -/
theorem namedBy_tokens (row : TenantRow) :
    row.namedBy (normalizedIdentifiers ((refTokens m).map some)) = row.namedBy (refTokens m) := by
  rw [Bool.eq_iff_iff]
  simp only [namedBy_iff, mem_normalizedIdentifiers, List.mem_map]
  constructor
  · rintro ⟨s, ⟨value, ⟨token, htoken, rfl⟩, hs⟩, hrow⟩
    obtain ⟨given, hgiven, hstrip, _⟩ := nonblank_eq_some.mp hs
    rw [← Option.some.inj hgiven, (strip_of_mem_refTokens htoken).1] at hstrip
    exact ⟨token, htoken, by rw [hstrip]; exact hrow⟩
  · rintro ⟨token, htoken, hrow⟩
    obtain ⟨hstrip, hne⟩ := strip_of_mem_refTokens htoken
    refine ⟨token, ⟨some token, ⟨token, htoken, rfl⟩, ?_⟩, hrow⟩
    exact nonblank_eq_some.mpr ⟨token, rfl, hstrip, hne⟩

theorem strip_of_findTenantRow {row : TenantRow}
    (h : findTenantRow tenants [some tenantId] = some row) : tenantId.strip ≠ [] := by
  intro hblank
  have hnil : normalizedIdentifiers [some tenantId] = [] := by
    unfold normalizedIdentifiers
    rw [List.filterMap_cons_none (by simp [nonblank, hblank])]
    rfl
  unfold findTenantRow at h
  rw [hnil] at h
  cases h

/-- A tenant with a row: the membership matches canonically if it names no other row. -/
theorem canonicalMatch_known {row : TenantRow}
    (hrow : findTenantRow tenants [some tenantId] = some row) :
    canonicalMatch tenants tenantId m ↔
      row.id.strip ≠ [] ∧ namesNoOther tenants tenantId m := by
  have hstrip := strip_of_findTenantRow hrow
  have hfilter := findTenantRow_eq_some.mp hrow
  rw [normalized_tenantId hstrip] at hfilter
  have hmem : row ∈ tenants.filter fun row => row.namedBy [tenantId.strip] := by
    rw [hfilter]
    exact List.mem_singleton_self row
  obtain ⟨hrowMem, hnamed⟩ := List.mem_filter.mp hmem
  unfold canonicalMatch
  rw [Option.any_eq_true]
  constructor
  · rintro ⟨canonical, hcanonical, _⟩
    obtain ⟨found, hfound, hid⟩ := Option.bind_eq_some_iff.mp hcanonical
    have htogether := findTenantRow_eq_some.mp hfound
    simp only [namedBy_together hstrip] at htogether
    have hall : ∀ other ∈ tenants, (other.namedBy (refTokens m) || other.namedBy [tenantId.strip]) →
        other = found := by
      intro other hother hcond
      have hin : other ∈ tenants.filter fun row => row.namedBy (refTokens m) ||
          row.namedBy [tenantId.strip] := List.mem_filter.mpr ⟨hother, hcond⟩
      rw [htogether] at hin
      exact List.mem_singleton.mp hin
    have hsame : row = found := hall row hrowMem (by rw [hnamed, Bool.or_true])
    obtain ⟨given, hgiven, hgivenId, hne⟩ := nonblank_eq_some.mp hid
    cases hgiven
    refine ⟨by rw [hsame, hgivenId]; exact hne, ?_⟩
    refine List.all_eq_true.mpr fun other hother => ?_
    cases htokens : other.namedBy (refTokens m) with
    | false => rfl
    | true =>
        rw [hall other hother (by rw [htokens, Bool.true_or]), ← hsame]
        exact hnamed
  · rintro ⟨hne, hnoOther⟩
    have htogether : findTenantRow tenants ((refTokens m).map some ++ [some tenantId]) =
        some row := by
      rw [findTenantRow_eq_some, ← hfilter]
      apply List.filter_congr
      intro other hother
      rw [namedBy_together hstrip]
      have hother' := List.all_eq_true.mp hnoOther other hother
      cases htokens : other.namedBy (refTokens m) with
      | false => rw [Bool.false_or]
      | true =>
          rw [htokens] at hother'
          simpa using hother'.symm
    refine ⟨row.id.strip, ?_, ?_⟩
    · unfold canonicalTenantId
      rw [htogether]
      exact nonblank_eq_some.mpr ⟨row.id, rfl, rfl, hne⟩
    · unfold wantedIdentifiers canonicalTenantId
      rw [hrow, Option.bind_some, nonblank_eq_some.mpr ⟨row.id, rfl, rfl, hne⟩]
      simp

/-- A tenant without a row of its own: the membership matches canonically if it names a
row whose id is the tenant id but for white space. -/
theorem canonicalMatch_unknown (hrow : findTenantRow tenants [some tenantId] = none)
    (hstrip : tenantId.strip ≠ []) :
    canonicalMatch tenants tenantId m ↔
      (¬ ∃ row ∈ tenants, row.namedBy [tenantId.strip]) ∧
      ∃ row ∈ findTenantRow tenants ((refTokens m).map some), row.id.strip = tenantId.strip := by
  have hwanted : wantedIdentifiers tenants tenantId = [tenantId.strip] := by
    unfold wantedIdentifiers canonicalTenantId
    rw [hrow, nonblank_eq_some.mpr ⟨tenantId, rfl, rfl, hstrip⟩]
    rfl
  unfold canonicalMatch
  rw [Option.any_eq_true, hwanted]
  simp only [List.mem_singleton, decide_eq_true_eq]
  constructor
  · rintro ⟨canonical, hcanonical, hid⟩
    obtain ⟨found, hfound, hfoundId⟩ := Option.bind_eq_some_iff.mp hcanonical
    obtain ⟨given, hgiven, hgivenId, _⟩ := nonblank_eq_some.mp hfoundId
    cases hgiven
    have htogether := findTenantRow_eq_some.mp hfound
    simp only [namedBy_together hstrip] at htogether
    have hnone : ¬ ∃ row ∈ tenants, row.namedBy [tenantId.strip] := by
      rintro ⟨other, hother, hnamed⟩
      have hin : other ∈ tenants.filter fun row => row.namedBy (refTokens m) ||
          row.namedBy [tenantId.strip] :=
        List.mem_filter.mpr ⟨hother, by rw [hnamed, Bool.or_true]⟩
      rw [htogether] at hin
      -- then the tenant id would name that one row
      have hfilter : (tenants.filter fun row => row.namedBy [tenantId.strip]) = [found] := by
        have hsub : (tenants.filter fun row => row.namedBy [tenantId.strip]) =
            (tenants.filter fun row => row.namedBy (refTokens m) ||
              row.namedBy [tenantId.strip]).filter fun row => row.namedBy [tenantId.strip] := by
          rw [List.filter_filter]
          apply List.filter_congr
          intro row _
          cases row.namedBy [tenantId.strip] <;> simp
        rw [hsub, htogether, ← List.mem_singleton.mp hin]
        simp [hnamed]
      have hsome : findTenantRow tenants [some tenantId] = some found := by
        rw [findTenantRow_eq_some, normalized_tenantId hstrip]
        exact hfilter
      rw [hrow] at hsome
      cases hsome
    refine ⟨hnone, found, ?_, hgivenId.trans hid⟩
    rw [Option.mem_def, findTenantRow_eq_some, ← htogether]
    apply List.filter_congr
    intro other hother
    have hfalse : other.namedBy [tenantId.strip] = false :=
      Bool.eq_false_iff.mpr fun hnamed => hnone ⟨other, hother, hnamed⟩
    rw [namedBy_tokens, hfalse, Bool.or_false]
  · rintro ⟨hnone, row, hfound, hid⟩
    have htogether : findTenantRow tenants ((refTokens m).map some ++ [some tenantId]) =
        some row := by
      rw [findTenantRow_eq_some, ← findTenantRow_eq_some.mp hfound]
      apply List.filter_congr
      intro other hother
      have hfalse : other.namedBy [tenantId.strip] = false :=
        Bool.eq_false_iff.mpr fun hnamed => hnone ⟨other, hother, hnamed⟩
      rw [namedBy_together hstrip, namedBy_tokens, hfalse, Bool.or_false]
    refine ⟨row.id.strip, ?_, hid⟩
    unfold canonicalTenantId
    rw [htogether]
    exact nonblank_eq_some.mpr ⟨row.id, rfl, rfl, by rw [hid]; exact hstrip⟩

/-! ## What a match says -/

theorem findTenantRow_strip :
    findTenantRow tenants [some tenantId.strip] = findTenantRow tenants [some tenantId] := by
  have hsame : nonblank (some tenantId.strip) = nonblank (some tenantId) := by
    unfold nonblank
    rw [Option.bind_some, Option.bind_some, Text.strip_strip]
  unfold findTenantRow normalizedIdentifiers
  rw [List.filterMap_cons, List.filterMap_cons, hsame]

/-- The identifiers of a tenant, with its row looked up by the id as given. -/
theorem currentTenantIdentifiers_eq (h : tenantId.strip ≠ []) :
    currentTenantIdentifiers tenants none (some tenantId) =
      tenantId.strip ::
        match findTenantRow tenants [some tenantId] with
        | some row => [row.id.strip, row.slug.strip].filter fun s => s ≠ []
        | none => [] := by
  have hne : tenantId ≠ [] := by
    rintro rfl
    exact h Text.strip_nil
  have heffective : Text.strip (((truthy (some tenantId)).or none).getD []) = tenantId.strip := by
    unfold truthy
    rw [Option.filter_some, if_pos (decide_eq_true hne)]
    rfl
  unfold currentTenantIdentifiers
  dsimp only
  rw [heffective, if_neg h]
  exact congrArg (fun found : Option TenantRow =>
    tenantId.strip ::
      match found with
      | some row => [row.id.strip, row.slug.strip].filter fun s => s ≠ []
      | none => []) findTenantRow_strip

theorem mem_wantedIdentifiers {token : Text} (h : tenantId.strip ≠ []) :
    token ∈ wantedIdentifiers tenants tenantId ↔ token = tenantId.strip ∨
      ∃ row ∈ findTenantRow tenants [some tenantId], row.id.strip = token ∧ token ≠ [] := by
  unfold wantedIdentifiers canonicalTenantId
  rw [nonblank_eq_some.mpr ⟨tenantId, rfl, rfl, h⟩]
  simp only [Option.toList_some, List.mem_append, List.mem_singleton, Option.mem_toList,
    Option.mem_def, Option.bind_eq_some_iff, nonblank_eq_some, Option.some.injEq,
    exists_eq_left']

/-- A wanted identifier is one of the tenant's. -/
theorem mem_identifiers_of_wanted {token : Text} (h : tenantId.strip ≠ [])
    (hwanted : token ∈ wantedIdentifiers tenants tenantId) :
    token ∈ currentTenantIdentifiers tenants none (some tenantId) := by
  rw [currentTenantIdentifiers_eq h]
  rcases (mem_wantedIdentifiers h).mp hwanted with rfl | ⟨row, hrow, rfl, hne⟩
  · exact List.mem_cons_self
  · rw [Option.mem_def.mp hrow]
    exact List.mem_cons_of_mem _ (List.mem_filter.mpr ⟨List.mem_cons_self, by simpa using hne⟩)

theorem wantedIdentifiers_nil (h : tenantId.strip = []) :
    wantedIdentifiers tenants tenantId = [] := by
  have hblank : nonblank (some tenantId) = none := by
    unfold nonblank
    rw [Option.bind_some, if_pos h]
  unfold wantedIdentifiers canonicalTenantId findTenantRow normalizedIdentifiers
  rw [List.filterMap_cons_none hblank, hblank]
  rfl

/-- An exact match denotes the tenant. -/
theorem denotes_of_exact (hexact : exactMatch tenants tenantId m) :
    Denotes tenants tenantId m := by
  obtain ⟨token, htoken, hwanted⟩ := List.any_eq_true.mp hexact
  have hmem := of_decide_eq_true hwanted
  have hstrip : tenantId.strip ≠ [] := by
    intro hblank
    rw [wantedIdentifiers_nil hblank] at hmem
    cases hmem
  exact ⟨token, htoken, mem_identifiers_of_wanted hstrip hmem⟩

theorem exact_of_mem {token : Text} (htoken : token ∈ refTokens m)
    (hwanted : token ∈ wantedIdentifiers tenants tenantId) : exactMatch tenants tenantId m :=
  List.any_eq_true.mpr ⟨token, htoken, decide_eq_true hwanted⟩

/-- Without an exact match, only the slug of the tenant's row can denote it. -/
theorem denotes_known {row : TenantRow}
    (hrow : findTenantRow tenants [some tenantId] = some row)
    (hexact : ¬ exactMatch tenants tenantId m) :
    Denotes tenants tenantId m ↔ row.slug.strip ∈ refTokens m := by
  have hstrip := strip_of_findTenantRow hrow
  unfold Denotes
  rw [currentTenantIdentifiers_eq hstrip, hrow]
  constructor
  · rintro ⟨token, htoken, hmem⟩
    rcases List.mem_cons.mp hmem with rfl | hrest
    · exact absurd (exact_of_mem htoken ((mem_wantedIdentifiers hstrip).mpr (Or.inl rfl))) hexact
    · obtain ⟨hin, hne⟩ := List.mem_filter.mp hrest
      rcases List.mem_cons.mp hin with rfl | hslug
      · have hwanted : row.id.strip ∈ wantedIdentifiers tenants tenantId :=
          (mem_wantedIdentifiers hstrip).mpr (Or.inr ⟨row, hrow, rfl, of_decide_eq_true hne⟩)
        exact absurd (exact_of_mem htoken hwanted) hexact
      · rw [← List.mem_singleton.mp hslug]
        exact htoken
  · intro hslug
    refine ⟨row.slug.strip, hslug, List.mem_cons_of_mem _ (List.mem_filter.mpr ⟨?_, ?_⟩)⟩
    · exact List.mem_cons_of_mem _ (List.mem_singleton_self _)
    · simpa using (strip_of_mem_refTokens hslug).2

theorem not_denotes_unknown (hrow : findTenantRow tenants [some tenantId] = none)
    (hstrip : tenantId.strip ≠ []) (hexact : ¬ exactMatch tenants tenantId m) :
    ¬ Denotes tenants tenantId m := by
  rintro ⟨token, htoken, hmem⟩
  rw [currentTenantIdentifiers_eq hstrip, hrow] at hmem
  rw [List.mem_singleton.mp hmem] at htoken
  exact hexact (exact_of_mem htoken ((mem_wantedIdentifiers hstrip).mpr (Or.inl rfl)))

end Match

/-! ## One list of memberships -/

section Memberships

variable {tenants : List TenantRow} {tenantId : Text} {memberships : List Membership}

/-- Without an exact match, the answer is the first canonical match. -/
theorem membershipForActiveTenant_canonical (hstrip : tenantId.strip ≠ [])
    (hexact : ¬ ∃ m ∈ memberships, exactMatch tenants tenantId m) :
    membershipForActiveTenant tenants memberships tenantId =
      memberships.find? fun m => canonicalMatch tenants tenantId m := by
  have hwanted : wantedIdentifiers tenants tenantId ≠ [] := by
    intro hnil
    have hmem : tenantId.strip ∈ wantedIdentifiers tenants tenantId :=
      (mem_wantedIdentifiers hstrip).mpr (Or.inl rfl)
    rw [hnil] at hmem
    cases hmem
  have hnone : (memberships.filter fun m => exactMatch tenants tenantId m) = [] := by
    refine List.filter_eq_nil_iff.mpr fun m hm h => hexact ⟨m, hm, h⟩
  have hrest : (memberships.filter fun m =>
      ¬ exactMatch tenants tenantId m ∧ canonicalMatch tenants tenantId m) =
      memberships.filter fun m => canonicalMatch tenants tenantId m := by
    apply List.filter_congr
    intro m hm
    have hnot : ¬ exactMatch tenants tenantId m := fun h => hexact ⟨m, hm, h⟩
    simp [hnot]
  unfold membershipForActiveTenant
  rw [if_neg hwanted]
  simp only
  rw [hnone, hrest, List.head?_nil, Option.none_or, List.head?_filter]

/-- With an exact match, the answer is one. -/
theorem membershipForActiveTenant_exact
    (hexact : ∃ m ∈ memberships, exactMatch tenants tenantId m) {m : Membership}
    (h : membershipForActiveTenant tenants memberships tenantId = some m) :
    exactMatch tenants tenantId m := by
  obtain ⟨found, hfound, hfoundExact⟩ := hexact
  unfold membershipForActiveTenant at h
  split at h
  · cases h
  · dsimp only at h
    cases hhead : (memberships.filter fun m => exactMatch tenants tenantId m).head? with
    | none =>
        have hnil := List.head?_eq_none_iff.mp hhead
        have hmem := List.mem_filter.mpr ⟨hfound, hfoundExact⟩
        rw [hnil] at hmem
        cases hmem
    | some first =>
        rw [hhead, Option.some_or] at h
        cases h
        exact (List.mem_filter.mp (List.mem_of_head? hhead)).2

/-- The answer for a tenant denotes it exactly where the memberships are resolved. -/
theorem membershipForActiveTenant_denotes :
    (∀ m, membershipForActiveTenant tenants memberships tenantId = some m →
      Denotes tenants tenantId m) ↔ Resolved tenants tenantId memberships := by
  by_cases hexact : ∃ m ∈ memberships, exactMatch tenants tenantId m
  · refine iff_of_true ?_ (Or.inl hexact)
    intro m hm
    exact denotes_of_exact (membershipForActiveTenant_exact hexact hm)
  by_cases hstrip : tenantId.strip = []
  · have hnone : membershipForActiveTenant tenants memberships tenantId = none := by
      unfold membershipForActiveTenant
      rw [if_pos (wantedIdentifiers_nil hstrip)]
    have hrow : findTenantRow tenants [some tenantId] = none := by
      cases hfound : findTenantRow tenants [some tenantId] with
      | none => rfl
      | some row => exact absurd hstrip (strip_of_findTenantRow hfound)
    refine iff_of_true ?_ (Or.inr ?_)
    · intro m hm
      rw [hnone] at hm
      cases hm
    · rw [hrow]
      exact Or.inl hstrip
  rw [membershipForActiveTenant_canonical hstrip hexact]
  have hnotExact : ∀ m ∈ memberships, ¬ exactMatch tenants tenantId m :=
    fun m hm h => hexact ⟨m, hm, h⟩
  unfold Resolved
  rw [or_iff_right hexact]
  cases hrow : findTenantRow tenants [some tenantId] with
  | some row =>
      dsimp only
      by_cases hid : row.id.strip = []
      · refine iff_of_true ?_ (Or.inl hid)
        intro m hm
        have hcanonical := List.find?_some hm
        exact absurd hid ((canonicalMatch_known hrow).mp hcanonical).1
      · rw [or_iff_right hid]
        have hsame : (memberships.find? fun m => canonicalMatch tenants tenantId m) =
            memberships.find? fun m => namesNoOther tenants tenantId m := by
          congr 1
          funext m
          rw [Bool.eq_iff_iff, canonicalMatch_known hrow]
          exact and_iff_right hid
        rw [hsame]
        constructor
        · intro h m hm
          have hm' := hnotExact m (List.mem_of_find?_eq_some hm)
          exact (denotes_known hrow hm').mp (h m hm)
        · intro h m hm
          have hm' := hnotExact m (List.mem_of_find?_eq_some hm)
          exact (denotes_known hrow hm').mpr (h m hm)
  | none =>
      dsimp only
      rw [or_iff_right hstrip]
      constructor
      · intro h
        by_contra hnot
        rw [not_or] at hnot
        obtain ⟨hnamed, hfound⟩ := hnot
        push Not at hfound
        obtain ⟨m, hm, row, hfoundRow, hid⟩ := hfound
        have hcanonical : canonicalMatch tenants tenantId m :=
          (canonicalMatch_unknown hrow hstrip).mpr ⟨hnamed, row, hfoundRow, hid⟩
        have hsome : (memberships.find? fun m => canonicalMatch tenants tenantId m).isSome :=
          List.find?_isSome.mpr ⟨m, hm, hcanonical⟩
        obtain ⟨first, hfirst⟩ := Option.isSome_iff_exists.mp hsome
        have hfirstExact := hnotExact first (List.mem_of_find?_eq_some hfirst)
        exact not_denotes_unknown hrow hstrip hfirstExact (h first hfirst)
      · intro h m hm
        obtain ⟨hnamed, row, hfoundRow, hid⟩ :=
          (canonicalMatch_unknown hrow hstrip).mp (List.find?_some hm)
        rcases h with hsome | hnone
        · exact absurd hsome hnamed
        · exact absurd hid (hnone m (List.mem_of_find?_eq_some hm) row hfoundRow)

end Memberships

/-! ## Selecting -/

/-- One of the memberships matches the tenant, exactly or canonically. -/
def Matches (tenants : List TenantRow) (tenantId : Text) (memberships : List Membership) : Prop :=
  tenantId.strip ≠ [] ∧
    ∃ m ∈ memberships, exactMatch tenants tenantId m ∨ canonicalMatch tenants tenantId m

/-- What the directory answers, where `select` asks it: the token's own match is
missing or thin, and there is a username to ask for. -/
def Selection.directoryAnswer (selection : Selection) : Option (List Membership) :=
  if activeMembershipNeedsEnrichment selection.memberships
      (membershipForActiveTenant selection.tenants selection.memberships selection.tenantId)
      selection.requireLaneGroups then
    (nonblank selection.username).bind selection.directory
  else none

/-- The memberships that the answer of `select` comes from: the directory's if it is
asked and one of them matches, and else the token's. -/
def Selection.Answering (selection : Selection) (memberships : List Membership) : Prop :=
  (selection.directoryAnswer = some memberships ∧
      Matches selection.tenants selection.tenantId memberships) ∨
    ((∀ found ∈ selection.directoryAnswer,
        ¬ Matches selection.tenants selection.tenantId found) ∧
      memberships = selection.memberships)

theorem membershipForActiveTenant_isSome {tenants : List TenantRow} {tenantId : Text}
    {memberships : List Membership} :
    (membershipForActiveTenant tenants memberships tenantId).isSome ↔
      Matches tenants tenantId memberships := by
  by_cases hstrip : tenantId.strip = []
  · have hnone : membershipForActiveTenant tenants memberships tenantId = none := by
      unfold membershipForActiveTenant
      rw [if_pos (wantedIdentifiers_nil hstrip)]
    refine iff_of_false (by rw [hnone]; exact Bool.false_ne_true) ?_
    intro h
    exact h.1 hstrip
  by_cases hexact : ∃ m ∈ memberships, exactMatch tenants tenantId m
  · obtain ⟨m, hm, hmatch⟩ := hexact
    refine iff_of_true ?_ ⟨hstrip, m, hm, Or.inl hmatch⟩
    obtain ⟨first, hfirst⟩ := Option.isSome_iff_exists.mp
      (List.find?_isSome.mpr ⟨m, hm, hmatch⟩)
    have hwanted : wantedIdentifiers tenants tenantId ≠ [] := by
      intro hnil
      unfold exactMatch at hmatch
      rw [hnil] at hmatch
      simp at hmatch
    unfold membershipForActiveTenant
    rw [if_neg hwanted]
    simp only
    rw [List.head?_filter, hfirst]
    rfl
  · rw [membershipForActiveTenant_canonical hstrip hexact, List.find?_isSome]
    constructor
    · rintro ⟨m, hm, hmatch⟩
      exact ⟨hstrip, m, hm, Or.inr hmatch⟩
    · rintro ⟨_, m, hm, hmatch | hmatch⟩
      · exact absurd ⟨m, hm, hmatch⟩ hexact
      · exact ⟨m, hm, hmatch⟩

/-- The answer is one of the memberships. -/
theorem mem_of_membershipForActiveTenant {tenants : List TenantRow} {tenantId : Text}
    {memberships : List Membership} {m : Membership}
    (h : membershipForActiveTenant tenants memberships tenantId = some m) : m ∈ memberships := by
  unfold membershipForActiveTenant at h
  split at h
  · cases h
  · dsimp only at h
    rcases Option.or_eq_some_iff.mp h with hexact | ⟨_, hcanonical⟩
    · exact (List.mem_filter.mp (List.mem_of_head? hexact)).1
    · exact (List.mem_filter.mp (List.mem_of_head? hcanonical)).1

section Select

variable {selection : Selection}

/-- `select` works with the directory's match, and without one with the token's. -/
theorem membership_eq :
    selection.membership =
      (selection.directoryAnswer.bind fun answer =>
        membershipForActiveTenant selection.tenants answer selection.tenantId).or
      (membershipForActiveTenant selection.tenants selection.memberships
        selection.tenantId) := by
  unfold Selection.membership Selection.directoryAnswer
  dsimp only
  split
  · unfold enrichActiveMembership
    cases nonblank selection.username with
    | none => rfl
    | some username =>
        simp only [Option.bind_some]
        cases selection.directory username with
        | none => rfl
        | some answer => rfl
  · rfl

/-- `select` works with the match of the list that answers. -/
theorem membership_of_answering {memberships : List Membership}
    (h : selection.Answering memberships) :
    selection.membership =
      membershipForActiveTenant selection.tenants memberships selection.tenantId := by
  rw [membership_eq]
  rcases h with ⟨hanswer, hmatches⟩ | ⟨hnone, rfl⟩
  · obtain ⟨m, hm⟩ := Option.isSome_iff_exists.mp (membershipForActiveTenant_isSome.mpr hmatches)
    rw [hanswer, Option.bind_some, hm, Option.some_or]
  · cases hanswer : selection.directoryAnswer with
    | none => rfl
    | some answer =>
        have hmiss := hnone answer hanswer
        rw [← membershipForActiveTenant_isSome, Option.not_isSome_iff_eq_none] at hmiss
        rw [Option.bind_some, hmiss, Option.none_or]

/-- There is always a list that answers. -/
theorem exists_answering (selection : Selection) :
    ∃ memberships, selection.Answering memberships := by
  by_cases h : ∃ answer ∈ selection.directoryAnswer,
      Matches selection.tenants selection.tenantId answer
  · obtain ⟨answer, hanswer, hmatches⟩ := h
    exact ⟨answer, Or.inl ⟨hanswer, hmatches⟩⟩
  · refine ⟨selection.memberships, Or.inr ⟨?_, rfl⟩⟩
    intro answer hanswer hmatches
    exact h ⟨answer, hanswer, hmatches⟩

/-- The user holds the membership, by the token or by the directory. -/
def Selection.Held (selection : Selection) (m : Membership) : Prop :=
  m ∈ selection.memberships ∨ ∃ answer ∈ selection.directoryAnswer, m ∈ answer

theorem held_of_membership {m : Membership} (h : selection.membership = some m) :
    selection.Held m := by
  obtain ⟨memberships, hanswering⟩ := exists_answering selection
  rw [membership_of_answering hanswering] at h
  have hmem := mem_of_membershipForActiveTenant h
  rcases hanswering with ⟨hanswer, _⟩ | ⟨_, rfl⟩
  · exact Or.inr ⟨memberships, hanswer, hmem⟩
  · exact Or.inl hmem

/-- A group that `select` computes for a tenant comes from a role held in an
organization that denotes the tenant, or is the platform's own. -/
def GroupFromTenant (selection : Selection) (group : Text) : Prop :=
  (group = superAdminRole ∧ superAdminRole ∈ selection.roles) ∨
    ∃ m, selection.Held m ∧ Denotes selection.tenants selection.tenantId m ∧
      ∃ name ∈ m.roles ++ m.groups, name.strip ∈ validTenantRoleNames ∧
        group = Text.strip (qualifyGroupIdentifier selection.current name.strip
          (some (select selection).tenantId))

theorem mem_addAll {values : List Text} {s : Text} :
    s ∈ addAll values ↔ s ≠ [] ∧ ∃ value ∈ values, value.strip = s := by
  unfold addAll
  rw [List.mem_eraseDups, List.mem_filter, List.mem_map, decide_eq_true_eq, and_comm]

/-- Where a group identifier of a membership comes from. -/
theorem mem_groupIdentifiersForMembership {current : Option Text} {membership : Option Membership}
    {roles : List Text} {tenantId group : Text}
    (h : group ∈ groupIdentifiersForMembership current membership roles tenantId) :
    (group = superAdminRole ∧ superAdminRole ∈ roles) ∨
      ∃ m, membership = some m ∧
        ∃ name ∈ m.roles ++ m.groups, name.strip ∈ validTenantRoleNames ∧
          group = Text.strip (qualifyGroupIdentifier current name.strip (some tenantId)) := by
  obtain ⟨_, value, hvalue, hstrip⟩ := mem_addAll.mp h
  rcases List.mem_append.mp hvalue with hglobal | hname
  · left
    split at hglobal
    · rename_i hrole
      rw [List.mem_singleton.mp hglobal] at hstrip
      exact ⟨hstrip.symm.trans (by decide), hrole⟩
    · cases hglobal
  · right
    obtain ⟨name, hin, rfl⟩ := List.mem_map.mp hname
    cases membership with
    | none => cases hin
    | some m =>
        obtain ⟨hmapped, hvalid⟩ := List.mem_filter.mp hin
        obtain ⟨given, hgiven, rfl⟩ := List.mem_map.mp hmapped
        exact ⟨m, rfl, given, hgiven, of_decide_eq_true hvalid, hstrip.symm⟩

/-- Where a group of the selection comes from. -/
theorem group_cases {group : Text} (h : group ∈ (select selection).groupIdentifiers) :
    (group = superAdminRole ∧ superAdminRole ∈ selection.roles) ∨
      ∃ m, selection.membership = some m ∧
        ∃ name ∈ m.roles ++ m.groups, name.strip ∈ validTenantRoleNames ∧
          group = Text.strip (qualifyGroupIdentifier selection.current name.strip
            (some (select selection).tenantId)) :=
  mem_groupIdentifiersForMembership h

end Select

/-- Selection stays within the organization exactly where the memberships that answer
are resolved: for `membership_for_active_tenant` that is the given list, for `select`
the directory's list where it is asked and has a match, and else the token's. -/
theorem selection_within_organization (tenants : List TenantRow) (memberships : List Membership)
    (tenantId : Text) (selection : Selection) :
    ((∀ m, membershipForActiveTenant tenants memberships tenantId = some m →
        Denotes tenants tenantId m) ↔ Resolved tenants tenantId memberships) ∧
      (((∀ m, (select selection).membership = some m →
          Denotes selection.tenants selection.tenantId m) ∧
        ∀ group ∈ (select selection).groupIdentifiers, GroupFromTenant selection group) ↔
      ∃ memberships, selection.Answering memberships ∧
        Resolved selection.tenants selection.tenantId memberships) := by
  refine ⟨membershipForActiveTenant_denotes, ?_⟩
  constructor
  · rintro ⟨hmembership, _⟩
    obtain ⟨memberships, hanswering⟩ := exists_answering selection
    refine ⟨memberships, hanswering, membershipForActiveTenant_denotes.mp ?_⟩
    intro m hm
    exact hmembership m ((membership_of_answering hanswering).trans hm)
  · rintro ⟨memberships, hanswering, hresolved⟩
    have hmembership : ∀ m, (select selection).membership = some m →
        Denotes selection.tenants selection.tenantId m := by
      intro m hm
      have hfound := (membership_of_answering hanswering).symm.trans hm
      exact membershipForActiveTenant_denotes.mpr hresolved m hfound
    refine ⟨hmembership, ?_⟩
    intro group hgroup
    rcases group_cases hgroup with hglobal | ⟨m, hm, hname⟩
    · exact Or.inl hglobal
    · exact Or.inr ⟨m, held_of_membership hm, hmembership m hm, hname⟩

/-- The tenant `t1`, and a membership in an organization that no tenant row names. -/
def tenantT1 : TenantRow := ⟨"t1".toList, "acme".toList⟩

def foreignMembership : Membership :=
  ⟨⟨some "org-9".toList, some "other".toList, none⟩, ["editor".toList], [], false⟩

/-- The foreign membership resolves, together with the tenant's own id, to the tenant's
row: its role becomes a group of the tenant. -/
theorem foreign_membership_selected :
    (select
      { memberships := [foreignMembership], roles := [], tenantId := "t1".toList,
        username := some "ann".toList, directory := fun _ => none, tenants := [tenantT1],
        requireLaneGroups := false, current := none }) =
      { tenantId := "t1".toList, membership := some foreignMembership,
        groupIdentifiers := ["t1:editor".toList], laneGroupIdentifiers := [] } ∧
    ¬ Denotes [tenantT1] "t1".toList foreignMembership := by
  refine ⟨by decide, ?_⟩
  rintro ⟨token, htoken, hmem⟩
  have hnone : ∀ token ∈ refTokens foreignMembership,
      token ∉ currentTenantIdentifiers [tenantT1] none (some "t1".toList) := by decide
  exact hnone token htoken hmem

end M8flow.Auth
