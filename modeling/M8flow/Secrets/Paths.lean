import M8flow.Lib.Percent

/-!
# Paths of secrets

`secrets/paths.py`.  A tenant has one component of every path, its id percent-encoded, so
two tenants have different roots, and no root lies inside another.

- `secretRoot_eq` and `secretPath_eq` say what the paths are;
- `encodedComponent_inj` and `eq_of_slash_prefix` keep two tenants apart;
- `cleanPart_rootText` says when a path lies in the root it was made from.
-/

namespace M8flow.Secrets

open M8flow.Lib

/-- The configuration of `secrets`. -/
structure Config where
  mountPoint : Text
  approleMountPoint : Text
  secretPathPrefix : Text
  tenantPolicyPrefix : Text
  tenantRolePrefix : Text
  deriving Repr, DecidableEq

/-- `part.strip().strip("/")`. -/
def cleanPart (part : Text) : Text := Text.stripWhere (· == '/') part.strip

/-- `join_vault_path`. -/
def joinVaultPath (parts : List Text) : Text :=
  ['/'].intercalate ((parts.map cleanPart).filter fun part => part ≠ [])

/-- A tenant's id, trimmed and percent-encoded. -/
def encodedComponent (tenantId : Text) : Text :=
  Percent.quote ['.', '_', '-'] tenantId.strip

/-- `encode_tenant_component`. -/
def encodeTenantComponent (tenantId : Text) : Except String Text :=
  if tenantId.strip = [] then .error "tenant_id must not be empty."
  else .ok (encodedComponent tenantId)

/-- `secret_root`. -/
def secretRoot (config : Config) (tenantId : Text) : Except String Text :=
  (encodeTenantComponent tenantId).map fun component =>
    joinVaultPath [config.secretPathPrefix, "tenants".toList, component, "secrets".toList]

/-- `\w` of a pattern; `unicode` is its table outside ASCII. -/
def isWord (unicode : Char → Bool) (c : Char) : Bool :=
  if c.toNat < 128 then c.isAlphanum || c == '_' else unicode c

/-- `secret_path`. -/
def secretPath (config : Config) (unicode : Char → Bool) (tenantId key : Text) :
    Except String Text :=
  let cleaned := key.strip
  if cleaned = [] then .error "secret key must not be empty."
  else if Text.hasInfix ['.', '.'] cleaned || cleaned.contains '/' ||
      !cleaned.all (isWord unicode) then
    .error "secret key must be a word (letters, digits, underscore)."
  else (secretRoot config tenantId).map fun root => joinVaultPath [root, cleaned]

/-! ## Components -/

theorem slash_not_mem_encodedComponent (tenantId : Text) : '/' ∉ encodedComponent tenantId := by
  intro h
  rcases Percent.mem_quote h with hpercent | hsafe
  · revert hpercent
    decide
  · revert hsafe
    decide

theorem encodedComponent_inj {tenantId other : Text}
    (h : encodedComponent tenantId = encodedComponent other) : tenantId.strip = other.strip :=
  Percent.quote_inj (by decide) h

theorem encodedComponent_ne_nil {tenantId : Text} (h : tenantId.strip ≠ []) :
    encodedComponent tenantId ≠ [] := Percent.quote_ne_nil (by decide) h

theorem encodedComponent_strip (tenantId : Text) :
    encodedComponent tenantId.strip = encodedComponent tenantId := by
  unfold encodedComponent
  rw [Text.strip_strip]

theorem stripSlashes {part : Text} (h : '/' ∉ part) :
    Text.stripWhere (· == '/') part = part := by
  apply Text.stripWhere_eq_self_of_ends
  · intro c hc heq
    exact h (beq_iff_eq.mp heq ▸ List.mem_of_head? hc)
  · intro c hc heq
    exact h (beq_iff_eq.mp heq ▸ List.mem_of_getLast? hc)

/-- A part without white space and slashes is joined as it is. -/
theorem cleanPart_eq_self {part : Text} (hspace : ∀ c ∈ part, Text.isSpace c = false)
    (hslash : '/' ∉ part) : cleanPart part = part := by
  have hstrip : part.strip = part := by
    apply Text.stripWhere_eq_self_of_ends
    · intro c hc
      rw [hspace c (List.mem_of_head? hc)]
      exact Bool.false_ne_true
    · intro c hc
      rw [hspace c (List.mem_of_getLast? hc)]
      exact Bool.false_ne_true
  unfold cleanPart
  rw [hstrip, stripSlashes hslash]

theorem not_isSpace_of_mem_marks : ∀ c ∈ ['.', '_', '-'], Text.isSpace c = false := by
  intro c hc
  simp only [List.mem_cons, List.not_mem_nil, or_false] at hc
  obtain rfl | rfl | rfl := hc <;> decide

theorem cleanPart_encodedComponent (tenantId : Text) :
    cleanPart (encodedComponent tenantId) = encodedComponent tenantId :=
  cleanPart_eq_self (fun _ hc => Percent.not_isSpace_of_mem_quote not_isSpace_of_mem_marks hc)
    (slash_not_mem_encodedComponent tenantId)

/-- Texts without a slash before their first slash are equal, if one path begins the
other. -/
theorem eq_of_slash_prefix {u v s t : Text} (hu : '/' ∉ u) (hv : '/' ∉ v)
    (h : u ++ '/' :: s <+: v ++ '/' :: t) : u = v := by
  induction u generalizing v with
  | nil =>
      cases v with
      | nil => rfl
      | cons d v =>
          rw [List.nil_append, List.cons_append, List.cons_prefix_cons] at h
          exact absurd (h.1 ▸ List.mem_cons_self) hv
  | cons c u ih =>
      cases v with
      | nil =>
          rw [List.nil_append, List.cons_append, List.cons_prefix_cons] at h
          exact absurd (h.1 ▸ List.mem_cons_self) hu
      | cons d v =>
          rw [List.cons_append, List.cons_append, List.cons_prefix_cons] at h
          obtain ⟨rfl, h⟩ := h
          rw [ih (fun hmem => hu (List.mem_cons_of_mem _ hmem))
            (fun hmem => hv (List.mem_cons_of_mem _ hmem)) h]

/-! ## Roots -/

/-- The prefix of every root, with the slash after it. -/
def rootPrefix (config : Config) : Text :=
  if cleanPart config.secretPathPrefix = [] then []
  else cleanPart config.secretPathPrefix ++ ['/']

/-- The root of a tenant. -/
def rootText (config : Config) (tenantId : Text) : Text :=
  rootPrefix config ++ ("tenants/".toList ++ (encodedComponent tenantId ++ "/secrets".toList))

theorem secretRoot_eq {config : Config} {tenantId : Text} (h : tenantId.strip ≠ []) :
    secretRoot config tenantId = .ok (rootText config tenantId) := by
  unfold secretRoot encodeTenantComponent
  rw [if_neg h]
  show Except.ok (joinVaultPath _) = _
  have htenants : cleanPart "tenants".toList = "tenants".toList := by decide
  have hsecrets : cleanPart "secrets".toList = "secrets".toList := by decide
  have hcomponent := encodedComponent_ne_nil h
  unfold joinVaultPath rootText rootPrefix
  rw [List.map_cons, List.map_cons, List.map_cons, List.map_cons, List.map_nil, htenants,
    hsecrets, cleanPart_encodedComponent]
  by_cases hempty : cleanPart config.secretPathPrefix = []
  · simp [hempty, hcomponent, List.intercalate]
  · simp [hempty, hcomponent, List.intercalate]

/-- The root made of a text without tenant is none. -/
theorem strip_ne_nil_of_secretRoot {config : Config} {tenantId root : Text}
    (h : secretRoot config tenantId = .ok root) : tenantId.strip ≠ [] := by
  intro hnil
  unfold secretRoot encodeTenantComponent at h
  rw [if_pos hnil] at h
  cases h

theorem rootText_strip (config : Config) (tenantId : Text) :
    rootText config tenantId.strip = rootText config tenantId := by
  unfold rootText
  rw [encodedComponent_strip]

/-- The prefix does not begin with white space once its slashes are off. -/
def PrefixTight (config : Config) : Prop :=
  ∀ c ∈ (cleanPart config.secretPathPrefix).head?, Text.isSpace c = false

instance (config : Config) : Decidable (PrefixTight config) :=
  Option.decidableForallMem (cleanPart config.secretPathPrefix).head?

theorem getLast?_rootText (config : Config) (tenantId : Text) :
    (rootText config tenantId).getLast? = some 's' := by
  unfold rootText
  rw [List.getLast?_append, List.getLast?_append, List.getLast?_append]
  rfl

theorem length_cleanPart (part : Text) : (cleanPart part).length ≤ part.strip.length :=
  (Text.stripWhere_isInfix part.strip).length_le

theorem cleanPart_isInfix (part : Text) : cleanPart part <:+: part :=
  (Text.stripWhere_isInfix part.strip).trans (Text.stripWhere_isInfix part)

theorem cleanPart_rootText_ne_nil (config : Config) (tenantId : Text) :
    cleanPart (rootText config tenantId) ≠ [] := by
  have hspace := Text.getLast?_stripWhere (p := Text.isSpace)
    (getLast?_rootText config tenantId) (by decide)
  have hclean := Text.getLast?_stripWhere (p := fun c => c == '/') hspace (by decide)
  intro hnil
  have hlast : (cleanPart (rootText config tenantId)).getLast? = some 's' := hclean
  rw [hnil] at hlast
  cases hlast

/-- The first character of a root is that of the prefix, or of `tenants`. -/
theorem head?_rootText (config : Config) (tenantId : Text) :
    (rootText config tenantId).head? =
      (cleanPart config.secretPathPrefix).head?.or (some 't') := by
  unfold rootText rootPrefix
  split
  · rename_i hempty
    rw [hempty]
    rfl
  · rename_i hne
    obtain ⟨c, rest, hcons⟩ := List.exists_cons_of_ne_nil hne
    rw [hcons]
    rfl

/-- The first character of a cleaned part is no slash. -/
theorem head?_cleanPart {part : Text} {c : Char} (h : (cleanPart part).head? = some c) :
    c ≠ '/' := by
  obtain ⟨rest, hcons⟩ := List.head?_eq_some_iff.mp h
  have hne : cleanPart part ≠ [] := by
    rw [hcons]
    exact List.cons_ne_nil _ _
  intro heq
  apply Text.stripWhere_head hne
  have hfirst : (cleanPart part).head hne = c :=
    Option.some.inj ((List.head?_eq_some_head hne).symm.trans h)
  rw [heq] at hfirst
  exact beq_iff_eq.mpr hfirst

/-- Slashes are stripped from no text that begins and ends with something else. -/
theorem stripSlashes_of_ends {s : Text} (hhead : ∀ c, s.head? = some c → c ≠ '/')
    (hlast : ∀ c, s.getLast? = some c → c ≠ '/') : Text.stripWhere (· == '/') s = s :=
  Text.stripWhere_eq_self_of_ends (fun c hc heq => hhead c hc (beq_iff_eq.mp heq))
    (fun c hc heq => hlast c hc (beq_iff_eq.mp heq))

theorem stripSlashes_rootText (config : Config) (tenantId : Text) :
    Text.stripWhere (· == '/') (rootText config tenantId) = rootText config tenantId := by
  apply stripSlashes_of_ends
  · intro c hc
    rw [head?_rootText] at hc
    rcases Option.or_eq_some_iff.mp hc with hfirst | ⟨_, ht⟩
    · exact head?_cleanPart hfirst
    · cases ht
      decide
  · intro c hc
    rw [getLast?_rootText] at hc
    cases hc
    decide

/-- A path lies in the root it was made from, if the prefix is tight. -/
theorem cleanPart_rootText {config : Config} (h : PrefixTight config) (tenantId : Text) :
    cleanPart (rootText config tenantId) = rootText config tenantId := by
  have hstrip : (rootText config tenantId).strip = rootText config tenantId := by
    apply Text.stripWhere_eq_self_of_ends
    · intro c hc
      rw [head?_rootText] at hc
      rcases Option.or_eq_some_iff.mp hc with hfirst | ⟨_, ht⟩
      · rw [h c hfirst]
        exact Bool.false_ne_true
      · cases ht
        decide
    · intro c hc
      rw [getLast?_rootText] at hc
      cases hc
      decide
  unfold cleanPart
  rw [hstrip, stripSlashes_rootText]

/-- A prefix that is not tight makes every path shorter than its root. -/
theorem prefixTight_of_length {config : Config} {tenantId : Text}
    (h : (rootText config tenantId).length ≤ (cleanPart (rootText config tenantId)).length) :
    PrefixTight config := by
  intro c hc
  by_contra hspace
  rw [Bool.not_eq_false] at hspace
  have hhead : (rootText config tenantId).head? = some c := by
    rw [head?_rootText, hc, Option.some_or]
  obtain ⟨rest, hcons⟩ := List.head?_eq_some_iff.mp hhead
  have hshorter : (rootText config tenantId).strip.length ≤ rest.length := by
    rw [hcons]
    unfold Text.strip Text.stripWhere
    rw [List.dropWhile_cons_of_pos hspace]
    exact Nat.le_trans (List.rdropWhile_prefix _ _).length_le
      (List.dropWhile_sublist _).length_le
  have hclean := length_cleanPart (rootText config tenantId)
  have hlength : (rootText config tenantId).length = rest.length + 1 := by
    rw [hcons, List.length_cons]
  omega

/-- What the path of a secret is. -/
theorem secretPath_eq {config : Config} {unicode : Char → Bool} {tenantId key path : Text}
    (h : secretPath config unicode tenantId key = .ok path) :
    '/' ∉ key.strip ∧ key.strip ≠ [] ∧
      path = cleanPart (rootText config tenantId) ++ '/' :: key.strip := by
  unfold secretPath at h
  dsimp only at h
  split at h
  · cases h
  · rename_i hempty
    split at h
    · cases h
    · rename_i hword
      cases hroot : secretRoot config tenantId with
      | error message =>
          rw [hroot] at h
          cases h
      | ok root =>
          have htenant := strip_ne_nil_of_secretRoot hroot
          rw [secretRoot_eq htenant] at hroot
          cases hroot
          rw [secretRoot_eq htenant] at h
          have hpath : joinVaultPath [rootText config tenantId, key.strip] = path :=
            Except.ok.inj h
          have hslash : '/' ∉ key.strip := by
            intro hmem
            apply hword
            simp [hmem]
          have hkey : cleanPart key.strip = key.strip := by
            unfold cleanPart
            rw [Text.strip_strip, stripSlashes hslash]
          refine ⟨hslash, hempty, hpath.symm.trans ?_⟩
          have hroot := cleanPart_rootText_ne_nil config tenantId
          unfold joinVaultPath
          rw [List.map_cons, List.map_cons, List.map_nil, hkey]
          simp [hroot, hempty, List.intercalate]

/-- A path is requested as it is. -/
theorem stripSlashes_path (config : Config) (tenantId : Text) {key : Text} (hne : key ≠ [])
    (hslash : '/' ∉ key) :
    Text.stripWhere (· == '/') (cleanPart (rootText config tenantId) ++ '/' :: key) =
      cleanPart (rootText config tenantId) ++ '/' :: key := by
  have hroot := cleanPart_rootText_ne_nil config tenantId
  apply stripSlashes_of_ends
  · intro c hc
    obtain ⟨first, rest, hcons⟩ := List.exists_cons_of_ne_nil hroot
    have hhead : (cleanPart (rootText config tenantId)).head? = some c := by
      rw [hcons] at hc ⊢
      exact hc
    exact head?_cleanPart hhead
  · intro c hc
    rw [List.getLast?_append, List.getLast?_cons, List.getLast?_eq_some_getLast hne] at hc
    cases hc
    exact fun heq => hslash (heq ▸ List.getLast_mem hne)

/-- Every tenant has a path for every word of ASCII letters, such as this one. -/
theorem secretPath_letter (config : Config) (unicode : Char → Bool) {tenantId : Text}
    (h : tenantId.strip ≠ []) :
    secretPath config unicode tenantId ['k'] =
      .ok (cleanPart (rootText config tenantId) ++ ['/', 'k']) := by
  have hroot := cleanPart_rootText_ne_nil config tenantId
  have hkey : Text.strip ['k'] = ['k'] := by decide
  have hclean : cleanPart ['k'] = ['k'] := by decide
  have hdots : Text.hasInfix ['.', '.'] ['k'] = false := by decide
  have hword : isWord unicode 'k' = true := by
    unfold isWord
    rw [if_pos (by decide)]
    decide
  unfold secretPath
  rw [secretRoot_eq h]
  dsimp only
  rw [hkey]
  simp [hdots, hword, Except.map, joinVaultPath, hclean, hroot, List.intercalate]

end M8flow.Secrets
