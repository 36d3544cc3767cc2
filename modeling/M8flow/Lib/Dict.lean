import Mathlib.Data.List.Nodup

/-!
# Dictionaries and deltas

Python dictionaries with `get`, `{**base, **updates}` and `pop(key, None)`, and the
delta that turns one dictionary into another.

Two dictionaries are equal in Python when they have the same value at every key:
`Dict.Same`.  Each operation has one lemma that says what is at every key afterwards.
`Delta.Between` says which deltas describe the step from one dictionary to another, and
`apply_same` that applying such a delta makes the step.
-/

namespace M8flow.Lib

variable {κ ν : Type*}

/-- A dictionary, in insertion order. -/
structure Dict (κ ν : Type*) where
  entries : List (κ × ν)
  keys_nodup : (entries.map Prod.fst).Nodup

namespace Dict

/-- `{}`. -/
def empty : Dict κ ν where
  entries := []
  keys_nodup := List.nodup_nil

/-- `d.keys()`. -/
def keys (d : Dict κ ν) : List κ := d.entries.map Prod.fst

/-- `d.values()`. -/
def values (d : Dict κ ν) : List ν := d.entries.map Prod.snd

/-- The same keys with other values. -/
def mapValues {μ : Type*} (f : ν → μ) (d : Dict κ ν) : Dict κ μ where
  entries := d.entries.map fun entry => (entry.1, f entry.2)
  keys_nodup := by
    rw [List.map_map]
    exact d.keys_nodup

theorem keys_mapValues {μ : Type*} (f : ν → μ) (d : Dict κ ν) : (d.mapValues f).keys = d.keys := by
  unfold keys mapValues
  rw [List.map_map]
  rfl

/-- Dictionaries with the same entries are the same. -/
theorem eq_of_entries {d other : Dict κ ν} (h : d.entries = other.entries) : d = other := by
  cases d
  cases other
  cases h
  rfl

/-- `{key: value for key, value in d.items() if p(key)}`. -/
def keep (p : κ → Bool) (d : Dict κ ν) : Dict κ ν where
  entries := d.entries.filter fun entry => p entry.1
  keys_nodup := List.Nodup.sublist (List.filter_sublist.map Prod.fst) d.keys_nodup

theorem keep_keep (p q : κ → Bool) (d : Dict κ ν) :
    (d.keep p).keep q = (d.keep q).keep p := by
  apply eq_of_entries
  exact List.filter_comm _ _ _

theorem keep_idem (p : κ → Bool) (d : Dict κ ν) : (d.keep p).keep p = d.keep p := by
  apply eq_of_entries
  show (d.entries.filter _).filter _ = d.entries.filter _
  rw [List.filter_filter]
  simp only [Bool.and_self]

/-- A dictionary in which nothing goes. -/
theorem keep_eq_self {p : κ → Bool} {d : Dict κ ν} (h : ∀ key ∈ d.keys, p key = true) :
    d.keep p = d := by
  apply eq_of_entries
  apply List.filter_eq_self.mpr
  intro entry hentry
  exact h entry.1 (List.mem_map_of_mem hentry)

theorem keep_eq_empty {p : κ → Bool} {d : Dict κ ν} (h : ∀ key ∈ d.keys, p key = false) :
    d.keep p = empty := by
  apply eq_of_entries
  apply List.filter_eq_nil_iff.mpr
  intro entry hentry
  rw [h entry.1 (List.mem_map_of_mem hentry)]
  exact Bool.false_ne_true

variable [DecidableEq κ]

/-- `d.get(key)`. -/
def get? (d : Dict κ ν) (key : κ) : Option ν :=
  (d.entries.find? fun entry => entry.1 = key).map Prod.snd

theorem get?_eq_none {d : Dict κ ν} {key : κ} : d.get? key = none ↔ key ∉ d.keys := by
  unfold get? keys
  rw [Option.map_eq_none_iff, List.find?_eq_none]
  constructor
  · intro h hmem
    obtain ⟨entry, hentry, hkey⟩ := List.mem_map.mp hmem
    exact h entry hentry (decide_eq_true hkey)
  · intro h entry hentry hkey
    exact h (List.mem_map.mpr ⟨entry, hentry, of_decide_eq_true hkey⟩)

theorem mem_keys_of_get? {d : Dict κ ν} {key : κ} {value : ν} (h : d.get? key = some value) :
    key ∈ d.keys := by
  by_contra hmem
  rw [get?_eq_none.mpr hmem] at h
  cases h

/-- What is in the entries is what `get` finds. -/
theorem get?_of_mem {d : Dict κ ν} {key : κ} {value : ν} (h : (key, value) ∈ d.entries) :
    d.get? key = some value := by
  obtain ⟨entries, hnodup⟩ := d
  unfold get?
  dsimp only at h ⊢
  induction entries with
  | nil => cases h
  | cons first entries ih =>
      rw [List.map_cons, List.nodup_cons] at hnodup
      rcases List.mem_cons.mp h with hfirst | hrest
      · rw [← hfirst, List.find?_cons_of_pos (by simp)]
        rfl
      · have hne : first.1 ≠ key := by
          intro hkey
          exact hnodup.1 (hkey ▸ List.mem_map_of_mem (f := Prod.fst) hrest)
        rw [List.find?_cons_of_neg (by simpa using hne)]
        exact ih hnodup.2 hrest

theorem get?_eq_some {d : Dict κ ν} {key : κ} {value : ν} :
    d.get? key = some value ↔ (key, value) ∈ d.entries := by
  constructor
  · intro h
    obtain ⟨entry, hentry, hvalue⟩ := Option.map_eq_some_iff.mp h
    have hkey := List.find?_some hentry
    rw [decide_eq_true_eq] at hkey
    rw [← hkey, ← hvalue]
    exact List.mem_of_find?_eq_some hentry
  · exact get?_of_mem

/-- Equality of dictionaries: the order of the entries does not count. -/
def Same (d other : Dict κ ν) : Prop := ∀ key, d.get? key = other.get? key

theorem Same.refl (d : Dict κ ν) : d.Same d := fun _ => rfl

theorem get?_mapValues {μ : Type*} (f : ν → μ) (d : Dict κ ν) (key : κ) :
    (d.mapValues f).get? key = (d.get? key).map f := by
  unfold get? mapValues
  dsimp only
  rw [List.find?_map, Option.map_map, Option.map_map]
  rfl

/-- `{**d, **updates}`. -/
def merge (d updates : Dict κ ν) : Dict κ ν where
  entries := (d.entries.map fun entry => (entry.1, (updates.get? entry.1).getD entry.2)) ++
    updates.entries.filter fun entry => entry.1 ∉ d.keys
  keys_nodup := by
    have hold : ((d.entries.map fun entry =>
        (entry.1, (updates.get? entry.1).getD entry.2)).map Prod.fst) = d.keys := by
      rw [List.map_map]
      rfl
    rw [List.map_append, hold, List.nodup_append]
    refine ⟨d.keys_nodup, ?_, ?_⟩
    · exact List.Nodup.sublist (List.filter_sublist.map Prod.fst) updates.keys_nodup
    · intro key hkey other hother hsame
      obtain ⟨entry, hentry, hfst⟩ := List.mem_map.mp hother
      have hnew := of_decide_eq_true (List.mem_filter.mp hentry).2
      exact hnew (by rw [hfst, ← hsame]; exact hkey)

/-- `d[key] = value`. -/
def set (d : Dict κ ν) (key : κ) (value : ν) : Dict κ ν :=
  d.merge { entries := [(key, value)], keys_nodup := List.nodup_singleton _ }

/-- `d.setdefault(key, value)`. -/
def setDefault (d : Dict κ ν) (key : κ) (value : ν) : Dict κ ν :=
  if (d.get? key).isSome then d else d.set key value

/-- `d.pop(key, None)`. -/
def pop (d : Dict κ ν) (key : κ) : Dict κ ν where
  entries := d.entries.filter fun entry => entry.1 ≠ key
  keys_nodup := List.Nodup.sublist (List.filter_sublist.map Prod.fst) d.keys_nodup

theorem get?_merge (d updates : Dict κ ν) (key : κ) :
    (d.merge updates).get? key = (updates.get? key).or (d.get? key) := by
  have hold : ((d.entries.map fun entry =>
      (entry.1, (updates.get? entry.1).getD entry.2)).find? fun entry => entry.1 = key).map Prod.snd =
        (d.get? key).map fun value => (updates.get? key).getD value := by
    unfold get?
    induction d.entries with
    | nil => rfl
    | cons entry entries ih =>
        rw [List.map_cons]
        by_cases hkey : entry.1 = key
        · rw [List.find?_cons_of_pos (by simpa using hkey),
            List.find?_cons_of_pos (by simpa using hkey)]
          dsimp only [Option.map_some]
          rw [hkey]
        · rw [List.find?_cons_of_neg (by simpa using hkey),
            List.find?_cons_of_neg (by simpa using hkey)]
          exact ih
  have hsplit : (d.merge updates).get? key =
      ((d.get? key).map fun value => (updates.get? key).getD value).or
        (((updates.entries.filter fun entry => entry.1 ∉ d.keys).find? fun entry =>
          entry.1 = key).map Prod.snd) := by
    rw [← hold]
    unfold get? merge
    dsimp only
    rw [List.find?_append, Option.map_or]
    rfl
  rw [hsplit]
  cases hget : d.get? key with
  | some value =>
      cases updates.get? key with
      | none => rfl
      | some update => rfl
  | none =>
      have hnew := get?_eq_none.mp hget
      rw [Option.map_none, Option.none_or, Option.or_none, List.find?_filter]
      unfold get?
      congr 2
      funext entry
      by_cases hkey : entry.1 = key
      · simp [hkey, hnew]
      · simp [hkey]

theorem get?_set (d : Dict κ ν) (key other : κ) (value : ν) :
    (d.set key value).get? other = if other = key then some value else d.get? other := by
  unfold set
  rw [get?_merge]
  by_cases hkey : key = other
  · rw [if_pos hkey.symm]
    simp [get?, hkey]
  · rw [if_neg (Ne.symm hkey)]
    simp [get?, hkey]

theorem get?_setDefault (d : Dict κ ν) (key other : κ) (value : ν) :
    (d.setDefault key value).get? other =
      (d.get? other).or (if other = key then some value else none) := by
  unfold setDefault
  cases hget : d.get? key with
  | some old =>
      rw [Option.isSome_some, if_pos rfl]
      split
      · rename_i hkey
        rw [hkey, hget, Option.some_or]
      · rw [Option.or_none]
  | none =>
      rw [Option.isSome_none, if_neg Bool.false_ne_true, get?_set]
      split
      · rename_i hkey
        rw [hkey, hget, Option.none_or]
      · rw [Option.or_none]

theorem merge_empty (d : Dict κ ν) : d.merge empty = d := by
  apply eq_of_entries
  show (d.entries.map fun entry => (entry.1, entry.2)) ++ [] = d.entries
  rw [List.append_nil]
  exact List.map_id' d.entries

theorem mem_keys_iff {d : Dict κ ν} {key : κ} : key ∈ d.keys ↔ d.get? key ≠ none := by
  rw [Ne, get?_eq_none, not_not]

theorem mem_keys_merge {d updates : Dict κ ν} {key : κ} :
    key ∈ (d.merge updates).keys ↔ key ∈ d.keys ∨ key ∈ updates.keys := by
  rw [mem_keys_iff, mem_keys_iff, mem_keys_iff, get?_merge, Ne, Option.or_eq_none_iff, not_and_or,
    or_comm]

theorem get?_keep (p : κ → Bool) (d : Dict κ ν) (key : κ) :
    (d.keep p).get? key = if p key then d.get? key else none := by
  unfold get? keep
  dsimp only
  rw [List.find?_filter]
  cases hp : p key with
  | true =>
      rw [if_pos rfl]
      congr 2
      funext entry
      by_cases hkey : entry.1 = key
      · simp [hkey, hp]
      · simp [hkey]
  | false =>
      rw [if_neg Bool.false_ne_true, Option.map_eq_none_iff, List.find?_eq_none]
      intro entry _
      by_cases hkey : entry.1 = key
      · simp [hkey, hp]
      · simp [hkey]

theorem mem_keys_keep {p : κ → Bool} {d : Dict κ ν} {key : κ} :
    key ∈ (d.keep p).keys ↔ key ∈ d.keys ∧ p key = true := by
  rw [mem_keys_iff, mem_keys_iff, get?_keep]
  cases p key with
  | true => simp
  | false => simp

/-- A choice of keys goes through an update. -/
theorem keep_merge (p : κ → Bool) (d updates : Dict κ ν) :
    (d.merge updates).keep p = (d.keep p).merge (updates.keep p) := by
  apply eq_of_entries
  show ((d.entries.map fun entry => (entry.1, (updates.get? entry.1).getD entry.2)) ++
      updates.entries.filter fun entry => entry.1 ∉ d.keys).filter (fun entry => p entry.1) =
    ((d.entries.filter fun entry => p entry.1).map fun entry =>
        (entry.1, ((updates.keep p).get? entry.1).getD entry.2)) ++
      (updates.entries.filter fun entry => p entry.1).filter fun entry =>
        entry.1 ∉ (d.keep p).keys
  rw [List.filter_append, List.filter_map, List.filter_comm]
  congr 1
  · apply List.map_congr_left
    intro entry hentry
    have hp : p entry.1 = true := (List.mem_filter.mp hentry).2
    rw [get?_keep, if_pos hp]
  · apply List.filter_congr
    intro entry hentry
    have hp : p entry.1 = true := (List.mem_filter.mp hentry).2
    rw [decide_eq_decide, mem_keys_keep, hp]
    simp

theorem keep_set {p : κ → Bool} {key : κ} (h : p key = true) (d : Dict κ ν) (value : ν) :
    (d.set key value).keep p = (d.keep p).set key value := by
  unfold set
  rw [keep_merge]
  congr 1
  apply keep_eq_self
  intro other hother
  rw [List.mem_singleton.mp hother]
  exact h

/-- The dictionary of a list of entries: a key keeps the place where it came first. -/
def ofEntries (entries : List (κ × ν)) : Dict κ ν :=
  entries.foldl (fun d entry => d.set entry.1 entry.2) empty

theorem mem_keys_set {d : Dict κ ν} {key other : κ} {value : ν} :
    other ∈ (d.set key value).keys ↔ other ∈ d.keys ∨ other = key := by
  unfold set
  rw [mem_keys_merge]
  exact or_congr_right List.mem_singleton

theorem mem_of_mem_keys_ofEntries {entries : List (κ × ν)} {key : κ}
    (h : key ∈ (ofEntries entries).keys) : key ∈ entries.map Prod.fst := by
  have hgeneral : ∀ d : Dict κ ν, key ∈ (entries.foldl (fun d entry => d.set entry.1 entry.2) d).keys →
      key ∈ d.keys ∨ key ∈ entries.map Prod.fst := by
    clear h
    induction entries with
    | nil => exact fun d hmem => Or.inl hmem
    | cons entry entries ih =>
        intro d hmem
        rcases ih _ hmem with hset | hlater
        · rcases mem_keys_set.mp hset with hold | hnew
          · exact Or.inl hold
          · rw [hnew]
            exact Or.inr List.mem_cons_self
        · exact Or.inr (List.mem_cons_of_mem entry.1 hlater)
  rcases hgeneral empty h with hnil | hmem
  · cases hnil
  · exact hmem

theorem mem_keys_ofEntries {entries : List (κ × ν)} {key : κ} (h : key ∈ entries.map Prod.fst) :
    key ∈ (ofEntries entries).keys := by
  have hgeneral : ∀ d : Dict κ ν, key ∈ d.keys ∨ key ∈ entries.map Prod.fst →
      key ∈ (entries.foldl (fun d entry => d.set entry.1 entry.2) d).keys := by
    clear h
    induction entries with
    | nil => exact fun d hmem => hmem.resolve_right List.not_mem_nil
    | cons entry entries ih =>
        intro d hmem
        rw [List.foldl_cons]
        apply ih
        rw [mem_keys_set]
        cases hmem with
        | inl hold => exact .inl (.inl hold)
        | inr hmem =>
            cases List.mem_cons.mp hmem with
            | inl hfirst => exact .inl (.inr hfirst)
            | inr hlater => exact .inr hlater
  exact hgeneral empty (.inr h)

theorem mem_entries_set {d : Dict κ ν} {key : κ} {value : ν} {entry : κ × ν}
    (h : entry ∈ (d.set key value).entries) : entry ∈ d.entries ∨ entry = (key, value) := by
  have hget := get?_eq_some.mpr h
  rw [get?_set] at hget
  split at hget
  · rename_i hkey
    right
    rw [← hkey, Option.some.inj hget]
  · left
    exact get?_eq_some.mp hget

theorem mem_of_mem_entries_ofEntries {entries : List (κ × ν)} {entry : κ × ν}
    (h : entry ∈ (ofEntries entries).entries) : entry ∈ entries := by
  have hgeneral : ∀ d : Dict κ ν, entry ∈ (entries.foldl (fun d e => d.set e.1 e.2) d).entries →
      entry ∈ d.entries ∨ entry ∈ entries := by
    clear h
    induction entries with
    | nil => exact fun d hmem => Or.inl hmem
    | cons first entries ih =>
        intro d hmem
        rcases ih _ hmem with hset | hlater
        · rcases mem_entries_set hset with hold | hnew
          · exact Or.inl hold
          · rw [hnew]
            exact Or.inr List.mem_cons_self
        · exact Or.inr (List.mem_cons_of_mem first hlater)
  rcases hgeneral empty h with hnil | hmem
  · cases hnil
  · exact hmem

/-- A new key comes last. -/
theorem entries_set_new {d : Dict κ ν} {key : κ} (h : key ∉ d.keys) (value : ν) :
    (d.set key value).entries = d.entries ++ [(key, value)] := by
  show (d.entries.map fun entry => (entry.1, _)) ++ List.filter _ [(key, value)] = _
  congr 1
  · have hsame : ∀ entry ∈ d.entries,
        (entry.1, ((⟨[(key, value)], List.nodup_singleton _⟩ : Dict κ ν).get? entry.1).getD entry.2)
          = entry := by
      intro entry hentry
      have hne : key ≠ entry.1 := by
        intro hkey
        exact h (hkey ▸ List.mem_map_of_mem (f := Prod.fst) hentry)
      simp [get?, hne]
    exact (List.map_congr_left hsame).trans (List.map_id' d.entries)
  · rw [List.filter_cons_of_pos (by simpa using h), List.filter_nil]

/-- Entries whose keys are distinct are kept. -/
theorem entries_ofEntries {entries : List (κ × ν)} (h : (entries.map Prod.fst).Nodup) :
    (ofEntries entries).entries = entries := by
  have hgeneral : ∀ d : Dict κ ν, (∀ key ∈ entries.map Prod.fst, key ∉ d.keys) →
      (entries.foldl (fun d e => d.set e.1 e.2) d).entries = d.entries ++ entries := by
    induction entries with
    | nil => exact fun d _ => (List.append_nil d.entries).symm
    | cons entry entries ih =>
        intro d hnew
        rw [List.map_cons, List.nodup_cons] at h
        have hlater : ∀ key ∈ entries.map Prod.fst, key ∉ (d.set entry.1 entry.2).keys := by
          intro key hkey hmem
          rcases mem_keys_set.mp hmem with hold | hsame
          · exact hnew key (List.mem_cons_of_mem _ hkey) hold
          · exact h.1 (hsame ▸ hkey)
        rw [List.foldl_cons, ih h.2 _ hlater, entries_set_new (hnew entry.1 List.mem_cons_self),
          List.append_assoc, List.singleton_append]
  rw [ofEntries, hgeneral empty fun key _ => List.not_mem_nil]
  rfl

theorem mem_values_of_get? {d : Dict κ ν} {key : κ} {value : ν} (h : d.get? key = some value) :
    value ∈ d.values :=
  List.mem_map_of_mem (get?_eq_some.mp h)

theorem get?_empty (key : κ) : (empty : Dict κ ν).get? key = none := rfl

theorem get?_pop (d : Dict κ ν) (key other : κ) :
    (d.pop key).get? other = if other = key then none else d.get? other := by
  unfold get? pop
  dsimp only
  rw [List.find?_filter]
  split
  · rename_i hsame
    rw [Option.map_eq_none_iff, List.find?_eq_none]
    intro entry _
    simp [hsame]
  · rename_i hne
    congr 2
    funext entry
    by_cases hkey : entry.1 = other
    · simp [hkey, hne]
    · simp [hkey]

/-- After several keys are popped, what is left is at the other keys. -/
theorem get?_foldl_pop (keys : List κ) (d : Dict κ ν) (other : κ) :
    (keys.foldl pop d).get? other = if other ∈ keys then none else d.get? other := by
  induction keys generalizing d with
  | nil => simp
  | cons key keys ih =>
      rw [List.foldl_cons, ih, get?_pop]
      by_cases hkey : other = key
      · simp [hkey]
      · simp [hkey]

/-- Entries picked by their keys, where the update has none of the keys that are there. -/
theorem filter_merge {p : κ → Bool} {d updates : Dict κ ν}
    (h : ∀ key, p key = true → key ∈ d.keys → key ∉ updates.keys) :
    (d.merge updates).entries.filter (fun entry => p entry.1) =
      d.entries.filter (fun entry => p entry.1) ++
        updates.entries.filter fun entry => p entry.1 := by
  have hold : ((d.entries.map fun entry => (entry.1, (updates.get? entry.1).getD entry.2)).filter
      fun entry => p entry.1) = d.entries.filter fun entry => p entry.1 := by
    rw [List.filter_map]
    have hsame : ∀ entry ∈ d.entries.filter fun entry => p entry.1,
        (entry.1, (updates.get? entry.1).getD entry.2) = entry := by
      intro entry hentry
      obtain ⟨hmem, hp⟩ := List.mem_filter.mp hentry
      have hnone := get?_eq_none.mpr (h entry.1 hp (List.mem_map_of_mem hmem))
      rw [hnone]
      rfl
    exact (List.map_congr_left hsame).trans (List.map_id' _)
  have hnew : ((updates.entries.filter fun entry => entry.1 ∉ d.keys).filter
      fun entry => p entry.1) = updates.entries.filter fun entry => p entry.1 := by
    rw [List.filter_filter]
    apply List.filter_congr
    intro entry hentry
    by_cases hp : p entry.1 = true
    · have hother : entry.1 ∉ d.keys := fun hmem => h entry.1 hp hmem (List.mem_map_of_mem hentry)
      rw [hp, decide_eq_true hother, Bool.and_self]
    · rw [Bool.eq_false_iff.mpr hp, Bool.false_and]
  unfold merge
  dsimp only
  rw [List.filter_append, hold, hnew]

/-- A key that is there keeps its place. -/
theorem entries_set_old {d : Dict κ ν} {key : κ} (h : key ∈ d.keys) (value : ν) :
    (d.set key value).entries =
      d.entries.map fun entry => (entry.1, if entry.1 = key then value else entry.2) := by
  show (d.entries.map fun entry => (entry.1, _)) ++ List.filter _ [(key, value)] = _
  rw [List.filter_cons_of_neg (by simpa using h), List.filter_nil, List.append_nil]
  apply List.map_congr_left
  intro entry _
  by_cases hkey : entry.1 = key
  · simp [get?, hkey]
  · simp [get?, hkey, Ne.symm hkey]

/-- Setting what is there changes nothing. -/
theorem set_eq_self {d : Dict κ ν} {key : κ} {value : ν} (h : d.get? key = some value) :
    d.set key value = d := by
  refine eq_of_entries ((entries_set_old (mem_keys_of_get? h) value).trans ?_)
  refine (List.map_congr_left fun entry hentry => ?_).trans (List.map_id _)
  by_cases hkey : entry.1 = key
  · have hvalue : entry.2 = value :=
      Option.some.inj ((get?_of_mem (hkey ▸ hentry)).symm.trans h)
    rw [if_pos hkey, ← hvalue]
    rfl
  · rw [if_neg hkey]
    rfl

/-- A key has at most one entry. -/
theorem filter_key (d : Dict κ ν) (key : κ) :
    d.entries.filter (fun entry => entry.1 = key) =
      ((d.get? key).map fun value => (key, value)).toList := by
  obtain ⟨entries, hnodup⟩ := d
  unfold get?
  dsimp only
  induction entries with
  | nil => rfl
  | cons first entries ih =>
      rw [List.map_cons, List.nodup_cons] at hnodup
      by_cases hkey : first.1 = key
      · have hrest : entries.filter (fun entry => entry.1 = key) = [] := by
          rw [List.filter_eq_nil_iff]
          intro entry hentry hsame
          rw [hkey, ← of_decide_eq_true hsame] at hnodup
          exact hnodup.1 (List.mem_map_of_mem hentry)
        rw [List.filter_cons_of_pos (by simpa using hkey), hrest,
          List.find?_cons_of_pos (by simpa using hkey), ← hkey]
        rfl
      · rw [List.filter_cons_of_neg (by simpa using hkey),
          List.find?_cons_of_neg (by simpa using hkey)]
        exact ih hnodup.2

end Dict

variable [DecidableEq κ]

/-! ## Deltas -/

/-- Entries to set and keys to delete. -/
structure Delta (κ ν : Type*) where
  updates : Dict κ ν
  deletions : List κ

namespace Delta

/-- Set the updates, then delete. -/
def apply (delta : Delta κ ν) (d : Dict κ ν) : Dict κ ν :=
  delta.deletions.foldl Dict.pop (d.merge delta.updates)

/-- The delta describes the step from one dictionary to another: the updates are entries of
the new one and include all that the old one does not have, and the deletions are keys that
only the old one has, all of them. -/
structure Between (d after : Dict κ ν) (delta : Delta κ ν) : Prop where
  updates_sound : ∀ key value, delta.updates.get? key = some value → after.get? key = some value
  updates_complete : ∀ key value, after.get? key = some value →
    delta.updates.get? key = some value ∨
      delta.updates.get? key = none ∧ d.get? key = some value
  deletions_sound : ∀ key ∈ delta.deletions, after.get? key = none
  deletions_complete : ∀ key ∈ d.keys, after.get? key = none → key ∈ delta.deletions

/-- Applying a delta of the step makes the step. -/
theorem apply_same {d base after : Dict κ ν} {delta : Delta κ ν} (h : delta.Between base after)
    (hsame : d.Same base) : (delta.apply d).Same after := by
  intro key
  unfold apply
  rw [Dict.get?_foldl_pop, Dict.get?_merge, hsame key]
  split
  · rename_i hdeleted
    exact (h.deletions_sound key hdeleted).symm
  · rename_i hkept
    cases hafter : after.get? key with
    | some value =>
        rcases h.updates_complete key value hafter with hset | ⟨hunset, hold⟩
        · rw [hset, Option.some_or]
        · rw [hunset, Option.none_or, hold]
    | none =>
        have hunset : delta.updates.get? key = none := by
          by_contra hsome
          obtain ⟨value, hvalue⟩ := Option.ne_none_iff_exists'.mp hsome
          rw [h.updates_sound key value hvalue] at hafter
          cases hafter
        have hold : base.get? key = none := by
          rw [Dict.get?_eq_none]
          intro hmem
          exact hkept (h.deletions_complete key hmem hafter)
        rw [hunset, hold, Option.or_none]

section Diff

variable [DecidableEq ν]

/-- The smallest delta: what is new or changed, and what is gone. -/
def diff (d after : Dict κ ν) : Delta κ ν where
  updates :=
    { entries := after.entries.filter fun entry => d.get? entry.1 ≠ some entry.2
      keys_nodup := List.Nodup.sublist (List.filter_sublist.map Prod.fst) after.keys_nodup }
  deletions := d.keys.filter fun key => after.get? key = none

theorem get?_diff_updates (d after : Dict κ ν) (key : κ) (value : ν) :
    (diff d after).updates.get? key = some value ↔
      after.get? key = some value ∧ d.get? key ≠ some value := by
  have hentries : (key, value) ∈ (diff d after).updates.entries ↔
      (key, value) ∈ after.entries ∧ d.get? key ≠ some value := by
    unfold diff
    rw [List.mem_filter, decide_eq_true_eq]
  rw [Dict.get?_eq_some, Dict.get?_eq_some, hentries]

/-- Every step has a delta. -/
theorem diff_between (d after : Dict κ ν) : (diff d after).Between d after where
  updates_sound := fun key value h => ((get?_diff_updates d after key value).mp h).1
  updates_complete := by
    intro key value hafter
    by_cases hold : d.get? key = some value
    · right
      refine ⟨?_, hold⟩
      by_contra hsome
      obtain ⟨other, hother⟩ := Option.ne_none_iff_exists'.mp hsome
      obtain ⟨hother, hnew⟩ := (get?_diff_updates d after key other).mp hother
      rw [hafter] at hother
      rw [hold] at hnew
      exact hnew hother
    · left
      exact (get?_diff_updates d after key value).mpr ⟨hafter, hold⟩
  deletions_sound := fun key h => of_decide_eq_true (List.mem_filter.mp h).2
  deletions_complete := fun key hmem hgone =>
    List.mem_filter.mpr ⟨hmem, decide_eq_true hgone⟩

end Diff

end Delta

end M8flow.Lib
