import M8flow.Lib.Json
import M8flow.Lib.JsonText

/-!
# JSON values from texts

`json.loads` with the whole value kept.  It reads strings, literals and white space
as `JsonText` does.  Of a number only that it is one is kept, and 0 stands for it.

- `parseValue_length` and its companions: a reader leaves no more than it was given.
- `length_lt_of_mem_loads`: a key of a dictionary is shorter than the text that the
  dictionary is read from, on which recursion into such keys rests.
-/

namespace M8flow.Lib.JsonTree

open JsonText

/-- A value that is no string, dictionary or list. -/
def parseLiteral (s : Text) : Option (Json × Text) :=
  let words : List (String × Json) :=
    [("null", .null), ("true", .bool true), ("false", .bool false), ("NaN", .num 0),
      ("Infinity", .num 0), ("-Infinity", .num 0)]
  match words.find? fun word => word.1.toList.isPrefixOf s with
  | some word => some (word.2, s.drop word.1.length)
  | none => (skipNumber s).map fun rest => (.num 0, rest)

/-- `d[key] = value`: a key keeps the place where it came first. -/
def setField (fields : List (Text × Json)) (field : Text × Json) : List (Text × Json) :=
  if fields.any fun entry => entry.1 = field.1 then
    fields.map fun entry => if entry.1 = field.1 then field else entry
  else fields ++ [field]

/-- The dictionary of members. -/
def dictOf (members : List (Text × Json)) : List (Text × Json) := members.foldl setField []

mutual

/-- Read a value. -/
def parseValue : (fuel : Nat) → Text → Option (Json × Text)
  | 0, _ => none
  | fuel + 1, s =>
      match expect '"' s with
      | some rest => (scanString rest).map fun p => (.str (joinSurrogates p.1), p.2)
      | none =>
          match expect '\x7b' s with
          | some rest =>
              match expect '\x7d' (skipSpace rest) with
              | some rest => some (.obj [], rest)
              | none => (parseMembers fuel (skipSpace rest)).map fun p => (.obj (dictOf p.1), p.2)
          | none =>
              match expect '[' s with
              | some rest =>
                  match expect ']' (skipSpace rest) with
                  | some rest => some (.arr [], rest)
                  | none => (parseItems fuel (skipSpace rest)).map fun p => (.arr p.1, p.2)
              | none => parseLiteral s

/-- Read the members of a dictionary, up to its closing brace. -/
def parseMembers : (fuel : Nat) → Text → Option (List (Text × Json) × Text)
  | 0, _ => none
  | fuel + 1, s =>
      (expect '"' s).bind fun rest =>
        (scanString rest).bind fun key =>
          (expect ':' (skipSpace key.2)).bind fun rest =>
            (parseValue fuel (skipSpace rest)).bind fun value =>
              match expect '\x7d' (skipSpace value.2) with
              | some rest => some ([(joinSurrogates key.1, value.1)], rest)
              | none =>
                  (expect ',' (skipSpace value.2)).bind fun rest =>
                    (parseMembers fuel (skipSpace rest)).map fun p =>
                      ((joinSurrogates key.1, value.1) :: p.1, p.2)

/-- Read the elements of a list, up to its closing bracket. -/
def parseItems : (fuel : Nat) → Text → Option (List Json × Text)
  | 0, _ => none
  | fuel + 1, s =>
      (parseValue fuel s).bind fun value =>
        match expect ']' (skipSpace value.2) with
        | some rest => some ([value.1], rest)
        | none =>
            (expect ',' (skipSpace value.2)).bind fun rest =>
              (parseItems fuel (skipSpace rest)).map fun p => (value.1 :: p.1, p.2)

end

/-- `json.loads`: nothing stands for the `ValueError`. -/
def loads (s : Text) : Option Json :=
  (parseValue (s.length + 1) (skipSpace s)).bind fun p =>
    if skipSpace p.2 = [] then some p.1 else none

/-! ## Lengths -/

theorem length_skipSpace (s : Text) : (skipSpace s).length ≤ s.length :=
  (List.dropWhile_sublist _).length_le

theorem length_expect {c : Char} {s rest : Text} (h : expect c s = some rest) :
    rest.length < s.length := by
  cases s with
  | nil => cases h
  | cons d s =>
      simp only [expect, Option.ite_none_right_eq_some, Option.some.injEq] at h
      obtain ⟨_, rfl⟩ := h
      exact Nat.lt_succ_self _

/-- A string and what follows it are shorter than the text, by the closing quote. -/
theorem length_scanString {s : Text} {p : List Nat × Text} (h : scanString s = some p) :
    p.1.length + p.2.length < s.length := by
  induction s using scanString.induct generalizing p with
  | case1 => cases h
  | case2 rest =>
      cases h
      simp
  | case3 a b c d rest ih =>
      rw [scanString] at h
      obtain ⟨n, _, h⟩ := Option.bind_eq_some_iff.mp h
      obtain ⟨q, hq, rfl⟩ := Option.map_eq_some_iff.mp h
      have hlength := ih hq
      simp only [List.length_cons]
      omega
  | case4 c rest hne ih =>
      rw [scanString] at h
      · obtain ⟨n, _, h⟩ := Option.bind_eq_some_iff.mp h
        obtain ⟨q, hq, rfl⟩ := Option.map_eq_some_iff.mp h
        have hlength := ih hq
        simp only [List.length_cons]
        omega
      · exact hne
  | case5 c rest hquote hescape hletter hplain =>
      rw [scanString, if_pos hplain] at h
      · cases h
      · exact hquote
      · exact hescape
      · exact hletter
  | case6 c rest hquote hescape hletter hplain ih =>
      rw [scanString, if_neg hplain] at h
      · obtain ⟨q, hq, rfl⟩ := Option.map_eq_some_iff.mp h
        have hlength := ih hq
        simp only [List.length_cons]
        omega
      · exact hquote
      · exact hescape
      · exact hletter

theorem length_joinSurrogates (units : List Nat) :
    (joinSurrogates units).length ≤ units.length := by
  induction units using joinSurrogates.induct with
  | case1 => exact Nat.le_refl 0
  | case2 n => exact Nat.le_refl 1
  | case3 high low rest hpair ih =>
      rw [joinSurrogates, if_pos hpair]
      simp only [List.length_cons]
      omega
  | case4 high low rest hpair ih =>
      rw [joinSurrogates, if_neg hpair]
      simp only [List.length_cons] at ih ⊢
      omega

theorem length_skipDigits {s rest : Text} (h : skipDigits s = some rest) :
    rest.length ≤ s.length := by
  unfold skipDigits at h
  split at h
  · cases h
  · cases h
    exact (List.dropWhile_sublist _).length_le

/-- A part of a number that may be left out: what is after it is no longer. -/
theorem length_getD {part : Option (Bool × Text)} {seen : Bool} {s : Text}
    (h : ∀ found, part = some found → found.2.length ≤ s.length) :
    (part.getD (seen, s)).2.length ≤ s.length := by
  cases part with
  | none => exact Nat.le_refl _
  | some found => exact h found rfl

/-- Passing over a fraction and an exponent leaves no more than there was. -/
theorem length_skipFraction (s : Text) : (skipFraction s).2.length ≤ s.length := by
  unfold skipFraction
  dsimp only
  refine Nat.le_trans (length_getD fun found hfound => ?_) (length_getD fun found hfound => ?_)
  · generalize (Option.getD _ (false, s)).2 = s' at hfound ⊢
    split at hfound
    all_goals first
      | cases hfound
      | obtain ⟨after, hdigits, rfl⟩ := Option.map_eq_some_iff.mp hfound
        have hlength := length_skipDigits hdigits
        simp only [List.length_cons] at hlength ⊢
        omega
  · split at hfound
    · obtain ⟨after, hdigits, rfl⟩ := Option.map_eq_some_iff.mp hfound
      have hlength := length_skipDigits hdigits
      simp only [List.length_cons]
      omega
    · cases hfound

theorem length_skipNumber {s rest : Text} (h : skipNumber s = some rest) :
    rest.length ≤ s.length := by
  have hbody : ∀ (body : Text) (n : Nat), (skipFraction (body.drop n)).2.length ≤ body.length := by
    intro body n
    have hfraction := length_skipFraction (body.drop n)
    have hdrop : (body.drop n).length ≤ body.length := (List.drop_sublist _ _).length_le
    omega
  have hsign : (if ['-'].isPrefixOf s then s.drop 1 else s).length ≤ s.length := by
    split
    · exact (List.drop_sublist _ _).length_le
    · exact Nat.le_refl _
  simp only [skipNumber, Option.ite_none_left_eq_some, Option.ite_none_right_eq_some,
    Option.some.injEq] at h
  obtain ⟨_, _, rfl⟩ := h
  exact Nat.le_trans (hbody _ _) hsign

theorem length_parseLiteral {s : Text} {p : Json × Text} (h : parseLiteral s = some p) :
    p.2.length ≤ s.length := by
  unfold parseLiteral at h
  simp only at h
  split at h
  · cases h
    exact (List.drop_sublist _ _).length_le
  · obtain ⟨rest, hrest, rfl⟩ := Option.map_eq_some_iff.mp h
    exact length_skipNumber hrest

/-- The readers leave no more than they were given. -/
theorem length_readers (fuel : Nat) :
    (∀ s p, parseValue fuel s = some p → p.2.length ≤ s.length) ∧
    (∀ s p, parseMembers fuel s = some p → p.2.length ≤ s.length) ∧
    (∀ s p, parseItems fuel s = some p → p.2.length ≤ s.length) := by
  induction fuel with
  | zero =>
      refine ⟨?_, ?_, ?_⟩
      · intro s p h
        cases h
      · intro s p h
        cases h
      · intro s p h
        cases h
  | succ fuel ih =>
      obtain ⟨hvalue, hmembers, hitems⟩ := ih
      refine ⟨?_, ?_, ?_⟩
      · intro s p h
        rw [parseValue] at h
        split at h
        · rename_i rest hquote
          obtain ⟨q, hq, rfl⟩ := Option.map_eq_some_iff.mp h
          have hopen := length_expect hquote
          have hstring := length_scanString hq
          show q.2.length ≤ s.length
          omega
        split at h
        · rename_i rest hbrace
          have hopen := length_expect hbrace
          have hspace := length_skipSpace rest
          split at h
          · rename_i after hclose
            have hclosed := length_expect hclose
            cases h
            show after.length ≤ s.length
            omega
          · obtain ⟨q, hq, rfl⟩ := Option.map_eq_some_iff.mp h
            have hrest := hmembers _ _ hq
            show q.2.length ≤ s.length
            omega
        split at h
        · rename_i rest hbracket
          have hopen := length_expect hbracket
          have hspace := length_skipSpace rest
          split at h
          · rename_i after hclose
            have hclosed := length_expect hclose
            cases h
            show after.length ≤ s.length
            omega
          · obtain ⟨q, hq, rfl⟩ := Option.map_eq_some_iff.mp h
            have hrest := hitems _ _ hq
            show q.2.length ≤ s.length
            omega
        · exact length_parseLiteral h
      · intro s p h
        rw [parseMembers] at h
        obtain ⟨rest, hquote, h⟩ := Option.bind_eq_some_iff.mp h
        obtain ⟨key, hkey, h⟩ := Option.bind_eq_some_iff.mp h
        obtain ⟨colon, hcolon, h⟩ := Option.bind_eq_some_iff.mp h
        obtain ⟨value, hread, h⟩ := Option.bind_eq_some_iff.mp h
        have hopen := length_expect hquote
        have hstring := length_scanString hkey
        have hspace := length_skipSpace key.2
        have hcolon := length_expect hcolon
        have hspace' := length_skipSpace colon
        have hrest := hvalue _ _ hread
        have hafter := length_skipSpace value.2
        split at h
        · rename_i after hclose
          have hclosed := length_expect hclose
          cases h
          show after.length ≤ s.length
          omega
        · obtain ⟨comma, hcomma, h⟩ := Option.bind_eq_some_iff.mp h
          obtain ⟨q, hq, rfl⟩ := Option.map_eq_some_iff.mp h
          have hcomma := length_expect hcomma
          have hnext := length_skipSpace comma
          have hmore := hmembers _ _ hq
          show q.2.length ≤ s.length
          omega
      · intro s p h
        rw [parseItems] at h
        obtain ⟨value, hread, h⟩ := Option.bind_eq_some_iff.mp h
        have hrest := hvalue _ _ hread
        have hspace := length_skipSpace value.2
        split at h
        · rename_i after hclose
          have hclosed := length_expect hclose
          cases h
          show after.length ≤ s.length
          omega
        · obtain ⟨comma, hcomma, h⟩ := Option.bind_eq_some_iff.mp h
          obtain ⟨q, hq, rfl⟩ := Option.map_eq_some_iff.mp h
          have hcomma := length_expect hcomma
          have hnext := length_skipSpace comma
          have hmore := hitems _ _ hq
          show q.2.length ≤ s.length
          omega

/-! ## Keys -/

/-- The keys of members are shorter than the text they are read from. -/
theorem length_lt_of_parseMembers {fuel : Nat} {s : Text} {p : List (Text × Json) × Text}
    (h : parseMembers fuel s = some p) : ∀ field ∈ p.1, field.1.length < s.length := by
  induction fuel generalizing s p with
  | zero => cases h
  | succ fuel ih =>
      rw [parseMembers] at h
      obtain ⟨rest, hquote, h⟩ := Option.bind_eq_some_iff.mp h
      obtain ⟨key, hkey, h⟩ := Option.bind_eq_some_iff.mp h
      obtain ⟨colon, hcolon, h⟩ := Option.bind_eq_some_iff.mp h
      obtain ⟨value, hread, h⟩ := Option.bind_eq_some_iff.mp h
      have hopen := length_expect hquote
      have hstring := length_scanString hkey
      have hjoin := length_joinSurrogates key.1
      have hfirst : (joinSurrogates key.1).length < s.length := by omega
      split at h
      · cases h
        intro field hfield
        rw [List.mem_singleton] at hfield
        rw [hfield]
        exact hfirst
      · obtain ⟨comma, hcomma, h⟩ := Option.bind_eq_some_iff.mp h
        obtain ⟨q, hq, rfl⟩ := Option.map_eq_some_iff.mp h
        have hspace := length_skipSpace key.2
        have hcolon := length_expect hcolon
        have hspace' := length_skipSpace colon
        have hrest := (length_readers fuel).1 _ _ hread
        have hafter := length_skipSpace value.2
        have hcomma := length_expect hcomma
        have hnext := length_skipSpace comma
        intro field hfield
        rcases List.mem_cons.mp hfield with rfl | hmore
        · exact hfirst
        · have hlength := ih hq field hmore
          omega

/-- A field of the dictionary is one of the members. -/
theorem mem_of_mem_dictOf {members : List (Text × Json)} {field : Text × Json}
    (h : field ∈ dictOf members) : field ∈ members := by
  have hfold : ∀ (members fields : List (Text × Json)),
      field ∈ members.foldl setField fields → field ∈ fields ∨ field ∈ members := by
    intro members
    induction members with
    | nil => exact fun fields hmem => .inl hmem
    | cons member members ih =>
        intro fields hmem
        rcases ih _ hmem with hset | hmore
        · unfold setField at hset
          split at hset
          · obtain ⟨entry, hentry, hsame⟩ := List.mem_map.mp hset
            split at hsame
            · exact .inr (hsame ▸ List.mem_cons_self)
            · exact .inl (hsame ▸ hentry)
          · rcases List.mem_append.mp hset with hold | hnew
            · exact .inl hold
            · rw [List.mem_singleton] at hnew
              exact .inr (hnew ▸ List.mem_cons_self)
        · exact .inr (List.mem_cons_of_mem _ hmore)
  rcases hfold members [] h with hnil | hmem
  · cases hnil
  · exact hmem

/-- A key of a dictionary is shorter than the text that the dictionary is read from. -/
theorem length_lt_of_mem_loads {s : Text} {fields : List (Text × Json)}
    (h : loads s = some (.obj fields)) : ∀ field ∈ fields, field.1.length < s.length := by
  unfold loads at h
  obtain ⟨p, hread, h⟩ := Option.bind_eq_some_iff.mp h
  split at h
  · rename_i hend
    have hvalue : p.1 = .obj fields := Option.some.inj h
    have hspace := length_skipSpace s
    rw [parseValue] at hread
    split at hread
    · obtain ⟨q, _, rfl⟩ := Option.map_eq_some_iff.mp hread
      cases hvalue
    split at hread
    · rename_i rest hbrace
      have hopen := length_expect hbrace
      have hspace' := length_skipSpace rest
      split at hread
      · cases hread
        cases hvalue
        intro field hfield
        cases hfield
      · obtain ⟨q, hq, rfl⟩ := Option.map_eq_some_iff.mp hread
        have hkeys := length_lt_of_parseMembers hq
        have hfields : dictOf q.1 = fields := Json.obj.inj hvalue
        intro field hfield
        have hlength := hkeys field (mem_of_mem_dictOf (hfields ▸ hfield))
        omega
    split at hread
    · split at hread
      · cases hread
        cases hvalue
      · obtain ⟨q, _, rfl⟩ := Option.map_eq_some_iff.mp hread
        cases hvalue
    · -- a literal is no dictionary
      unfold parseLiteral at hread
      simp only at hread
      split at hread
      · rename_i word hword
        have hmem := List.mem_of_find?_eq_some hword
        cases hread
        simp only [List.mem_cons, List.not_mem_nil, or_false] at hmem
        obtain rfl | rfl | rfl | rfl | rfl | rfl := hmem <;> cases hvalue
      · obtain ⟨rest, _, rfl⟩ := Option.map_eq_some_iff.mp hread
        cases hvalue
  · cases h

end M8flow.Lib.JsonTree
