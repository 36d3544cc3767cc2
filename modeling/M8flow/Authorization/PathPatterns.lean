import M8flow.Authorization.Uri

/-!
# What a target's pattern means

`_path_matches` turns a pattern into a regular expression, character by
character, and leaves the rest to the matcher.  Here the meaning of a pattern is
stated without one: `Stands` lays a pattern over a path, and `Means` adds what
lies below a route of a legacy target.

The two agree but for two kinds of input.  A `.*` does not cross a line break,
and a brace that is not closed takes a legacy route its prefix matching.
-/

namespace M8flow.Authorization

open M8flow.Lib

/-! ## The declared language -/

/-- The pattern laid over a path: `fits` is what a `%` or `*` may stand for. -/
inductive Stands (fits : Text → Prop) : Text → Text → Prop where
  | nil : Stands fits [] []
  | wildcard {c s pattern path} (hc : c = '%' ∨ c = '*') (hs : fits s)
      (tail : Stands fits pattern path) : Stands fits (c :: pattern) (s ++ path)
  | placeholder {name s pattern path} (hname : '}' ∉ name) (hne : s ≠ []) (hs : '/' ∉ s)
      (tail : Stands fits pattern path) :
      Stands fits ('{' :: (name ++ '}' :: pattern)) (s ++ path)
  | char {c pattern path} (hc : ¬ (c = '%' ∨ c = '*')) (hbrace : c = '{' → '}' ∉ pattern)
      (tail : Stands fits pattern path) : Stands fits (c :: pattern) (c :: path)

/-- Any string, which is what the wildcards are documented to stand for. -/
def AnyText (_ : Text) : Prop := True

/-- A string without a line break, which is what `.*` matches. -/
def OneLine (s : Text) : Prop := '\n' ∉ s

/-- The pattern has a `%`, a `*` or a placeholder whose brace is closed. -/
def HasWildcard : Text → Prop
  | [] => False
  | c :: rest => (c = '%' ∨ c = '*' ∨ (c = '{' ∧ '}' ∈ rest)) ∨ HasWildcard rest

/-- The path goes on below the pattern's route, at a segment boundary. -/
def LiesBelow (path pattern : Text) : Prop :=
  ∃ rest, path = Text.rstripChar '/' pattern ++ '/' :: rest

/-- The declared meaning of a target's pattern. -/
def Means (path pattern : Text) (legacyPrefix : Bool) : Prop :=
  Stands AnyText pattern path ∨
    (legacyPrefix = true ∧ ¬ HasWildcard pattern ∧ LiesBelow path pattern)

/-! ## Where the code leaves it -/

/-- The pattern matches, but only with a line break under a `%` or `*`. -/
def OnlyAcrossLines (path pattern : Text) : Prop :=
  Stands AnyText pattern path ∧ ¬ Stands OneLine pattern path

/-- A path strictly below a legacy route that has a brace, but no placeholder. -/
def BelowUnclosed (path pattern : Text) (legacyPrefix : Bool) : Prop :=
  legacyPrefix = true ∧ '{' ∈ pattern ∧ ¬ HasWildcard pattern ∧ LiesBelow path pattern ∧
    path ≠ pattern

/-! ## The compiled pieces -/

/-- The pieces laid over a path. -/
inductive PiecesStand (fits : Text → Prop) : List PatternPiece → Text → Prop where
  | nil : PiecesStand fits [] []
  | char {c pieces path} (tail : PiecesStand fits pieces path) :
      PiecesStand fits (.char c :: pieces) (c :: path)
  | wildcard {s pieces path} (hs : fits s) (tail : PiecesStand fits pieces path) :
      PiecesStand fits (.wildcard :: pieces) (s ++ path)
  | placeholder {s pieces path} (hne : s ≠ []) (hs : '/' ∉ s)
      (tail : PiecesStand fits pieces path) :
      PiecesStand fits (.placeholder :: pieces) (s ++ path)

theorem all_ne_iff {c : Char} {s : Text} : s.all (· ≠ c) = true ↔ c ∉ s := by
  rw [List.all_eq_true]
  constructor
  · intro h hmem
    exact of_decide_eq_true (h c hmem) rfl
  · intro h d hd
    exact decide_eq_true (ne_of_mem_of_not_mem hd h)

/-- A character's piece takes one character. -/
theorem piecesMatch_char {c : Char} {pieces : List PatternPiece} {s : Text} :
    piecesMatch (.char c :: pieces) s = true ↔
      ∃ path, s = c :: path ∧ piecesMatch pieces path = true := by
  cases s with
  | nil => simp [piecesMatch]
  | cons d rest =>
      simp only [piecesMatch, Bool.and_eq_true, decide_eq_true_eq, List.cons.injEq]
      constructor
      · intro h
        exact ⟨rest, ⟨h.1.symm, rfl⟩, h.2⟩
      · intro h
        obtain ⟨path, ⟨hd, hrest⟩, hpath⟩ := h
        rw [hrest]
        exact ⟨hd.symm, hpath⟩

/-- A wildcard's piece takes any text in a line. -/
theorem piecesMatch_wildcard {pieces : List PatternPiece} {s : Text} :
    piecesMatch (.wildcard :: pieces) s = true ↔
      ∃ taken path, s = taken ++ path ∧ OneLine taken ∧ piecesMatch pieces path = true := by
  simp only [piecesMatch, List.any_eq_true, List.mem_range, Bool.and_eq_true, all_ne_iff]
  constructor
  · intro h
    obtain ⟨n, -, hline, hrest⟩ := h
    exact ⟨s.take n, s.drop n, (List.take_append_drop n s).symm, hline, hrest⟩
  · intro h
    obtain ⟨taken, path, hs, hline, hrest⟩ := h
    refine ⟨taken.length, ?_, ?_, ?_⟩
    · rw [hs, List.length_append]
      omega
    · rw [hs, List.take_left]
      exact hline
    · rw [hs, List.drop_left]
      exact hrest

/-- A placeholder's piece takes a text that is not empty and has no slash. -/
theorem piecesMatch_placeholder {pieces : List PatternPiece} {s : Text} :
    piecesMatch (.placeholder :: pieces) s = true ↔
      ∃ taken path, s = taken ++ path ∧ taken ≠ [] ∧ '/' ∉ taken ∧
        piecesMatch pieces path = true := by
  simp only [piecesMatch, List.any_eq_true, List.mem_range, Bool.and_eq_true, all_ne_iff]
  constructor
  · intro h
    obtain ⟨n, hn, hslash, hrest⟩ := h
    have hne : s.take (n + 1) ≠ [] := by
      intro hnil
      have hlength := congrArg List.length hnil
      rw [List.length_take, List.length_nil] at hlength
      omega
    exact ⟨s.take (n + 1), s.drop (n + 1), (List.take_append_drop _ s).symm, hne, hslash, hrest⟩
  · intro h
    obtain ⟨taken, path, hs, hne, hslash, hrest⟩ := h
    have hlength : taken.length - 1 + 1 = taken.length :=
      Nat.sub_add_cancel (List.length_pos_of_ne_nil hne)
    refine ⟨taken.length - 1, ?_, ?_, ?_⟩
    · rw [hs, List.length_append]
      omega
    · rw [hlength, hs, List.take_left]
      exact hslash
    · rw [hlength, hs, List.drop_left]
      exact hrest

/-- The matcher finds a way to lay the pieces exactly when there is one. -/
theorem piecesMatch_iff {pieces : List PatternPiece} {path : Text} :
    piecesMatch pieces path = true ↔ PiecesStand OneLine pieces path := by
  induction pieces generalizing path with
  | nil =>
      constructor
      · intro h
        rw [of_decide_eq_true h]
        exact .nil
      · intro h
        cases h
        rfl
  | cons piece pieces ih =>
      cases piece with
      | char c =>
          rw [piecesMatch_char]
          constructor
          · intro h
            obtain ⟨rest, hpath, hrest⟩ := h
            rw [hpath]
            exact .char (ih.mp hrest)
          · intro h
            cases h with
            | char tail => exact ⟨_, rfl, ih.mpr tail⟩
      | wildcard =>
          rw [piecesMatch_wildcard]
          constructor
          · intro h
            obtain ⟨taken, rest, hpath, hline, hrest⟩ := h
            rw [hpath]
            exact .wildcard hline (ih.mp hrest)
          · intro h
            cases h with
            | wildcard hs tail => exact ⟨_, _, rfl, hs, ih.mpr tail⟩
      | placeholder =>
          rw [piecesMatch_placeholder]
          constructor
          · intro h
            obtain ⟨taken, rest, hpath, hne, hslash, hrest⟩ := h
            rw [hpath]
            exact .placeholder hne hslash (ih.mp hrest)
          · intro h
            cases h with
            | placeholder hne hs tail => exact ⟨_, _, rfl, hne, hs, ih.mpr tail⟩

/-! ## A pattern and its pieces -/

theorem patternPieces_wildcard {c : Char} {pattern : Text} (hc : c = '%' ∨ c = '*') :
    patternPieces false (c :: pattern) = .wildcard :: patternPieces false pattern := by
  rw [patternPieces, if_pos hc]

theorem patternPieces_char {c : Char} {pattern : Text} (hc : ¬ (c = '%' ∨ c = '*'))
    (hbrace : c = '{' → '}' ∉ pattern) :
    patternPieces false (c :: pattern) = .char c :: patternPieces false pattern := by
  rw [patternPieces, if_neg hc, if_neg fun h => hbrace h.1 h.2]

/-- Inside a placeholder everything up to its brace is passed over. -/
theorem patternPieces_inside {name pattern : Text} (hname : '}' ∉ name) :
    patternPieces true (name ++ '}' :: pattern) = patternPieces false pattern := by
  induction name with
  | nil => rfl
  | cons c name ih =>
      have hc : c ≠ '}' := Ne.symm (List.ne_of_not_mem_cons hname)
      rw [List.cons_append, patternPieces, decide_eq_true hc]
      exact ih (List.not_mem_of_not_mem_cons hname)

theorem patternPieces_placeholder {name pattern : Text} (hname : '}' ∉ name) :
    patternPieces false ('{' :: (name ++ '}' :: pattern)) =
      .placeholder :: patternPieces false pattern := by
  have hclosed : '}' ∈ name ++ '}' :: pattern :=
    List.mem_append_right _ List.mem_cons_self
  rw [patternPieces, if_neg (by decide), if_pos ⟨rfl, hclosed⟩, patternPieces_inside hname]

/-- A pattern lies over a path as its pieces do. -/
theorem stands_iff_piecesStand {fits : Text → Prop} {pattern path : Text} :
    Stands fits pattern path ↔ PiecesStand fits (patternPieces false pattern) path := by
  constructor
  · intro h
    induction h with
    | nil => exact .nil
    | wildcard hc hs _ ih =>
        rw [patternPieces_wildcard hc]
        exact .wildcard hs ih
    | placeholder hname hne hs _ ih =>
        rw [patternPieces_placeholder hname]
        exact .placeholder hne hs ih
    | char hc hbrace _ ih =>
        rw [patternPieces_char hc hbrace]
        exact .char ih
  · -- a placeholder passes over more than one character: the induction is on the length
    intro h
    induction hn : pattern.length using Nat.strong_induction_on generalizing pattern path with
    | _ n ih =>
        cases pattern with
        | nil =>
            cases h
            exact .nil
        | cons c rest =>
            rw [List.length_cons] at hn
            by_cases hc : c = '%' ∨ c = '*'
            · rw [patternPieces_wildcard hc] at h
              cases h with
              | wildcard hs tail => exact .wildcard hc hs (ih _ (by omega) tail rfl)
            · by_cases hbrace : c = '{' ∧ '}' ∈ rest
              · obtain ⟨hopen, hmem⟩ := hbrace
                obtain ⟨name, tailPattern, hrest, hname⟩ := List.eq_append_cons_of_mem hmem
                subst hopen hrest
                rw [patternPieces_placeholder hname] at h
                rw [List.length_append, List.length_cons] at hn
                cases h with
                | placeholder hne hs tail =>
                    exact .placeholder hname hne hs (ih _ (by omega) tail rfl)
              · have hliteral : c = '{' → '}' ∉ rest := fun hopen hmem => hbrace ⟨hopen, hmem⟩
                rw [patternPieces_char hc hliteral] at h
                cases h with
                | char tail => exact .char hc hliteral (ih _ (by omega) tail rfl)

/-! ## Patterns without a wildcard -/

/-- Without a wildcard a pattern stands for itself alone. -/
theorem stands_iff_eq {fits : Text → Prop} {pattern path : Text} (h : ¬ HasWildcard pattern) :
    Stands fits pattern path ↔ path = pattern := by
  rw [stands_iff_piecesStand]
  induction pattern generalizing path with
  | nil =>
      constructor
      · intro hpath
        cases hpath
        rfl
      · intro hpath
        rw [hpath]
        exact .nil
  | cons c rest ih =>
      obtain ⟨hhead, hrest⟩ := not_or.mp h
      have hc : ¬ (c = '%' ∨ c = '*') := by tauto
      have hbrace : c = '{' → '}' ∉ rest := by tauto
      rw [patternPieces_char hc hbrace]
      constructor
      · intro hpath
        cases hpath with
        | char tail => rw [(ih hrest).mp tail]
      · intro hpath
        rw [hpath]
        exact .char ((ih hrest).mpr rfl)

/-- The characters that the code looks for first. -/
theorem hasWildcard_mem {pattern : Text} (h : HasWildcard pattern) :
    '%' ∈ pattern ∨ '*' ∈ pattern ∨ '{' ∈ pattern := by
  induction pattern with
  | nil => exact h.elim
  | cons c rest ih =>
      simp only [List.mem_cons]
      cases h with
      | inl hc =>
          obtain rfl | rfl | ⟨rfl, -⟩ := hc
          · exact .inl (.inl rfl)
          · exact .inr (.inl (.inl rfl))
          · exact .inr (.inr (.inl rfl))
      | inr hrest =>
          obtain h | h | h := ih hrest
          · exact .inl (.inr h)
          · exact .inr (.inl (.inr h))
          · exact .inr (.inr (.inr h))

theorem hasWildcard_of_mem {c : Char} {pattern : Text} (hc : c = '%' ∨ c = '*')
    (h : c ∈ pattern) : HasWildcard pattern := by
  induction pattern with
  | nil => cases h
  | cons d rest ih =>
      obtain rfl | hrest := List.mem_cons.mp h
      · exact .inl (hc.imp_right .inl)
      · exact .inr (ih hrest)

/-! ## The results -/

/-- What fits on one line fits. -/
theorem Stands.any {pattern path : Text} (h : Stands OneLine pattern path) :
    Stands AnyText pattern path := by
  induction h with
  | nil => exact .nil
  | wildcard hc _ _ ih => exact .wildcard hc trivial ih
  | placeholder hname hne hs _ ih => exact .placeholder hname hne hs ih
  | char hc hbrace _ ih => exact .char hc hbrace ih

/-- On a path of one line the wildcards have what they are documented to stand for. -/
theorem Stands.oneLine {pattern path : Text} (h : Stands AnyText pattern path)
    (hline : OneLine path) : Stands OneLine pattern path := by
  induction h with
  | nil => exact .nil
  | wildcard hc _ _ ih =>
      have hs : OneLine _ := fun hmem => hline (List.mem_append_left _ hmem)
      exact .wildcard hc hs (ih fun hmem => hline (List.mem_append_right _ hmem))
  | placeholder hname hne hs _ ih =>
      exact .placeholder hname hne hs (ih fun hmem => hline (List.mem_append_right _ hmem))
  | char hc hbrace _ ih => exact .char hc hbrace (ih (List.not_mem_of_not_mem_cons hline))

theorem OnlyAcrossLines.mem {path pattern : Text} (h : OnlyAcrossLines path pattern) :
    '\n' ∈ path := by
  by_contra hline
  exact h.2 (h.1.oneLine hline)

theorem liesBelow_iff {path pattern : Text} :
    LiesBelow path pattern ↔
      (Text.rstripChar '/' pattern ++ ['/']).isPrefixOf path = true := by
  rw [List.isPrefixOf_iff_prefix]
  constructor
  · intro h
    obtain ⟨rest, hrest⟩ := h
    rw [hrest]
    exact ⟨rest, List.append_assoc _ _ _⟩
  · intro h
    obtain ⟨rest, hrest⟩ := h
    refine ⟨rest, ?_⟩
    rw [← hrest, List.append_assoc]
    rfl

/-- A pattern with a character of a wildcard is laid over the path. -/
theorem pathMatches_iff_stands {path pattern : Text} {legacyPrefix : Bool}
    (h : '%' ∈ pattern ∨ '*' ∈ pattern ∨ '{' ∈ pattern) :
    pathMatches path pattern legacyPrefix = true ↔ Stands OneLine pattern path := by
  have hbranch : ¬ ('%' ∉ pattern ∧ '*' ∉ pattern ∧ '{' ∉ pattern) := by tauto
  rw [pathMatches, if_neg hbranch, piecesMatch_iff, stands_iff_piecesStand]

/-- Any other is compared, and under a legacy target taken as a prefix. -/
theorem pathMatches_iff_literal {path pattern : Text} {legacyPrefix : Bool}
    (h : ¬ ('%' ∈ pattern ∨ '*' ∈ pattern ∨ '{' ∈ pattern)) :
    pathMatches path pattern legacyPrefix = true ↔
      path = pattern ∨ (legacyPrefix = true ∧ LiesBelow path pattern) := by
  have hbranch : '%' ∉ pattern ∧ '*' ∉ pattern ∧ '{' ∉ pattern := by tauto
  rw [pathMatches, if_pos hbranch, liesBelow_iff, Bool.or_eq_true, Bool.and_eq_true,
    decide_eq_true_eq]

/-- The code has the declared meaning exactly where no line break stands under a wildcard and
no unclosed brace is in the way of a legacy prefix. -/
theorem pathMatches_means_iff (path pattern : Text) (legacyPrefix : Bool) :
    (pathMatches path pattern legacyPrefix = true ↔ Means path pattern legacyPrefix) ↔
      ¬ OnlyAcrossLines path pattern ∧ ¬ BelowUnclosed path pattern legacyPrefix := by
  by_cases hmem : '%' ∈ pattern ∨ '*' ∈ pattern ∨ '{' ∈ pattern
  · rw [pathMatches_iff_stands hmem]
    by_cases hwild : HasWildcard pattern
    · have hmeans : Means path pattern legacyPrefix ↔ Stands AnyText pattern path := by
        constructor
        · intro h
          cases h with
          | inl h => exact h
          | inr h => exact absurd hwild h.2.1
        · exact .inl
      have hbelow : ¬ BelowUnclosed path pattern legacyPrefix := fun h => h.2.2.1 hwild
      rw [hmeans]
      constructor
      · intro h
        exact ⟨fun hacross => hacross.2 (h.mpr hacross.1), hbelow⟩
      · intro h
        refine ⟨Stands.any, fun hany => ?_⟩
        by_contra hline
        exact h.1 ⟨hany, hline⟩
    · have hbrace : '{' ∈ pattern := by
        obtain h | h | h := hmem
        · exact absurd (hasWildcard_of_mem (.inl rfl) h) hwild
        · exact absurd (hasWildcard_of_mem (.inr rfl) h) hwild
        · exact h
      unfold Means OnlyAcrossLines BelowUnclosed
      rw [stands_iff_eq hwild, stands_iff_eq hwild]
      tauto
  · have hwild : ¬ HasWildcard pattern := fun h => hmem (hasWildcard_mem h)
    have hbrace : '{' ∉ pattern := fun h => hmem (.inr (.inr h))
    rw [pathMatches_iff_literal hmem]
    unfold Means OnlyAcrossLines BelowUnclosed
    rw [stands_iff_eq hwild, stands_iff_eq hwild]
    tauto

/-- A resource's name that ends in a line break is under the wildcard, and is not matched. -/
theorem newline_not_matched :
    pathMatches "/a/x\n".toList "/a/%".toList false = false ∧
      Means "/a/x\n".toList "/a/%".toList false := by
  refine ⟨by decide, .inl ?_⟩
  rw [stands_iff_piecesStand]
  exact .char (.char (.char (.wildcard (s := "x\n".toList) trivial .nil)))

end M8flow.Authorization
