import M8flow.Lib.Replace

/-!
# Separators that can overlap themselves

A separator `/name/` starts and ends with the same character, so that two of them can share
it.  `split` reads from the left: it may take the first character of a separator for the end
of the one before, and then it does not see that separator.

- `separator` is the separator of a name.
- `Splits base`: a separator behind the text is read as one.
- `firstPart_lastSplit` is what stands between the last separator and the next `/`, for a text
  that ends in a word and some `/`.
-/

namespace M8flow.Lib.Text

variable {c : Char} {name : Text}

/-- `/name/`. -/
def separator (c : Char) (name : Text) : Text := c :: (name ++ [c])

/-- `s.split(sep)[-1]`. -/
def lastSplit (sep s : Text) : Text := ((splitOn sep s).getLast?).getD []

/-- Behind the text, a separator ends a part. -/
def Splits (c : Char) (name base : Text) : Prop :=
  lastSplit (separator c name) (base ++ separator c name) = []

instance instDecidableSplits (c : Char) (name base : Text) : Decidable (Splits c name base) :=
  inferInstanceAs (Decidable (_ = _))

theorem separator_ne_nil : separator c name ≠ [] := List.cons_ne_nil _ _

theorem length_separator (c : Char) (name : Text) :
    (separator c name).length = name.length + 2 := by
  simp [separator]

theorem splitFrom_ne_nil (sep part s : Text) (skip : Nat) : splitFrom sep skip part s ≠ [] := by
  induction s generalizing part skip with
  | nil =>
      cases skip with
      | zero => exact List.cons_ne_nil _ _
      | succ skip => exact List.cons_ne_nil _ _
  | cons d s ih =>
      cases skip with
      | succ skip => exact ih part skip
      | zero =>
          rw [splitFrom]
          split
          · exact List.cons_ne_nil _ _
          · exact ih _ _

theorem getLast?_cons_splitFrom (sep first part s : Text) (skip : Nat) :
    (first :: splitFrom sep skip part s).getLast? = (splitFrom sep skip part s).getLast? := by
  obtain ⟨last, hlast⟩ := Option.isSome_iff_exists.mp
    (List.getLast?_isSome.mpr (splitFrom_ne_nil sep part s skip))
  rw [List.getLast?_cons, hlast, Option.getD_some]

/-- Two separators overlap in their first and last characters only. -/
theorem overlap (hc : c ∉ name) {base rest : Text}
    (h : base ++ separator c name = separator c name ++ rest) (hne : base ≠ [])
    (hshort : base.length < (separator c name).length) : rest = name ++ [c] := by
  have hpos := List.length_pos_iff.mpr hne
  have hlength := length_separator c name
  have hat : (separator c name)[base.length]? = some c := by
    have hget := congrArg (fun s => s[base.length]?) h
    rw [List.getElem?_append_right (Nat.le_refl _), Nat.sub_self,
      List.getElem?_append_left hshort] at hget
    rw [← hget]
    rfl
  have hlast : base.length = name.length + 1 := by
    by_contra hother
    have hinside : base.length - 1 < name.length := by omega
    have hmem : (separator c name)[base.length]? = name[base.length - 1]? := by
      obtain ⟨less, hless⟩ : ∃ less, base.length = less + 1 := ⟨base.length - 1, by omega⟩
      rw [hless] at hinside ⊢
      rw [separator, List.getElem?_cons_succ]
      exact List.getElem?_append_left hinside
    rw [hmem] at hat
    exact hc (List.mem_of_getElem? hat)
  have hdrop := congrArg (List.drop (separator c name).length) h
  rw [List.drop_left, List.drop_append, List.drop_eq_nil_of_le (by omega), List.nil_append,
    length_separator, hlast] at hdrop
  rw [← hdrop]
  have hone : name.length + 2 - (name.length + 1) = 1 := by omega
  rw [hone]
  rfl

/-- Reading a text and a separator behind it: either the separator ends a part, or its first
character is the end of the one before. -/
theorem splitFrom_separator (hc : c ∉ name) (base : Text) :
    (∀ part s, (splitFrom (separator c name) 0 part (base ++ (separator c name ++ s))).getLast? =
      (splitOn (separator c name) s).getLast?) ∨
    (∀ part s, (splitFrom (separator c name) 0 part (base ++ (separator c name ++ s))).getLast? =
      (splitOn (separator c name) (name ++ [c] ++ s)).getLast?) := by
  -- The induction is on the length of the text, for it is read in steps of a separator.
  obtain ⟨n, hn⟩ : ∃ n, base.length ≤ n := ⟨_, Nat.le_refl _⟩
  induction n generalizing base with
  | zero =>
      left
      intro part s
      rw [List.length_eq_zero_iff.mp (Nat.le_zero.mp hn), List.nil_append,
        splitFrom_sep separator_ne_nil, getLast?_cons_splitFrom]
      rfl
  | succ n ih =>
      have hlength := length_separator c name
      by_cases hstarts : separator c name <+: base ++ separator c name
      · obtain ⟨rest, hrest⟩ := hstarts
        have hsum := congrArg List.length hrest
        rw [List.length_append, List.length_append] at hsum
        have hread : ∀ part s,
            (splitFrom (separator c name) 0 part (base ++ (separator c name ++ s))).getLast? =
              (splitFrom (separator c name) 0 [] (rest ++ s)).getLast? := by
          intro part s
          rw [← List.append_assoc, ← hrest, List.append_assoc, splitFrom_sep separator_ne_nil,
            getLast?_cons_splitFrom]
        by_cases hnil : base = []
        · left
          intro part s
          have hrestNil : rest = [] := by
            rw [hnil, List.length_nil] at hsum
            exact List.length_eq_zero_iff.mp (by omega)
          rw [hread, hrestNil]
          rfl
        · by_cases hshort : base.length < (separator c name).length
          · right
            intro part s
            rw [hread, overlap hc hrest.symm hnil hshort]
            rfl
          · -- the next separator starts behind the one that was read
            have hsuffix : separator c name <:+ rest := by
              have hin : separator c name <:+ separator c name ++ rest := by
                rw [hrest]
                exact List.suffix_append _ _
              have hmore : rest <:+ separator c name ++ rest := List.suffix_append _ _
              exact List.suffix_of_suffix_length_le hin hmore (by omega)
            obtain ⟨shorter, hshorter⟩ := hsuffix
            have hless : shorter.length ≤ n := by
              have hsum' := congrArg List.length hshorter
              rw [List.length_append] at hsum'
              omega
            rcases ih shorter hless with hends | hshares
            · left
              intro part s
              rw [hread, ← hshorter, List.append_assoc, hends]
            · right
              intro part s
              rw [hread, ← hshorter, List.append_assoc, hshares]
      · cases base with
        | nil => exact absurd (List.prefix_refl _) hstarts
        | cons d base =>
            rw [List.length_cons] at hn
            have hread : ∀ part s,
                splitFrom (separator c name) 0 part (d :: base ++ (separator c name ++ s)) =
                  splitFrom (separator c name) 0 (d :: part) (base ++ (separator c name ++ s)) := by
              intro part s
              apply splitFrom_char
              intro hhere
              apply hstarts
              have hwhole : d :: base ++ separator c name <+:
                  d :: (base ++ (separator c name ++ s)) := ⟨s, by simp⟩
              exact List.prefix_of_prefix_length_le hhere hwhole
                (by rw [List.length_append]; omega)
            rcases ih base (by omega) with hends | hshares
            · left
              intro part s
              rw [hread, hends]
            · right
              intro part s
              rw [hread, hshares]

/-! ## The last part -/

section Last

theorem splitFrom_word {sep word : Text} (hsep : sep.head? = some c) (hword : c ∉ word)
    (part rest : Text) :
    splitFrom sep 0 part (word ++ rest) = splitFrom sep 0 (word.reverse ++ part) rest := by
  induction word generalizing part with
  | nil => rfl
  | cons d word ih =>
      have hne : c ≠ d := fun hsame => hword (hsame ▸ List.mem_cons_self)
      have hword' : c ∉ word := fun hmem => hword (List.mem_cons_of_mem d hmem)
      have hstarts : ¬ sep <+: d :: (word ++ rest) := by
        intro h
        cases sep with
        | nil => cases hsep
        | cons e more =>
            rw [List.head?_cons, Option.some.injEq] at hsep
            exact hne (hsep ▸ (List.cons_prefix_cons.mp h).1)
      rw [List.cons_append, splitFrom_char hstarts, ih hword', List.reverse_cons, List.append_assoc,
        List.singleton_append]

theorem splitFrom_replicate (hname : name ≠ []) (hc : c ∉ name) (part : Text) (n : Nat) :
    splitFrom (separator c name) 0 part (List.replicate n c) =
      [part.reverse ++ List.replicate n c] := by
  induction n generalizing part with
  | zero => rw [List.replicate_zero, splitFrom, List.append_nil]
  | succ n ih =>
      have hstarts : ¬ separator c name <+: c :: List.replicate n c := by
        intro h
        obtain ⟨d, more, hd⟩ := List.exists_cons_of_ne_nil hname
        have hmem : d ∈ List.replicate n c := by
          have hin := (List.cons_prefix_cons.mp h).2.subset
          apply hin
          rw [hd]
          exact List.mem_append_left _ List.mem_cons_self
        rw [List.eq_of_mem_replicate hmem] at hd
        exact hc (hd ▸ List.mem_cons_self)
      rw [List.replicate_succ, splitFrom_char hstarts, ih, List.reverse_cons, List.append_assoc,
        List.singleton_append]

/-- A word and some `/` behind it are one part. -/
theorem splitFrom_word_replicate (hname : name ≠ []) (hc : c ∉ name) {word : Text}
    (hword : c ∉ word) (part : Text) (n : Nat) :
    splitFrom (separator c name) 0 part (word ++ List.replicate n c) =
      [part.reverse ++ (word ++ List.replicate n c)] := by
  rw [splitFrom_word rfl hword, splitFrom_replicate hname hc, List.reverse_append,
    List.reverse_reverse, List.append_assoc]

theorem firstPart_word {word : Text} (hword : c ∉ word) (n : Nat) :
    firstPart c (word ++ List.replicate n c) = word := by
  have hall : ∀ d ∈ word, decide (d ≠ c) = true := by
    intro d hd
    exact decide_eq_true fun hsame => hword (hsame ▸ hd)
  rw [firstPart, List.takeWhile_append_of_pos hall]
  cases n with
  | zero => exact List.append_nil word
  | succ n =>
      rw [List.replicate_succ, List.takeWhile_cons_of_neg (by simp), List.append_nil]

/-- A separator starts at the `/` in front of a word if the word is its name and has one
behind it. -/
theorem separator_prefix_iff (hc : c ∉ name) {word : Text} (hword : c ∉ word) (n : Nat) :
    separator c name <+: c :: (word ++ List.replicate n c) ↔ word = name ∧ n ≠ 0 := by
  rw [separator, List.cons_prefix_cons]
  constructor
  · rintro ⟨-, rest, hrest⟩
    rw [List.append_assoc] at hrest
    have hfirst := congrArg (firstPart c) hrest
    have hone : name ++ ([c] ++ rest) = name ++ List.replicate 1 c ++ rest := by simp
    rw [firstPart_word hword] at hfirst
    have hname : firstPart c (name ++ ([c] ++ rest)) = name := by
      have hall : ∀ d ∈ name, decide (d ≠ c) = true := by
        intro d hd
        exact decide_eq_true fun hsame => hc (hsame ▸ hd)
      rw [firstPart, List.takeWhile_append_of_pos hall, List.singleton_append,
        List.takeWhile_cons_of_neg (by simp), List.append_nil]
    rw [hname] at hfirst
    refine ⟨hfirst.symm, ?_⟩
    intro hzero
    rw [hzero, hfirst, List.replicate_zero, List.append_nil] at hrest
    have hlength := congrArg List.length hrest
    simp at hlength
  · rintro ⟨hsame, hn⟩
    refine ⟨rfl, ?_⟩
    obtain ⟨less, hless⟩ : ∃ less, n = less + 1 := ⟨n - 1, by omega⟩
    rw [hsame, hless, List.replicate_succ]
    exact ⟨List.replicate less c, by simp⟩

theorem splits_or (hname : name ≠ []) (hc : c ∉ name) (base : Text) :
    (Splits c name base ∧ ∀ part s,
      (splitFrom (separator c name) 0 part (base ++ (separator c name ++ s))).getLast? =
        (splitOn (separator c name) s).getLast?) ∨
    (¬ Splits c name base ∧ ∀ part s,
      (splitFrom (separator c name) 0 part (base ++ (separator c name ++ s))).getLast? =
        (splitOn (separator c name) (name ++ [c] ++ s)).getLast?) := by
  rcases splitFrom_separator hc base with hends | hshares
  · left
    refine ⟨?_, hends⟩
    have hnil := hends [] []
    rw [List.append_nil] at hnil
    rw [Splits, lastSplit, splitOn, hnil]
    rfl
  · right
    refine ⟨?_, hshares⟩
    have hnil := hshares [] []
    have hone := splitFrom_word_replicate hname hc hc [] 1
    rw [List.append_nil] at hnil
    rw [Splits, lastSplit, splitOn, hnil, List.append_nil, splitOn]
    intro h
    rw [show name ++ [c] = name ++ List.replicate 1 c from rfl, hone] at h
    cases name with
    | nil => exact hname rfl
    | cons d name => cases h

/-- What stands between the last separator and the next `/`. -/
theorem firstPart_lastSplit (hname : name ≠ []) (hc : c ∉ name) {word : Text} (hword : c ∉ word)
    (base part : Text) (n : Nat) :
    firstPart c (((splitFrom (separator c name) 0 part
        (base ++ (separator c name ++ (word ++ List.replicate n c)))).getLast?).getD []) =
      if Splits c name base then word else if word = name ∧ n ≠ 0 then [] else name := by
  rcases splits_or hname hc base with ⟨hsplits, hlast⟩ | ⟨hnot, hlast⟩
  · have hwhole := splitFrom_word_replicate hname hc hword [] n
    rw [if_pos hsplits, hlast, splitOn, hwhole]
    exact firstPart_word hword n
  · rw [if_neg hnot, hlast, splitOn, List.append_assoc, List.singleton_append,
      splitFrom_word rfl hc]
    by_cases hagain : word = name ∧ n ≠ 0
    · rw [if_pos hagain]
      obtain ⟨less, hless⟩ : ∃ less, n = less + 1 := ⟨n - 1, by omega⟩
      have hnext : c :: (word ++ List.replicate n c) =
          separator c name ++ ([] ++ List.replicate less c) := by
        rw [hagain.1, hless, List.replicate_succ]
        simp [separator]
      rw [hnext, splitFrom_sep separator_ne_nil, getLast?_cons_splitFrom,
        splitFrom_word_replicate hname hc List.not_mem_nil]
      exact firstPart_word List.not_mem_nil less
    · have hstarts := (separator_prefix_iff hc hword n).not.mpr hagain
      have hall : ∀ d ∈ name, decide (d ≠ c) = true := by
        intro d hd
        exact decide_eq_true fun hsame => hc (hsame ▸ hd)
      rw [if_neg hagain, splitFrom_char hstarts, splitFrom_word_replicate hname hc hword]
      simp only [List.append_nil, List.reverse_cons, List.reverse_reverse, List.getLast?_singleton,
        Option.getD_some]
      rw [firstPart, List.append_assoc, List.takeWhile_append_of_pos hall, List.singleton_append,
        List.takeWhile_cons_of_neg (by simp), List.append_nil]

/-- Text without the character may stand in front. -/
theorem splits_append (hc : c ∉ name) {before : Text} (hbefore : c ∉ before)
    (base : Text) : Splits c name (before ++ base) ↔ Splits c name base := by
  have hhead : (separator c name).head? = some c := rfl
  have hread := splitFrom_word hhead hbefore []
    (base ++ (separator c name ++ []))
  have hsame : (before ++ base) ++ separator c name =
      before ++ (base ++ (separator c name ++ [])) := by simp
  rw [Splits, Splits, lastSplit, lastSplit, splitOn, splitOn, hsame, hread]
  have hlast : ∀ part other : Text,
      (splitFrom (separator c name) 0 part (base ++ (separator c name ++ []))).getLast? =
        (splitFrom (separator c name) 0 other (base ++ (separator c name ++ []))).getLast? := by
    intro part other
    rcases splitFrom_separator hc base with hends | hshares
    · rw [hends, hends]
    · rw [hshares, hshares]
  rw [hlast _ [], List.append_nil]

end Last

end M8flow.Lib.Text
