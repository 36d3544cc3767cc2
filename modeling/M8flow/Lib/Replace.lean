import M8flow.Lib.Text

/-!
# Replacing a text

`splitOn` and `replace` for a separator of any length that is not empty.

- `splitOn_at_first`, `splitOn_of_not_infix`: how a text is split.
- `not_infix_of_mem_splitOn`, `infix_of_mem_splitOn`: the parts lie in the text, and the
  separator in none of them.
- `infix_of_infix_replace`: a text that no replacement can touch is in what is left only
  if it was there before.
-/

namespace M8flow.Lib.Text

variable {sep : Text}

/-! ## Splitting -/

theorem splitFrom_skip (skip : Nat) (part s : Text) :
    splitFrom sep skip part s = splitFrom sep 0 part (s.drop skip) := by
  induction s generalizing skip with
  | nil =>
      rw [List.drop_nil]
      cases skip with
      | zero => rfl
      | succ skip => rfl
  | cons c s ih =>
      cases skip with
      | zero => rfl
      | succ skip =>
          rw [List.drop_succ_cons, ← ih skip]
          rfl

/-- At a separator a part ends, and the next one starts behind it. -/
theorem splitFrom_sep (hne : sep ≠ []) (part rest : Text) :
    splitFrom sep 0 part (sep ++ rest) = part.reverse :: splitFrom sep 0 [] rest := by
  cases hsep : sep with
  | nil => exact absurd hsep hne
  | cons c more =>
      have hstarts : (c :: more).isPrefixOf (c :: (more ++ rest)) = true := by
        rw [List.isPrefixOf_iff_prefix]
        exact ⟨rest, rfl⟩
      rw [List.cons_append, splitFrom, if_pos hstarts, splitFrom_skip, List.length_cons,
        Nat.add_sub_cancel, List.drop_left]

theorem splitFrom_char {c : Char} {s : Text} (h : ¬ sep <+: c :: s) (part : Text) :
    splitFrom sep 0 part (c :: s) = splitFrom sep 0 (c :: part) s := by
  rw [splitFrom, if_neg (by rw [List.isPrefixOf_iff_prefix]; exact h)]

/-- The part before the first separator comes first. -/
theorem splitFrom_at_first (hne : sep ≠ []) {x rest : Text}
    (hfirst : ∀ i < x.length, ¬ sep <+: (x ++ (sep ++ rest)).drop i) (part : Text) :
    splitFrom sep 0 part (x ++ (sep ++ rest)) =
      (part.reverse ++ x) :: splitFrom sep 0 [] rest := by
  induction x generalizing part with
  | nil => rw [List.nil_append, splitFrom_sep hne, List.append_nil]
  | cons c x ih =>
      have hhere : ¬ sep <+: c :: (x ++ (sep ++ rest)) := by
        have h := hfirst 0 (by simp)
        rwa [List.drop_zero] at h
      have hlater : ∀ i < x.length, ¬ sep <+: (x ++ (sep ++ rest)).drop i := by
        intro i hi
        have h := hfirst (i + 1) (by rw [List.length_cons]; omega)
        rwa [List.cons_append, List.drop_succ_cons] at h
      rw [List.cons_append, splitFrom_char hhere, ih hlater, List.reverse_cons, List.append_assoc,
        List.singleton_append]

theorem splitOn_at_first (hne : sep ≠ []) {x rest : Text}
    (hfirst : ∀ i < x.length, ¬ sep <+: (x ++ (sep ++ rest)).drop i) :
    splitOn sep (x ++ (sep ++ rest)) = x :: splitOn sep rest :=
  splitFrom_at_first hne hfirst []

/-- A text without the separator is its own one part. -/
theorem splitOn_of_not_infix {s : Text} (h : ¬ sep <:+: s) : splitOn sep s = [s] := by
  have hgeneral : ∀ s part : Text, ¬ sep <:+: s →
      splitFrom sep 0 part s = [part.reverse ++ s] := by
    intro s
    induction s with
    | nil =>
        intro part _
        rw [List.append_nil]
        rfl
    | cons c s ih =>
        intro part hs
        rw [splitFrom_char (fun hstarts => hs hstarts.isInfix),
          ih (c :: part) (fun hin => hs (hin.trans (List.suffix_cons c s).isInfix)),
          List.reverse_cons, List.append_assoc, List.singleton_append]
  exact hgeneral s [] h

/-- The parts lie in the text and are free of the separator, if no separator started in the
part that is being read. -/
theorem parts_of_splitFrom (hne : sep ≠ []) (n : Nat) :
    ∀ s part : Text, s.length ≤ n →
      (∀ i < part.length, ¬ sep <+: (part.reverse ++ s).drop i) →
        ∀ p ∈ splitFrom sep 0 part s, ¬ sep <:+: p ∧ p <:+: part.reverse ++ s := by
  -- a separator inside the part that was read would have started there
  have hread : ∀ s part : Text, (∀ i < part.length, ¬ sep <+: (part.reverse ++ s).drop i) →
      ¬ sep <:+: part.reverse := by
    intro s part hclean hin
    obtain ⟨before, after, hsame⟩ := hin
    have hlength := congrArg List.length hsame
    rw [List.length_append, List.length_append, List.length_reverse] at hlength
    have hpos : 0 < sep.length := List.length_pos_of_ne_nil hne
    apply hclean before.length (by omega)
    rw [← hsame, List.append_assoc, List.append_assoc, List.drop_left]
    exact List.prefix_append _ _
  induction n with
  | zero =>
      intro s part hlength hclean p hp
      have hnil : s = [] := List.length_eq_zero_iff.mp (by omega)
      subst hnil
      rw [splitFrom, List.mem_singleton] at hp
      rw [hp, List.append_nil]
      exact ⟨hread [] part hclean, List.infix_refl _⟩
  | succ n ih =>
      intro s part hlength hclean p hp
      cases s with
      | nil =>
          rw [splitFrom, List.mem_singleton] at hp
          rw [hp, List.append_nil]
          exact ⟨hread [] part hclean, List.infix_refl _⟩
      | cons c s =>
          by_cases hstarts : sep <+: c :: s
          · obtain ⟨rest, hrest⟩ := hstarts
            rw [← hrest, splitFrom_sep hne] at hp
            rcases List.mem_cons.mp hp with hfirst | hlater
            · rw [hfirst]
              exact ⟨hread (c :: s) part hclean, (List.prefix_append _ _).isInfix⟩
            · have hshort : rest.length ≤ n := by
                have hsum := congrArg List.length hrest
                rw [List.length_append] at hsum
                have hpos : 0 < sep.length := List.length_pos_of_ne_nil hne
                omega
              obtain ⟨hfree, hin⟩ := ih rest [] hshort (fun i hi => absurd hi (Nat.not_lt_zero i)) p hlater
              refine ⟨hfree, hin.trans ?_⟩
              rw [← hrest]
              exact ((List.suffix_append sep rest).trans (List.suffix_append _ _)).isInfix
          · rw [splitFrom_char hstarts] at hp
            have hsame : (c :: part).reverse ++ s = part.reverse ++ c :: s := by
              rw [List.reverse_cons, List.append_assoc, List.singleton_append]
            rw [List.length_cons] at hlength
            have hmore : ∀ i < (c :: part).length, ¬ sep <+: ((c :: part).reverse ++ s).drop i := by
              intro i hi
              rw [hsame]
              rw [List.length_cons] at hi
              by_cases hlast : i = part.length
              · rw [hlast, List.drop_left' (List.length_reverse)]
                exact hstarts
              · exact hclean i (by omega)
            have h := ih s (c :: part) (by omega) hmore p hp
            rwa [hsame] at h

theorem not_infix_of_mem_splitOn (hne : sep ≠ []) {s p : Text} (h : p ∈ splitOn sep s) :
    ¬ sep <:+: p :=
  (parts_of_splitFrom hne s.length s [] (Nat.le_refl _)
    (fun i hi => absurd hi (Nat.not_lt_zero i)) p h).1

theorem infix_of_mem_splitOn (hne : sep ≠ []) {s p : Text} (h : p ∈ splitOn sep s) : p <:+: s :=
  (parts_of_splitFrom hne s.length s [] (Nat.le_refl _)
    (fun i hi => absurd hi (Nat.not_lt_zero i)) p h).2

/-! ## Replacing -/

/-- No occurrence of `w` can use a character of a `new` that was put in: `w` neither starts
nor ends inside it, nor has it whole. -/
structure Untouched (new w : Text) : Prop where
  ne_nil : w ≠ []
  head : ∀ c, w.head? = some c → c ∉ new
  last : ∀ c, w.getLast? = some c → c ∉ new
  whole : ¬ new <:+: w

/-- Around a `new` such a text is on one side. -/
theorem infix_or_infix {new w a b : Text} (hw : Untouched new w)
    (h : w <:+: a ++ (new ++ b)) : w <:+: a ∨ w <:+: b := by
  obtain ⟨before, after, hsame⟩ := h
  rw [List.append_assoc] at hsame
  rcases List.append_eq_append_iff.mp hsame with ⟨d, ha, hrest⟩ | ⟨d, hbefore, hrest⟩
  · -- it starts in `a`
    rcases List.append_eq_append_iff.mp hrest with ⟨e, hd, -⟩ | ⟨g, hwsplit, hnew⟩
    · left
      rw [ha, hd]
      exact ⟨before, e, by rw [List.append_assoc]⟩
    · by_cases hnil : g = []
      · left
        rw [ha, hwsplit, hnil, List.append_nil]
        exact (List.suffix_append _ _).isInfix
      · exfalso
        rcases List.append_eq_append_iff.mp hnew with ⟨k, hg, -⟩ | ⟨k, hnewsplit, -⟩
        · apply hw.whole
          rw [hwsplit, hg]
          exact ⟨d, k, by rw [List.append_assoc]⟩
        · apply hw.last (g.getLast hnil)
          · rw [hwsplit, List.getLast?_append, List.getLast?_eq_some_getLast hnil, Option.some_or]
          · rw [hnewsplit]
            exact List.mem_append_left _ (List.getLast_mem hnil)
  · -- it starts behind `a`
    rcases List.append_eq_append_iff.mp hrest with ⟨e, hd, hb⟩ | ⟨e, hnewsplit, hwrest⟩
    · right
      rw [hb]
      exact ⟨e, after, by rw [List.append_assoc]⟩
    · right
      cases e with
      | nil =>
          rw [List.nil_append] at hwrest
          rw [← hwrest]
          exact (List.prefix_append _ _).isInfix
      | cons c e =>
          exfalso
          obtain ⟨first, more, hfirst⟩ := List.exists_cons_of_ne_nil hw.ne_nil
          rw [hfirst, List.cons_append, List.cons_append] at hwrest
          apply hw.head first
          · rw [hfirst]
            rfl
          · rw [hnewsplit, (List.cons.inj hwrest).1]
            exact List.mem_append_right _ List.mem_cons_self

/-- Between parts that are joined it is in one of them. -/
theorem infix_of_infix_intercalate {new w : Text} (hw : Untouched new w) {parts : List Text}
    (h : w <:+: new.intercalate parts) : ∃ p ∈ parts, w <:+: p := by
  induction parts with
  | nil =>
      rw [List.intercalate_nil] at h
      exact absurd (List.infix_nil.mp h) hw.ne_nil
  | cons part parts ih =>
      cases parts with
      | nil =>
          rw [List.intercalate_singleton] at h
          exact ⟨part, List.mem_cons_self, h⟩
      | cons other parts =>
          rw [List.intercalate_cons_of_ne_nil (List.cons_ne_nil _ _), List.append_assoc] at h
          rcases infix_or_infix hw h with hhere | hlater
          · exact ⟨part, List.mem_cons_self, hhere⟩
          · obtain ⟨p, hp, hin⟩ := ih hlater
            exact ⟨p, List.mem_cons_of_mem _ hp, hin⟩

/-- A replacement puts no such text in. -/
theorem infix_of_infix_replace {old new w s : Text} (hold : old ≠ []) (hw : Untouched new w)
    (h : w <:+: replace old new s) : w <:+: s := by
  obtain ⟨p, hp, hin⟩ := infix_of_infix_intercalate hw h
  exact hin.trans (infix_of_mem_splitOn hold hp)

/-- It is not in what is left after it was replaced. -/
theorem not_infix_replace_self {new w : Text} (hw : Untouched new w) (s : Text) :
    ¬ w <:+: replace w new s := by
  intro h
  obtain ⟨p, hp, hin⟩ := infix_of_infix_intercalate hw h
  exact not_infix_of_mem_splitOn hw.ne_nil hp hin

/-- One replacement, at the first occurrence, when nothing is replaced behind it. -/
theorem replace_once {old new x rest : Text} (hold : old ≠ [])
    (hfirst : ∀ i < x.length, ¬ old <+: (x ++ (old ++ rest)).drop i) (hrest : ¬ old <:+: rest) :
    replace old new (x ++ (old ++ rest)) = x ++ (new ++ rest) := by
  unfold replace
  rw [splitOn_at_first hold hfirst, splitOn_of_not_infix hrest,
    List.intercalate_cons_of_ne_nil (List.cons_ne_nil _ _), List.intercalate_singleton,
    List.append_assoc]

end M8flow.Lib.Text
