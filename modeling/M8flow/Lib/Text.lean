import Mathlib.Data.List.DropRight
import Mathlib.Data.List.Infix

/-!
# Python text

A text that a program takes apart is the list of its code points.  The
operations follow the documented behaviour of Python's `str` methods:

- `strip`, `rstrip` and their forms with a set of characters;
- `partition`, `rpartition` and the last part of `split`, for one character;
- `split` and `replace` for a longer separator, from left to right;
- `truthy`, the reading of an optional text in a condition.

Text that is only compared or shown can stay a `String`.
-/

namespace M8flow.Lib

/-- A text as its list of code points. -/
abbrev Text := List Char

instance instDecidableMemText (s : Text) (texts : List Text) : Decidable (s ∈ texts) :=
  List.instDecidableMemOfLawfulBEq s texts

/-- An optional text that Python counts as true. -/
def truthy (value : Option Text) : Option Text := value.filter fun s => s ≠ []

@[simp] theorem truthy_none : truthy none = none := rfl

theorem truthy_eq_some {value : Option Text} {s : Text} :
    truthy value = some s ↔ value = some s ∧ s ≠ [] := by
  simp [truthy, Option.filter_eq_some_iff]

/-- The first alternative that counts as true. -/
theorem truthy_or (value other : Option Text) :
    truthy ((truthy value).or other) = (truthy value).or (truthy other) := by
  cases hvalue : truthy value with
  | none => rfl
  | some s =>
      rw [Option.some_or, Option.some_or]
      exact truthy_eq_some.mpr ⟨rfl, (truthy_eq_some.mp hvalue).2⟩

namespace Text

/-- The code points for which `str.isspace` is true, which `str.strip` removes. -/
def isSpace (c : Char) : Bool :=
  (9 ≤ c.toNat && c.toNat ≤ 13) || (28 ≤ c.toNat && c.toNat ≤ 32) ||
    c.toNat == 0x85 || c.toNat == 0xa0 || c.toNat == 0x1680 ||
    (0x2000 ≤ c.toNat && c.toNat ≤ 0x200a) ||
    c.toNat == 0x2028 || c.toNat == 0x2029 || c.toNat == 0x202f ||
    c.toNat == 0x205f || c.toNat == 0x3000

/-- Remove the characters that meet `p` from both ends. -/
def stripWhere (p : Char → Bool) (s : Text) : Text :=
  (s.dropWhile p).rdropWhile p

/-- `str.strip()`. -/
def strip (s : Text) : Text := stripWhere isSpace s

/-- `str.rstrip(c)` for one character. -/
def rstripChar (c : Char) (s : Text) : Text := s.rdropWhile (· == c)

/-- `s.partition(c)`: what is before the first `c`, whether there is one, what is after. -/
def partition (c : Char) (s : Text) : Text × Bool × Text :=
  if c ∈ s then (s.takeWhile (· ≠ c), true, (s.dropWhile (· ≠ c)).drop 1) else (s, false, [])

/-- `s.rpartition(c)`: the same around the last `c`. -/
def rpartition (c : Char) (s : Text) : Text × Bool × Text :=
  if c ∈ s then ((s.rdropWhile (· ≠ c)).dropLast, true, s.rtakeWhile (· ≠ c)) else ([], false, s)

/-- `s.split(c)[-1]`. -/
def lastPart (c : Char) (s : Text) : Text := s.rtakeWhile (· ≠ c)

/-- `s.split(c)[0]`. -/
def firstPart (c : Char) (s : Text) : Text := s.takeWhile (· ≠ c)

/-- `sep in s`. -/
def hasInfix (sep s : Text) : Bool := s.tails.any fun rest => sep.isPrefixOf rest

/-- The parts of a text from the left: `skip` characters of a separator are still to be
passed over, and `part` is the part that is being read, backwards. -/
def splitFrom (sep : Text) : Nat → Text → Text → List Text
  | _, part, [] => [part.reverse]
  | skip + 1, part, _ :: rest => splitFrom sep skip part rest
  | 0, part, c :: rest =>
      if sep.isPrefixOf (c :: rest) then part.reverse :: splitFrom sep (sep.length - 1) [] rest
      else splitFrom sep 0 (c :: part) rest

/-- `s.split(sep)`, for a separator that is not empty. -/
def splitOn (sep s : Text) : List Text := splitFrom sep 0 [] s

/-- `s.replace(old, new)`, for an `old` that is not empty. -/
def replace (old new s : Text) : Text := new.intercalate (splitOn old s)

section Strip

variable {p : Char → Bool}

@[simp] theorem stripWhere_nil : stripWhere p [] = [] := by
  simp [stripWhere]

/-- The first character of a stripped text is not one that is stripped. -/
theorem stripWhere_head {s : Text} (h : stripWhere p s ≠ []) :
    ¬ p ((stripWhere p s).head h) := by
  have hprefix : stripWhere p s <+: s.dropWhile p := List.rdropWhile_prefix p _
  have hne : s.dropWhile p ≠ [] := by
    intro hnil
    rw [stripWhere, hnil] at h
    exact h (by simp)
  have hhead : (stripWhere p s).head h = (s.dropWhile p).head hne :=
    hprefix.head h
  rw [hhead, List.head_dropWhile_not p hne]
  exact Bool.false_ne_true

/-- The last character of a stripped text is not one that is stripped. -/
theorem stripWhere_getLast {s : Text} (h : stripWhere p s ≠ []) :
    ¬ p ((stripWhere p s).getLast h) :=
  List.rdropWhile_last_not p _ h

/-- A text whose ends are not stripped is its own stripped form. -/
theorem stripWhere_eq_self {s : Text} (hhead : ∀ h : s ≠ [], ¬ p (s.head h))
    (hlast : ∀ h : s ≠ [], ¬ p (s.getLast h)) : stripWhere p s = s := by
  have hdrop : s.dropWhile p = s := by
    cases s with
    | nil => rfl
    | cons c s =>
        have hc := hhead (by simp)
        simp only [List.head_cons] at hc
        rw [List.dropWhile_cons_of_neg hc]
  rw [stripWhere, hdrop]
  exact List.rdropWhile_eq_self_iff.mpr hlast

/-- A text whose first and last characters stay is stripped of nothing. -/
theorem stripWhere_eq_self_of_ends {s : Text} (hhead : ∀ c, s.head? = some c → ¬ p c)
    (hlast : ∀ c, s.getLast? = some c → ¬ p c) : stripWhere p s = s :=
  stripWhere_eq_self (fun hne => hhead _ (List.head?_eq_some_head hne))
    (fun hne => hlast _ (List.getLast?_eq_some_getLast hne))

/-- Stripping twice is stripping once. -/
@[simp] theorem stripWhere_stripWhere (s : Text) :
    stripWhere p (stripWhere p s) = stripWhere p s :=
  stripWhere_eq_self stripWhere_head stripWhere_getLast

/-- A text with a character that stays is not stripped away. -/
theorem stripWhere_ne_nil {s : Text} {c : Char} (hmem : c ∈ s) (hc : ¬ p c) :
    stripWhere p s ≠ [] := by
  intro hnil
  have hdrop : ∀ x ∈ s.dropWhile p, p x := List.rdropWhile_eq_nil_iff.mp hnil
  have hall : ∀ x ∈ s.takeWhile p ++ s.dropWhile p, p x := by
    intro x hx
    rcases List.mem_append.mp hx with htake | hrest
    · exact List.mem_takeWhile_imp htake
    · exact hdrop x hrest
  rw [List.takeWhile_append_dropWhile] at hall
  exact hc (hall c hmem)

theorem stripWhere_isInfix (s : Text) : stripWhere p s <:+: s :=
  (List.rdropWhile_prefix p _).isInfix.trans (List.dropWhile_suffix p).isInfix

/-- A text that ends in a character that stays keeps its end. -/
theorem getLast?_stripWhere {s : Text} {c : Char} (h : s.getLast? = some c) (hc : ¬ p c) :
    (stripWhere p s).getLast? = some c := by
  obtain ⟨first, rfl⟩ := List.getLast?_eq_some_iff.mp h
  have hdrop : ∃ rest, (first ++ [c]).dropWhile p = rest ++ [c] := by
    rw [List.dropWhile_append]
    split
    · exact ⟨[], List.dropWhile_cons_of_neg hc⟩
    · exact ⟨_, rfl⟩
  obtain ⟨rest, hrest⟩ := hdrop
  unfold stripWhere
  rw [hrest, List.rdropWhile_concat_neg p rest c hc, List.getLast?_concat]

theorem length_strip (s : Text) : s.strip.length ≤ s.length :=
  (stripWhere_isInfix s).length_le

@[simp] theorem strip_nil : strip [] = [] := stripWhere_nil

@[simp] theorem strip_strip (s : Text) : strip (strip s) = strip s :=
  stripWhere_stripWhere s

example : strip "  t 1\t".toList = "t 1".toList := by decide

end Strip

section Around

variable {p : Char → Bool}

theorem dropWhile_append_cons {c : Char} (hc : ¬ p c) (s rest : Text) :
    (s ++ c :: rest).dropWhile p = s.dropWhile p ++ c :: rest := by
  induction s with
  | nil => rw [List.nil_append, List.dropWhile_cons_of_neg hc, List.dropWhile_nil, List.nil_append]
  | cons d s ih =>
      rw [List.cons_append]
      by_cases hd : p d
      · rw [List.dropWhile_cons_of_pos hd, List.dropWhile_cons_of_pos hd, ih]
      · rw [List.dropWhile_cons_of_neg hd, List.dropWhile_cons_of_neg hd, List.cons_append]

theorem rdropWhile_append_cons {c : Char} (hc : ¬ p c) (s rest : Text) :
    (s ++ c :: rest).rdropWhile p = s ++ c :: rest.rdropWhile p := by
  have hreverse : (s ++ c :: rest).reverse = rest.reverse ++ c :: s.reverse := by simp
  rw [List.rdropWhile, hreverse, dropWhile_append_cons hc, List.rdropWhile]
  simp

/-- The two ends are stripped in either order. -/
theorem dropWhile_rdropWhile (s : Text) :
    (s.rdropWhile p).dropWhile p = (s.dropWhile p).rdropWhile p := by
  induction s with
  | nil => rfl
  | cons c s ih =>
      by_cases hc : p c
      · rw [List.dropWhile_cons_of_pos hc, ← ih]
        by_cases hall : ∀ d ∈ s, p d
        · have hnil : (c :: s).rdropWhile p = [] :=
            List.rdropWhile_eq_nil_iff.mpr (List.forall_mem_cons.mpr ⟨hc, hall⟩)
          rw [hnil, List.rdropWhile_eq_nil_iff.mpr hall]
        · have hcons : (c :: s).rdropWhile p = c :: s.rdropWhile p := by
            push Not at hall
            obtain ⟨d, hd, hstop⟩ := hall
            obtain ⟨before, rest, hs⟩ := List.append_of_mem hd
            rw [hs, ← List.cons_append, rdropWhile_append_cons hstop,
              rdropWhile_append_cons hstop, List.cons_append]
          rw [hcons, List.dropWhile_cons_of_pos hc]
      · have hcons := rdropWhile_append_cons hc [] s
        rw [List.nil_append, List.nil_append] at hcons
        rw [List.dropWhile_cons_of_neg hc, hcons, List.dropWhile_cons_of_neg hc]

theorem stripWhere_dropWhile (s : Text) : stripWhere p (s.dropWhile p) = stripWhere p s := by
  rw [stripWhere, List.dropWhile_idempotent, stripWhere]

theorem stripWhere_rdropWhile (s : Text) : stripWhere p (s.rdropWhile p) = stripWhere p s := by
  rw [stripWhere, dropWhile_rdropWhile, List.rdropWhile_idempotent, stripWhere]

/-- Characters that are exchanged for ones that are stripped alike. -/
theorem stripWhere_map {f : Char → Char} (hf : ∀ c, p (f c) = p c) (s : Text) :
    stripWhere p (s.map f) = (stripWhere p s).map f := by
  have hp : p ∘ f = p := funext hf
  unfold stripWhere List.rdropWhile
  rw [List.dropWhile_map, hp, ← List.map_reverse, List.dropWhile_map, hp, List.map_reverse]

/-- A character that stays keeps the two sides of it apart. -/
theorem stripWhere_append_cons {c : Char} (hc : ¬ p c) (s rest : Text) :
    stripWhere p (s ++ c :: rest) = s.dropWhile p ++ c :: rest.rdropWhile p := by
  rw [stripWhere, dropWhile_append_cons hc, rdropWhile_append_cons hc]

end Around

section Partition

variable {c : Char}

/-- The part before the first separator is what is read up to it. -/
theorem partition_fst (s : Text) : (partition c s).1 = s.takeWhile (· ≠ c) := by
  unfold partition
  split
  · rfl
  · rename_i hnot
    symm
    rw [List.takeWhile_eq_self_iff]
    intro d hd
    exact decide_eq_true fun hsame => hnot (hsame ▸ hd)

/-- The parts around a first separator. -/
theorem partition_append {s : Text} (hs : c ∉ s) (rest : Text) :
    partition c (s ++ c :: rest) = (s, true, rest) := by
  have hpass : ∀ d ∈ s, decide (d ≠ c) = true := by
    intro d hd
    exact decide_eq_true fun hsame => hs (hsame ▸ hd)
  have hmem : c ∈ s ++ c :: rest := List.mem_append_right s List.mem_cons_self
  rw [partition, if_pos hmem, List.takeWhile_append_of_pos hpass,
    List.takeWhile_cons_of_neg (by simp), List.append_nil, List.dropWhile_append_of_pos hpass,
    List.dropWhile_cons_of_neg (by simp), List.drop_one, List.tail_cons]

/-- What follows a separator is not part of what is before the first one. -/
theorem partition_append_fst (s rest : Text) :
    (partition c (s ++ c :: rest)).1 = (partition c s).1 := by
  have hstop : (c :: rest).takeWhile (· ≠ c) = [] :=
    List.takeWhile_cons_of_neg (by simp)
  rw [partition_fst, partition_fst, List.takeWhile_append, hstop, List.append_nil]
  split
  · rename_i hall
    exact ((List.takeWhile_prefix _).eq_of_length hall).symm
  · rfl

/-- The parts around a separator that none follows. -/
theorem rpartition_append {s rest : Text} (hrest : c ∉ rest) :
    rpartition c (s ++ c :: rest) = (s, true, rest) := by
  have hpass : ∀ d ∈ rest.reverse, decide (d ≠ c) = true := by
    intro d hd
    exact decide_eq_true fun hsame => hrest (hsame ▸ List.mem_reverse.mp hd)
  have hmem : c ∈ s ++ c :: rest := List.mem_append_right s List.mem_cons_self
  have hreverse : (s ++ c :: rest).reverse = rest.reverse ++ c :: s.reverse := by simp
  have htake : (s ++ c :: rest).rtakeWhile (· ≠ c) = rest := by
    rw [List.rtakeWhile, hreverse, List.takeWhile_append_of_pos hpass,
      List.takeWhile_cons_of_neg (by simp), List.append_nil, List.reverse_reverse]
  have hdrop : (s ++ c :: rest).rdropWhile (· ≠ c) = s ++ [c] := by
    rw [List.rdropWhile, hreverse, List.dropWhile_append_of_pos hpass,
      List.dropWhile_cons_of_neg (by simp), List.reverse_cons, List.reverse_reverse]
  rw [rpartition, if_pos hmem, htake, hdrop, List.dropLast_concat]

/-- A text with a separator is the parts around its last one. -/
theorem exists_eq_around_last {s : Text} (h : c ∈ s) :
    ∃ before rest, c ∉ rest ∧ s = before ++ c :: rest := by
  obtain ⟨rest, before, hsame, hrest⟩ := List.eq_append_cons_of_mem (List.mem_reverse.mpr h)
  refine ⟨before.reverse, rest.reverse, ?_, ?_⟩
  · rw [List.mem_reverse]
    exact hrest
  · have hback := congrArg List.reverse hsame
    rw [List.reverse_reverse, List.reverse_append, List.reverse_cons, List.append_assoc] at hback
    exact hback

end Partition

section Split

variable {c : Char}

/-- Text without the separator is read into the part. -/
theorem splitFrom_append {s : Text} (hs : c ∉ s) (part rest : Text) :
    splitFrom [c] 0 part (s ++ rest) = splitFrom [c] 0 (s.reverse ++ part) rest := by
  induction s generalizing part with
  | nil => rfl
  | cons d s ih =>
      have hne : c ≠ d := fun hsame => hs (hsame ▸ List.mem_cons_self)
      have hs' : c ∉ s := fun hmem => hs (List.mem_cons_of_mem d hmem)
      have hprefix : [c].isPrefixOf (d :: (s ++ rest)) = false := by
        rw [List.isPrefixOf_cons_cons]
        simp [hne]
      have hcons : (d :: s) ++ rest = d :: (s ++ rest) := rfl
      have hreverse : (d :: s).reverse ++ part = s.reverse ++ (d :: part) := by simp
      rw [hcons, splitFrom, hprefix, if_neg Bool.false_ne_true, ih hs', hreverse]

/-- A text without the separator is its own one part. -/
theorem splitOn_of_not_mem {s : Text} (hs : c ∉ s) : splitOn [c] s = [s] := by
  have h := splitFrom_append hs [] []
  rw [List.append_nil, List.append_nil] at h
  rw [splitOn, h, splitFrom, List.reverse_reverse]

/-- The part before the first separator comes first. -/
theorem splitOn_append {s : Text} (hs : c ∉ s) (rest : Text) :
    splitOn [c] (s ++ c :: rest) = s :: splitOn [c] rest := by
  have hprefix : [c].isPrefixOf (c :: rest) = true := by simp
  rw [splitOn, splitFrom_append hs, splitFrom, hprefix, if_pos rfl, List.append_nil,
    List.reverse_reverse]
  rfl

/-- Splitting distributes over a separator, wherever it is. -/
theorem splitOn_append_sep (s rest : Text) :
    splitOn [c] (s ++ c :: rest) = splitOn [c] s ++ splitOn [c] rest := by
  induction hn : s.length using Nat.strong_induction_on generalizing s with
  | _ n ih =>
      by_cases hmem : c ∈ s
      · obtain ⟨before, after, hs, hbefore⟩ := List.eq_append_cons_of_mem hmem
        have hsum := congrArg List.length hs
        rw [List.length_append, List.length_cons] at hsum
        rw [hs, List.append_assoc, List.cons_append, splitOn_append hbefore,
          splitOn_append hbefore, ih after.length (by omega) after rfl, List.cons_append]
      · rw [splitOn_append hmem, splitOn_of_not_mem hmem, List.singleton_append]

/-- No part has the separator. -/
theorem not_mem_of_mem_splitOn {s part : Text} (h : part ∈ splitOn [c] s) : c ∉ part := by
  induction hn : s.length using Nat.strong_induction_on generalizing s with
  | _ n ih =>
      by_cases hmem : c ∈ s
      · obtain ⟨before, after, hs, hbefore⟩ := List.eq_append_cons_of_mem hmem
        have hsum := congrArg List.length hs
        rw [List.length_append, List.length_cons] at hsum
        rw [hs, splitOn_append hbefore] at h
        cases List.mem_cons.mp h with
        | inl hfirst =>
            rw [hfirst]
            exact hbefore
        | inr hlater => exact ih after.length (by omega) hlater rfl
      · rw [splitOn_of_not_mem hmem] at h
        rw [List.mem_singleton.mp h]
        exact hmem

/-- Stripping takes off whatever was appended of the character. -/
theorem rstripChar_append_replicate (s : Text) (n : Nat) :
    rstripChar c (s ++ List.replicate n c) = rstripChar c s := by
  unfold rstripChar
  induction n with
  | zero => simp
  | succ n ih =>
      rw [List.replicate_succ', ← List.append_assoc, List.rdropWhile_concat_pos _ _ _ (by simp), ih]

theorem rstripChar_eq_self {s : Text} (h : ∀ hs : s ≠ [], s.getLast hs ≠ c) :
    rstripChar c s = s := by
  unfold rstripChar
  rw [List.rdropWhile_eq_self_iff]
  intro hs
  simpa using h hs

/-- A prefix without the separator is a prefix of what is before it. -/
theorem isPrefixOf_append {p s rest : Text} (hp : c ∉ p)
    (h : p.isPrefixOf (s ++ c :: rest)) : p.isPrefixOf s := by
  rw [List.isPrefixOf_iff_prefix] at h ⊢
  have hconcat : s ++ [c] <+: s ++ c :: rest := ⟨rest, by simp⟩
  have hends : c ∈ s ++ [c] := List.mem_append_right s (List.mem_singleton_self c)
  rcases List.prefix_or_prefix_of_prefix h hconcat with hshort | hlong
  · rcases List.prefix_concat_iff.mp hshort with hsame | hs
    · exact absurd (hsame ▸ hends) hp
    · exact hs
  · exact absurd (hlong.subset hends) hp

theorem singleton_isPrefixOf (d : Char) (s : Text) : [c].isPrefixOf (d :: s) = (c == d) := by
  rw [List.isPrefixOf_cons_cons, List.isPrefixOf_nil_left, Bool.and_true]

theorem hasInfix_iff {sep s : Text} : hasInfix sep s ↔ sep <:+: s := by
  unfold hasInfix
  rw [List.any_eq_true, List.infix_iff_prefix_suffix]
  constructor
  · intro h
    obtain ⟨rest, hmem, hprefix⟩ := h
    exact ⟨rest, List.isPrefixOf_iff_prefix.mp hprefix, (List.mem_tails _ _).mp hmem⟩
  · intro h
    obtain ⟨rest, hprefix, hsuffix⟩ := h
    exact ⟨rest, (List.mem_tails _ _).mpr hsuffix, List.isPrefixOf_iff_prefix.mpr hprefix⟩

end Split

end Text

end M8flow.Lib
