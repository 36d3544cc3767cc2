import M8flow.Lib.Text

/-!
# Cookie headers

How a server reads the value of a `Cookie` header: the parts between semicolons,
each a name and a value around its first `=`, stripped of white space.  A part
without a name is skipped, and of several pairs with one name the first counts.

`cookiePairs_join` says that the pairs of joined parts are those of the parts.
-/

namespace M8flow.Lib

/-- The name and the value of a part, where it has a name. -/
def cookiePair (part : Text) : Option (Text × Text) :=
  let around := Text.partition '=' part
  if around.1.strip = [] then none else some (around.1.strip, Text.strip around.2.2)

/-- The pairs of a header's value, in order. -/
def cookiePairs (value : Text) : List (Text × Text) :=
  (Text.splitOn [';'] value).filterMap cookiePair

section Pair

/-- The name of a part is what is before its first `=`. -/
theorem cookiePair_fst {part : Text} {pair : Text × Text} (h : cookiePair part = some pair) :
    pair.1 = (Text.firstPart '=' part).strip := by
  unfold cookiePair at h
  dsimp only at h
  rw [Text.partition_fst] at h
  split at h
  · cases h
  · cases h
    rfl

theorem cookiePair_of_mem {name value : Text} (hname : '=' ∉ name) (hstrip : name.strip ≠ []) :
    cookiePair (name ++ '=' :: value) = some (name.strip, value.strip) := by
  unfold cookiePair
  dsimp only
  rw [Text.partition_append hname, if_neg hstrip]

/-- White space around a part is no part of its pair. -/
@[simp] theorem cookiePair_strip (part : Text) : cookiePair part.strip = cookiePair part := by
  by_cases hmem : '=' ∈ part
  · obtain ⟨name, value, hpart, hname⟩ := List.eq_append_cons_of_mem hmem
    have hstrip : part.strip =
        name.dropWhile Text.isSpace ++ '=' :: value.rdropWhile Text.isSpace := by
      rw [hpart]
      exact Text.stripWhere_append_cons (by decide) name value
    have hshort : '=' ∉ name.dropWhile Text.isSpace :=
      fun h => hname ((List.dropWhile_suffix _).subset h)
    have hfst : Text.strip (name.dropWhile Text.isSpace) = Text.strip name :=
      Text.stripWhere_dropWhile name
    have hsnd : Text.strip (value.rdropWhile Text.isSpace) = Text.strip value :=
      Text.stripWhere_rdropWhile value
    rw [hstrip, hpart]
    unfold cookiePair
    dsimp only
    rw [Text.partition_append hshort, Text.partition_append hname, hfst, hsnd]
  · have hstrip : '=' ∉ part.strip := fun h => hmem ((Text.stripWhere_isInfix part).subset h)
    unfold cookiePair Text.partition
    rw [if_neg hmem, if_neg hstrip]
    dsimp only
    rw [Text.strip_strip]

theorem cookiePair_cons_space (part : Text) : cookiePair (' ' :: part) = cookiePair part := by
  have hstrip : Text.strip (' ' :: part) = part.strip := by
    show Text.stripWhere Text.isSpace _ = Text.stripWhere Text.isSpace _
    rw [Text.stripWhere, List.dropWhile_cons_of_pos (by decide), Text.stripWhere]
  rw [← cookiePair_strip, hstrip, cookiePair_strip]

end Pair

section Pairs

@[simp] theorem cookiePairs_nil : cookiePairs [] = [] := by
  decide

/-- The pairs of two values with a semicolon between them. -/
theorem cookiePairs_append (value more : Text) :
    cookiePairs (value ++ ';' :: more) = cookiePairs value ++ cookiePairs more := by
  unfold cookiePairs
  rw [Text.splitOn_append_sep, List.filterMap_append]

theorem cookiePairs_of_not_mem {part : Text} (h : ';' ∉ part) :
    cookiePairs part = (cookiePair part).toList := by
  unfold cookiePairs
  rw [Text.splitOn_of_not_mem h]
  cases hpair : cookiePair part with
  | none => rw [List.filterMap_cons_none hpair, List.filterMap_nil, Option.toList_none]
  | some pair => rw [List.filterMap_cons_some hpair, List.filterMap_nil, Option.toList_some]

theorem cookiePairs_cons_space (value : Text) : cookiePairs (' ' :: value) = cookiePairs value := by
  by_cases hmem : ';' ∈ value
  · obtain ⟨part, more, hvalue, hpart⟩ := List.eq_append_cons_of_mem hmem
    have hspace : ';' ∉ ' ' :: part := List.not_mem_cons_of_ne_of_not_mem (by decide) hpart
    rw [hvalue, ← List.cons_append, cookiePairs_append, cookiePairs_append,
      cookiePairs_of_not_mem hspace, cookiePairs_of_not_mem hpart, cookiePair_cons_space]
  · have hspace : ';' ∉ ' ' :: value := List.not_mem_cons_of_ne_of_not_mem (by decide) hmem
    rw [cookiePairs_of_not_mem hspace, cookiePairs_of_not_mem hmem, cookiePair_cons_space]

/-- The pairs of `"; ".join(parts)` are those of the parts. -/
theorem cookiePairs_join (parts : List Text) :
    cookiePairs ("; ".toList.intercalate parts) = parts.flatMap cookiePairs := by
  induction parts with
  | nil => exact cookiePairs_nil
  | cons part parts ih =>
      cases parts with
      | nil =>
          rw [List.intercalate_singleton, List.flatMap_singleton]
      | cons next parts =>
          rw [List.intercalate_cons_cons, List.flatMap_cons, ← ih,
            ← cookiePairs_cons_space ("; ".toList.intercalate (next :: parts)),
            ← cookiePairs_append, List.append_assoc]
          rfl

/-- The pairs of a value, part by part. -/
theorem cookiePairs_eq_flatMap (value : Text) :
    cookiePairs value = (Text.splitOn [';'] value).flatMap cookiePairs := by
  have hparts : ∀ part ∈ Text.splitOn [';'] value, cookiePairs part = (cookiePair part).toList :=
    fun part hpart => cookiePairs_of_not_mem (Text.not_mem_of_mem_splitOn hpart)
  rw [List.flatMap_congr hparts]
  exact List.filterMap_eq_flatMap_toList _ _

end Pairs

end M8flow.Lib
