import M8flow.Lib.Replace
import Mathlib.Data.List.Dedup
import Mathlib.Data.List.Sort
import Mathlib.Data.Set.Basic

/-!
# Secrets in error texts

`masked_service_task_error` replaces every secret value in the text of a service-task error
by `***`, one value after the other and the longest first.  The registry that resolves
secrets masks what the connector raised, and the registry that injects profiles masks that
again with its own values.

- `Harmless`: a value that no `***` can be part of.
- `not_infix_masked`: a harmless value is not in the masked text, whatever the other values
  are, and is not brought back by masking again.
- `leak`: every other value comes back in the text of some error.
- `masking_iff` says the two together.
-/

namespace M8flow.Secrets.Masking

open M8flow.Lib

/-- What a connector call raises, as far as masking tells it apart. -/
inductive Failure where
  /-- `ServiceTaskExecutionError`, with its text. -/
  | serviceTask (message : Text)
  | other
  deriving Repr, DecidableEq

/-- The order in which a set of texts is iterated. -/
structure SetOrder where
  iterate : List Text → List Text
  perm : ∀ values, (iterate values).Perm values

/-- `***`. -/
def stars : Text := "***".toList

/-- `\x7bv for v in secret_values if isinstance(v, str) and v\x7d`; a value that is no text
is `none`. -/
def secretTexts (values : List (Option Text)) : List Text :=
  ((values.filterMap id).filter fun value => value ≠ []).dedup

/-- `sorted(..., key=len, reverse=True)`, which leaves equal lengths in their order. -/
def longestFirst (values : List Text) : List Text :=
  values.insertionSort fun value other => other.length ≤ value.length

/-- The loop of replacements. -/
def maskText (values : List Text) (message : Text) : Text :=
  values.foldl (fun masked value => Text.replace value stars masked) message

/-- `masked_service_task_error`: the new text, if masking changed the text. -/
def maskedServiceTaskError (order : SetOrder) (failure : Failure) (values : List (Option Text)) :
    Option Text :=
  match failure with
  | .other => none
  | .serviceTask message =>
      let masked := maskText (longestFirst (order.iterate (secretTexts values))) message
      if masked = message then none else some masked

/-- The `except` clause of a registry: the masked error is raised, or what was. -/
def raiseMasked (order : SetOrder) (values : List (Option Text)) (failure : Failure) : Failure :=
  match maskedServiceTaskError order failure values with
  | none => failure
  | some masked => .serviceTask masked

/-- The text of an error. -/
def Failure.text : Failure → Text
  | .serviceTask message => message
  | .other => []

/-! ## Values that are masked -/

/-- A value that no `***` can be part of. -/
def Harmless (value : Text) : Prop :=
  value.head? ≠ some '*' ∧ value.getLast? ≠ some '*' ∧ ¬ stars <:+: value

/-- The condition can be evaluated. -/
instance (value : Text) : Decidable (Harmless value) :=
  inferInstanceAs (Decidable (_ ∧ _ ∧ ¬ _))

theorem untouched_of_harmless {value : Text} (hne : value ≠ []) (h : Harmless value) :
    Text.Untouched stars value where
  ne_nil := hne
  head := by
    intro c hc hmem
    have hstar : c = '*' := by simpa [stars] using hmem
    exact h.1 (hstar ▸ hc)
  last := by
    intro c hc hmem
    have hstar : c = '*' := by simpa [stars] using hmem
    exact h.2.1 (hstar ▸ hc)
  whole := h.2.2

/-- A harmless value that is not in a text is not brought in by masking. -/
theorem not_infix_maskText {values : List Text} (hvalues : ∀ other ∈ values, other ≠ [])
    {value : Text} (huntouched : Text.Untouched stars value) {message : Text}
    (h : ¬ value <:+: message) : ¬ value <:+: maskText values message := by
  unfold maskText
  induction values generalizing message with
  | nil => exact h
  | cons other values ih =>
      rw [List.foldl_cons]
      apply ih fun later hlater => hvalues later (List.mem_cons_of_mem _ hlater)
      intro hin
      exact h (Text.infix_of_infix_replace (hvalues other List.mem_cons_self) huntouched hin)

/-- A harmless value that is masked is not in the masked text. -/
theorem not_infix_masked {values : List Text} (hvalues : ∀ other ∈ values, other ≠ [])
    {value : Text} (huntouched : Text.Untouched stars value) (hmem : value ∈ values)
    (message : Text) : ¬ value <:+: maskText values message := by
  obtain ⟨before, after, hsplit⟩ := List.append_of_mem hmem
  have hafter : ∀ other ∈ after, other ≠ [] := by
    intro other hother
    apply hvalues
    rw [hsplit]
    exact List.mem_append_right _ (List.mem_cons_of_mem _ hother)
  have hmask : maskText values message =
      maskText after (Text.replace value stars (maskText before message)) := by
    unfold maskText
    rw [hsplit, List.foldl_append, List.foldl_cons]
  rw [hmask]
  exact not_infix_maskText hafter huntouched (Text.not_infix_replace_self huntouched _)

theorem mem_longestFirst {order : SetOrder} {values : List (Option Text)} {value : Text} :
    value ∈ longestFirst (order.iterate (secretTexts values)) ↔
      some value ∈ values ∧ value ≠ [] := by
  unfold longestFirst
  rw [(List.perm_insertionSort _ _).mem_iff, (order.perm _).mem_iff]
  unfold secretTexts
  rw [List.mem_dedup, List.mem_filter, decide_eq_true_eq, List.mem_filterMap]
  simp

/-- The text that is raised is the masked one, also where masking changed nothing. -/
theorem text_raiseMasked (order : SetOrder) (values : List (Option Text)) (message : Text) :
    (raiseMasked order values (.serviceTask message)).text =
      maskText (longestFirst (order.iterate (secretTexts values))) message := by
  unfold raiseMasked maskedServiceTaskError
  dsimp only
  by_cases hsame : maskText (longestFirst (order.iterate (secretTexts values))) message = message
  · rw [if_pos hsame, hsame]
    rfl
  · rw [if_neg hsame]
    rfl

theorem raiseMasked_serviceTask (order : SetOrder) (values : List (Option Text)) (message : Text) :
    raiseMasked order values (.serviceTask message) =
      .serviceTask (raiseMasked order values (.serviceTask message)).text := by
  unfold raiseMasked
  cases maskedServiceTaskError order (.serviceTask message) values with
  | none => rfl
  | some masked => rfl

/-! ## Values that come back -/

/-- A value that starts with a star comes back with the stars in front of its rest. -/
theorem leak_head {value : Text} (h : value.head? = some '*') :
    ∃ message, value <:+: Text.replace value stars message := by
  cases hvalue : value with
  | nil =>
      rw [hvalue] at h
      cases h
  | cons c rest =>
      rw [hvalue] at h
      have hc : c = '*' := Option.some.inj h
      refine ⟨[] ++ ((c :: rest) ++ rest), ?_⟩
      have hnone : ∀ i < ([] : Text).length,
          ¬ (c :: rest) <+: ([] ++ ((c :: rest) ++ rest)).drop i :=
        fun i hi => absurd hi (Nat.not_lt_zero i)
      rw [Text.replace_once (List.cons_ne_nil _ _) hnone]
      · rw [hc]
        exact ⟨['*', '*'], [], by simp [stars]⟩
      · intro hin
        have hlength := hin.length_le
        rw [List.length_cons] at hlength
        omega

/-- Where a text starts, its characters are. -/
theorem getElem?_of_prefix_drop {value message : Text} {i j : Nat}
    (h : value <+: message.drop i) (hj : j < value.length) : value[j]? = message[i + j]? := by
  obtain ⟨rest, hrest⟩ := h
  rw [← List.getElem?_drop, ← hrest, List.getElem?_append_left hj]

/-- A value that ends with a star comes back behind a text that is its start. -/
theorem leak_last {value : Text} (hhead : value.head? ≠ some '*')
    (h : value.getLast? = some '*') : ∃ message, value <:+: Text.replace value stars message := by
  obtain ⟨start, hvalue⟩ : ∃ start, value = start ++ ['*'] :=
    ⟨value.dropLast, (List.dropLast_append_getLast? '*' h).symm⟩
  have hne : value ≠ [] := by
    rw [hvalue]
    exact List.append_ne_nil_of_right_ne_nil _ (List.cons_ne_nil _ _)
  refine ⟨start ++ (value ++ []), ?_⟩
  rw [Text.replace_once hne]
  · rw [hvalue]
    exact ⟨[], ['*', '*'], by simp [stars]⟩
  · -- an earlier occurrence would start with the star that ends it
    intro i hi hstarts
    have hlength : value.length = start.length + 1 := by
      rw [hvalue, List.length_append, List.length_singleton]
    have hfirst := getElem?_of_prefix_drop (j := 0) hstarts (by omega)
    have hend := getElem?_of_prefix_drop (j := start.length) hstarts (by omega)
    rw [Nat.add_zero, List.getElem?_append_left hi] at hfirst
    rw [Nat.add_comm, List.getElem?_append_right (Nat.le_add_right _ _), Nat.add_sub_cancel_left,
      List.append_nil] at hend
    have hstar : value[start.length]? = some '*' := by
      rw [hvalue, List.getElem?_append_right (Nat.le_refl _), Nat.sub_self]
      rfl
    have hinside : value[i]? = start[i]? := by
      rw [hvalue, List.getElem?_append_left hi]
    apply hhead
    rw [List.head?_eq_getElem?, hfirst, ← hinside, ← hend, hstar]
  · intro hin
    exact hne (List.infix_nil.mp hin)

/-- The first place of the stars in a value. -/
theorem exists_first_stars {value : Text} (h : stars <:+: value) :
    ∃ start rest, value = start ++ (stars ++ rest) ∧
      ∀ i < start.length, ¬ stars <+: value.drop i := by
  classical
  have hsome : ∃ i, stars <+: value.drop i := by
    obtain ⟨before, after, hsame⟩ := h
    refine ⟨before.length, after, ?_⟩
    rw [← hsame, List.append_assoc, List.drop_left]
  obtain ⟨rest, hrest⟩ := Nat.find_spec hsome
  refine ⟨value.take (Nat.find hsome), rest, ?_, ?_⟩
  · rw [hrest, List.take_append_drop]
  · intro i hi
    apply Nat.find_min hsome
    rw [List.length_take] at hi
    omega

/-- A value with three stars inside comes back between its two ends. -/
theorem leak_inside {value : Text} (h : stars <:+: value) :
    ∃ message, value <:+: Text.replace value stars message := by
  obtain ⟨start, rest, hvalue, hfirst⟩ := exists_first_stars h
  have hstars : stars.length = 3 := rfl
  have hlength : value.length = start.length + (3 + rest.length) := by
    rw [hvalue, List.length_append, List.length_append, hstars]
  have hne : value ≠ [] := by
    intro hnil
    rw [hnil, List.length_nil] at hlength
    omega
  refine ⟨start ++ (value ++ rest), ?_⟩
  rw [Text.replace_once hne]
  · exact ⟨[], [], by rw [List.nil_append, List.append_nil]; exact hvalue⟩
  · -- an earlier occurrence would have its stars before the first ones
    intro i hi hstarts
    apply hfirst i hi
    have hinner : stars <+: value.drop start.length := by
      conv_rhs => rw [hvalue]
      rw [List.drop_left]
      exact List.prefix_append _ _
    have hmoved : value.drop start.length <+: value.drop i ++ rest := by
      have hdrop := hstarts.drop start.length
      rw [List.drop_drop, Nat.add_comm, ← List.drop_drop, List.drop_left,
        List.drop_append_of_le_length (by omega)] at hdrop
      exact hdrop
    apply List.prefix_of_prefix_length_le (hinner.trans hmoved) (List.prefix_append _ _)
    rw [hstars, List.length_drop]
    omega
  · intro hin
    have hle := hin.length_le
    omega

/-- A value that is not harmless comes back in some text. -/
theorem leak {value : Text} (h : ¬ Harmless value) :
    ∃ message, value <:+: Text.replace value stars message := by
  by_cases hhead : value.head? = some '*'
  · exact leak_head hhead
  · by_cases hlast : value.getLast? = some '*'
    · exact leak_last hhead hlast
    · apply leak_inside
      by_contra hinside
      exact h ⟨hhead, hlast, hinside⟩

/-! ## Both layers -/

/-- A set that is iterated as it was built. -/
def SetOrder.inserted : SetOrder where
  iterate := id
  perm := fun _ => List.Perm.refl _

/-- With one secret there is one replacement. -/
theorem text_raiseMasked_single {value : Text} (hne : value ≠ []) (message : Text) :
    (raiseMasked .inserted [some value] (.serviceTask message)).text =
      Text.replace value stars message := by
  rw [text_raiseMasked]
  have htexts : secretTexts [some value] = [value] := by
    unfold secretTexts
    simp [hne]
  rw [htexts]
  rfl

/-- The secrets in `found` are in no text that either registry raises, whatever order the
sets have and whatever the outer registry masks besides. -/
def Masked (found : List (Option Text)) : Prop :=
  ∀ (inner outer : SetOrder) (injected : List (Option Text)) (message : Text),
    ∀ value, some value ∈ found →
      ¬ value <:+: (raiseMasked inner found (.serviceTask message)).text ∧
      ¬ value <:+:
        (raiseMasked outer injected (raiseMasked inner found (.serviceTask message))).text

/-- For every collection of values that secrets can have: whatever secrets among them a call
resolves, masking leaves none of them in any text, exactly when no value of the collection
starts or ends with a star or has three stars in a row. -/
theorem masking_iff (A : Set Text) (hA : ∀ value ∈ A, value ≠ []) :
    (∀ found : List (Option Text), (∀ value, some value ∈ found → value ∈ A) → Masked found) ↔
      ∀ value ∈ A, Harmless value := by
  constructor
  · intro h value hmem
    by_contra hharm
    obtain ⟨message, hleak⟩ := leak hharm
    have hfound : ∀ other, some other ∈ [some value] → other ∈ A := by
      intro other hother
      rw [Option.some.inj (List.mem_singleton.mp hother)]
      exact hmem
    have hfree := (h [some value] hfound .inserted .inserted [] message value
      (List.mem_singleton_self _)).1
    rw [text_raiseMasked_single (hA value hmem)] at hfree
    exact hfree hleak
  · intro h found hfound inner outer injected message value hvalue
    have hne := hA value (hfound value hvalue)
    have huntouched := untouched_of_harmless hne (h value (hfound value hvalue))
    have hnonempty : ∀ (order : SetOrder) (values : List (Option Text)),
        ∀ other ∈ longestFirst (order.iterate (secretTexts values)), other ≠ [] :=
      fun order values other hother => (mem_longestFirst.mp hother).2
    have hinner : ¬ value <:+: (raiseMasked inner found (.serviceTask message)).text := by
      rw [text_raiseMasked]
      exact not_infix_masked (hnonempty inner found) huntouched
        (mem_longestFirst.mpr ⟨hvalue, hne⟩) message
    refine ⟨hinner, ?_⟩
    rw [raiseMasked_serviceTask inner, text_raiseMasked]
    exact not_infix_maskText (hnonempty outer injected) huntouched hinner

theorem masking_password :
    (∀ found : List (Option Text),
      (∀ value, some value ∈ found → value ∈ ({"hunter2".toList} : Set Text)) → Masked found) ↔
      ∀ value ∈ ({"hunter2".toList} : Set Text), Harmless value :=
  masking_iff {"hunter2".toList} fun value hmem => by
    rw [Set.mem_singleton_iff.mp hmem]
    exact List.cons_ne_nil _ _

/-- A secret that ends with a star comes back in the text of an error. -/
theorem starred_secret_leaks : ¬ ∀ found : List (Option Text),
    (∀ value, some value ∈ found → value ≠ []) → found ≠ [] → Masked found := by
  intro h
  have hne : ∀ value, some value ∈ [some "hunter2*".toList] → value ≠ [] := by
    intro value hvalue
    rw [Option.some.inj (List.mem_singleton.mp hvalue)]
    exact List.cons_ne_nil _ _
  have hfree := (h [some "hunter2*".toList] hne (List.cons_ne_nil _ _) .inserted .inserted []
    "bad login hunter2hunter2*".toList "hunter2*".toList (List.mem_singleton_self _)).1
  have htext : (raiseMasked .inserted [some "hunter2*".toList]
      (.serviceTask "bad login hunter2hunter2*".toList)).text =
        "bad login hunter2***".toList := by
    rw [text_raiseMasked_single (hne _ (List.mem_singleton_self _))]
    decide
  rw [htext] at hfree
  exact hfree ⟨"bad login ".toList, "**".toList, by decide⟩

end M8flow.Secrets.Masking
