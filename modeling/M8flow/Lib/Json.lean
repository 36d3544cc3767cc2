import M8flow.Lib.Text

/-!
# JSON values

The values that `json.loads` builds, with objects as association lists in
insertion order.  Only the readers that Python code applies to such values are
here: `get` of a dictionary and the `isinstance` projections.
-/

namespace M8flow.Lib

/-- A JSON value. -/
inductive Json where
  | null
  | bool (b : Bool)
  | num (n : Int)
  | str (s : Text)
  | arr (items : List Json)
  | obj (fields : List (Text × Json))
  deriving Repr

namespace Json

/-- The value of a key in an association list. -/
def field (fields : List (Text × Json)) (name : Text) : Option Json :=
  (fields.find? fun entry => entry.1 = name).map Prod.snd

/-- `value.get(name)` where `value` is a dictionary, and nothing elsewhere. -/
def get? (value : Json) (name : Text) : Option Json :=
  match value with
  | .obj fields => field fields name
  | _ => none

/-- The text of a string value. -/
def asText : Json → Option Text
  | .str s => some s
  | _ => none

@[simp] theorem asText_str (s : Text) : asText (.str s) = some s := rfl

/-! ## Values by key -/

section Fields

variable {fields : List (Text × Json)} {key : Text}

theorem field_eq_none : field fields key = none ↔ ∀ entry ∈ fields, entry.1 ≠ key := by
  unfold field
  rw [Option.map_eq_none_iff, List.find?_eq_none]
  simp only [decide_eq_true_eq]

theorem mem_of_field {value : Json} (h : field fields key = some value) :
    (key, value) ∈ fields := by
  obtain ⟨entry, hentry, hvalue⟩ := Option.map_eq_some_iff.mp h
  have hkey := List.find?_some hentry
  rw [decide_eq_true_eq] at hkey
  rw [← hkey, ← hvalue]
  exact List.mem_of_find?_eq_some hentry

/-- The value of an entry, in a dictionary. -/
theorem field_of_mem {entry : Text × Json} (hkeys : (fields.map Prod.fst).Nodup)
    (h : entry ∈ fields) : field fields entry.1 = some entry.2 := by
  unfold field
  induction fields with
  | nil => cases h
  | cons first fields ih =>
      rw [List.map_cons, List.nodup_cons] at hkeys
      rcases List.mem_cons.mp h with hfirst | hrest
      · rw [hfirst, List.find?_cons_of_pos (by simp)]
        rfl
      · have hne : first.1 ≠ entry.1 := by
          intro hkey
          exact hkeys.1 (hkey ▸ List.mem_map_of_mem (f := Prod.fst) hrest)
        rw [List.find?_cons_of_neg (by simpa using hne)]
        exact ih hkeys.2 hrest

theorem field_filter (p : Text → Bool) (fields : List (Text × Json)) (key : Text) :
    field (fields.filter fun entry => p entry.1) key =
      if p key then field fields key else none := by
  unfold field
  rw [List.find?_filter]
  cases hp : p key with
  | true =>
      rw [if_pos rfl]
      congr 2
      funext entry
      by_cases hkey : entry.1 = key
      · simp [hkey, hp]
      · simp [hkey]
  | false =>
      rw [if_neg Bool.false_ne_true, Option.map_eq_none_iff, List.find?_eq_none]
      intro entry _
      by_cases hkey : entry.1 = key
      · simp [hkey, hp]
      · simp [hkey]

theorem field_map (f : Json → Json) (fields : List (Text × Json)) (key : Text) :
    field (fields.map fun entry => (entry.1, f entry.2)) key =
      (field fields key).map f := by
  unfold field
  rw [List.find?_map, Option.map_map, Option.map_map]
  rfl

end Fields

end Json

end M8flow.Lib
