import M8flow.Lib.Json

/-!
# JSON objects as dictionaries

What Python code does to the dictionaries that `json.loads` builds: it sets, pops and
reads entries, and goes over values in loops.  `field_set` and its companions say what is
read afterwards.
-/

namespace M8flow.Lib.Json

/-- The entries of a dictionary. -/
abbrev Fields := List (Text × Json)

/-- `bool(value)`. -/
def truthy : Json → Bool
  | .null => false
  | .bool b => b
  | .num n => n ≠ 0
  | .str s => s ≠ []
  | .arr items => !items.isEmpty
  | .obj fields => !fields.isEmpty

/-- `fields.get(key)`. -/
def getD (fields : Fields) (key : Text) : Json := (field fields key).getD .null

/-- `fields[key] = value`: a key keeps its place. -/
def set (fields : Fields) (key : Text) (value : Json) : Fields :=
  if fields.any fun entry => entry.1 = key then
    fields.map fun entry => if entry.1 = key then (key, value) else entry
  else fields ++ [(key, value)]

/-- `fields.pop(key, None)`. -/
def pop (fields : Fields) (key : Text) : Fields := fields.filter fun entry => entry.1 ≠ key

/-- `fields.setdefault(key, value)`. -/
def setDefault (fields : Fields) (key : Text) (value : Json) : Fields :=
  match field fields key with
  | some _ => fields
  | none => set fields key value

/-- The items of a list, and nothing elsewhere. -/
def items : Json → List Json
  | .arr items => items
  | _ => []

/-- The entries of a dictionary, and nothing elsewhere. -/
def fields : Json → Fields
  | .obj fields => fields
  | _ => []

/-- The values of a `for` loop over a value, where it can be looped over. -/
def iterate : Json → Option (List Json)
  | .arr items => some items
  | .obj fields => some (fields.map fun entry => .str entry.1)
  | .str s => some (s.map fun c => .str [c])
  | _ => none

/-- Induction on a value: a list or a dictionary comes after what is in it. -/
theorem induct {P : Json → Prop} (null : P .null) (bool : ∀ b, P (.bool b)) (num : ∀ n, P (.num n))
    (str : ∀ s, P (.str s)) (arr : ∀ items, (∀ item ∈ items, P item) → P (.arr items))
    (obj : ∀ fields : Fields, (∀ entry ∈ fields, P entry.2) → P (.obj fields)) (value : Json) :
    P value :=
  @Json.rec P (fun items => ∀ item ∈ items, P item) (fun fields => ∀ entry ∈ fields, P entry.2)
    (fun entry => P entry.2) null bool num str arr obj
    (fun _ hmem => absurd hmem List.not_mem_nil)
    (fun _ _ hfirst hrest => List.forall_mem_cons.mpr ⟨hfirst, hrest⟩)
    (fun _ hmem => absurd hmem List.not_mem_nil)
    (fun _ _ hfirst hrest => List.forall_mem_cons.mpr ⟨hfirst, hrest⟩)
    (fun _ _ hvalue => hvalue) value

section Fields

variable {fields : Fields} {key other : Text}

theorem getD_cons (entry : Text × Json) (fields : Fields) (key : Text) :
    getD (entry :: fields) key = if entry.1 = key then entry.2 else getD fields key := by
  unfold getD field
  by_cases hkey : entry.1 = key
  · rw [List.find?_cons_of_pos (by simpa using hkey), if_pos hkey]
    rfl
  · rw [List.find?_cons_of_neg (by simpa using hkey), if_neg hkey]

theorem field_cons (entry : Text × Json) (fields : Fields) (key : Text) :
    field (entry :: fields) key = if entry.1 = key then some entry.2 else field fields key := by
  unfold field
  by_cases hkey : entry.1 = key
  · rw [List.find?_cons_of_pos (by simpa using hkey), if_pos hkey]
    rfl
  · rw [List.find?_cons_of_neg (by simpa using hkey), if_neg hkey]

theorem getD_cons_self (key : Text) (value : Json) (fields : Fields) :
    getD ((key, value) :: fields) key = value := by
  rw [getD_cons, if_pos rfl]

theorem getD_cons_ne (h : key ≠ other) (value : Json) (fields : Fields) :
    getD ((key, value) :: fields) other = getD fields other := by
  rw [getD_cons, if_neg h]

theorem field_append (fields more : Fields) (key : Text) :
    field (fields ++ more) key = (field fields key).or (field more key) := by
  unfold field
  rw [List.find?_append, Option.map_or]

theorem field_set (fields : Fields) (key other : Text) (value : Json) :
    field (set fields key value) other = if key = other then some value else field fields other := by
  unfold set
  split
  · rename_i hany
    by_cases hsame : key = other
    · subst hsame
      rw [if_pos rfl]
      induction fields with
      | nil => cases hany
      | cons entry fields ih =>
          rw [List.map_cons, field_cons]
          by_cases hkey : entry.1 = key
          · rw [if_pos hkey, if_pos rfl]
          · rw [if_neg hkey, if_neg hkey]
            rw [List.any_cons, decide_eq_false hkey, Bool.false_or] at hany
            exact ih hany
    · rw [if_neg hsame]
      clear hany
      induction fields with
      | nil => rfl
      | cons entry fields ih =>
          rw [List.map_cons, field_cons, field_cons, ih]
          by_cases hkey : entry.1 = key
          · have hne : entry.1 ≠ other := fun h => hsame (hkey.symm.trans h)
            rw [if_pos hkey, if_neg hsame, if_neg hne]
          · rw [if_neg hkey]
  · rename_i hany
    rw [field_append, field_cons]
    by_cases hsame : key = other
    · subst hsame
      have hnone : field fields key = none := by
        rw [field_eq_none]
        intro entry hentry hkey
        exact hany (List.any_eq_true.mpr ⟨entry, hentry, decide_eq_true hkey⟩)
      rw [if_pos rfl, if_pos rfl, hnone, Option.none_or]
    · rw [if_neg hsame, if_neg hsame]
      exact Option.or_none

theorem field_pop (fields : Fields) (key other : Text) :
    field (pop fields key) other = if other = key then none else field fields other := by
  unfold pop
  have h := field_filter (fun name => decide (name ≠ key)) fields other
  rw [h]
  by_cases hsame : other = key
  · simp [hsame]
  · simp [hsame]

theorem getD_pop (h : key ≠ other) (fields : Fields) : getD (pop fields key) other = getD fields other := by
  unfold getD
  rw [field_pop, if_neg (Ne.symm h)]

theorem field_setDefault (h : key ≠ other) (value : Json) :
    field (setDefault fields key value) other = field fields other := by
  unfold setDefault
  split
  · rfl
  · rw [field_set, if_neg h]

end Fields

end M8flow.Lib.Json
