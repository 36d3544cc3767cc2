import Mathlib.Algebra.GroupWithZero.Nat
import Mathlib.Data.List.Basic

/-!
# Keyed tables

A database table is the list of its rows, and each row has a primary key.  The
operations are the ones SQL statements and ORM flushes use:

- `lookup` reads the row of one key;
- `updateWhere` rewrites every row that meets a condition;
- `updateAt` rewrites the row of one key.

A rewrite that keeps keys acts on a lookup pointwise, which is the one fact the
later frame lemmas need.
-/

namespace M8flow.Lib.Table

variable {α κ : Type*}

/-- Rewrite every row that meets the condition. -/
def updateWhere (cond : α → Bool) (f : α → α) (rows : List α) : List α :=
  rows.map fun row => if cond row then f row else row

/-- A rewrite that keeps keys keeps the list of keys. -/
theorem keys_updateWhere {key : α → κ} {cond : α → Bool} {f : α → α}
    (hkey : ∀ row, key (f row) = key row) (rows : List α) :
    (updateWhere cond f rows).map key = rows.map key := by
  unfold updateWhere
  rw [List.map_map]
  apply List.map_congr_left
  intro row _
  simp only [Function.comp]
  split
  · exact hkey row
  · rfl

section Lookup

variable [DecidableEq κ]

/-- The first row with the key. -/
def lookup (key : α → κ) (rows : List α) (k : κ) : Option α :=
  rows.find? fun row => key row = k

/-- Rewrite the row with one key. -/
def updateAt (key : α → κ) (k : κ) (f : α → α) (rows : List α) : List α :=
  updateWhere (fun row => key row = k) f rows

variable {key : α → κ}

@[simp] theorem lookup_nil (k : κ) : lookup key [] k = none := rfl

theorem lookup_cons (row : α) (rows : List α) (k : κ) :
    lookup key (row :: rows) k = if key row = k then some row else lookup key rows k := by
  unfold lookup
  by_cases h : key row = k
  · simp [h]
  · simp [h]

/-- A lookup in appended tables finds the first table's row if it has one. -/
theorem lookup_append (rows more : List α) (k : κ) :
    lookup key (rows ++ more) k = (lookup key rows k).or (lookup key more k) :=
  List.find?_append

/-- The row that a lookup returns has the key that was asked for. -/
theorem key_of_lookup {rows : List α} {k : κ} {row : α}
    (h : lookup key rows k = some row) : key row = k := by
  have hfound := List.find?_some h
  simpa using hfound

theorem mem_of_lookup {rows : List α} {k : κ} {row : α}
    (h : lookup key rows k = some row) : row ∈ rows :=
  List.mem_of_find?_eq_some h

/-- With distinct keys, a row of the table is the one its key looks up. -/
theorem lookup_of_mem {rows : List α} {row : α}
    (hkeys : (rows.map key).Nodup) (h : row ∈ rows) :
    lookup key rows (key row) = some row := by
  induction rows with
  | nil => cases h
  | cons first rows ih =>
      rw [lookup_cons]
      simp only [List.map_cons, List.nodup_cons] at hkeys
      rcases List.mem_cons.mp h with rfl | hrest
      · simp
      · have hne : key first ≠ key row := by
          intro heq
          exact hkeys.1 (heq ▸ List.mem_map_of_mem hrest)
        rw [if_neg hne]
        exact ih hkeys.2 hrest

/-- A map that keeps keys maps what a lookup returns. -/
theorem lookup_map {f : α → α} (hkey : ∀ row, key (f row) = key row) (rows : List α) (k : κ) :
    lookup key (rows.map f) k = (lookup key rows k).map f := by
  induction rows with
  | nil => rfl
  | cons row rows ih =>
      rw [List.map_cons, lookup_cons, lookup_cons, hkey, ih]
      split <;> rfl

/-- A rewrite that keeps keys rewrites what a lookup returns. -/
theorem lookup_updateWhere {cond : α → Bool} {f : α → α}
    (hkey : ∀ row, key (f row) = key row) (rows : List α) (k : κ) :
    lookup key (updateWhere cond f rows) k =
      (lookup key rows k).map fun row => if cond row then f row else row := by
  apply lookup_map
  intro row
  split
  · exact hkey row
  · rfl

/-- Rewriting one row leaves the lookups of every other key alone. -/
theorem lookup_updateAt_ne {k k' : κ} {f : α → α}
    (hkey : ∀ row, key (f row) = key row) (hne : k ≠ k') (rows : List α) :
    lookup key (updateAt key k f rows) k' = lookup key rows k' := by
  unfold updateAt
  rw [lookup_updateWhere hkey]
  cases hrow : lookup key rows k' with
  | none => rfl
  | some row =>
      have hk' : key row = k' := key_of_lookup hrow
      have : key row ≠ k := fun h => hne (h ▸ hk')
      simp [this]

/-- Rewriting one row rewrites the lookup of its key. -/
theorem lookup_updateAt_self {k : κ} {f : α → α}
    (hkey : ∀ row, key (f row) = key row) (rows : List α) :
    lookup key (updateAt key k f rows) k = (lookup key rows k).map f := by
  unfold updateAt
  rw [lookup_updateWhere hkey]
  cases hrow : lookup key rows k with
  | none => rfl
  | some row => simp [key_of_lookup hrow]

/-- Rewriting one row of a table with distinct keys exchanges its summand of a sum. -/
theorem sum_updateAt {k : κ} {f : α → α} (value : α → Nat) {rows : List α} {row : α}
    (hkeys : (rows.map key).Nodup) (h : lookup key rows k = some row) :
    ((updateAt key k f rows).map value).sum + value row =
      (rows.map value).sum + value (f row) := by
  induction rows with
  | nil => cases h
  | cons first rows ih =>
      rw [lookup_cons] at h
      simp only [List.map_cons, List.nodup_cons] at hkeys
      show ((if decide (key first = k) then f first else first) ::
        updateAt key k f rows |>.map value).sum + _ = _
      simp only [List.map_cons, List.sum_cons]
      split at h
      · rename_i hfirst
        cases h
        -- no other row of the table has the key
        have hrest : updateAt key k f rows = rows := by
          have hsame : updateAt key k f rows = rows.map id := by
            apply List.map_congr_left
            intro other hother
            have hne : key other ≠ k := by
              intro heq
              apply hkeys.1
              rw [hfirst, ← heq]
              exact List.mem_map_of_mem hother
            simp [hne]
          rw [hsame, List.map_id]
        rw [hrest]
        simp [hfirst]
        omega
      · rename_i hfirst
        have hrest := ih hkeys.2 h
        simp only [hfirst, decide_false, Bool.false_eq_true, if_false]
        omega

/-! ## Tables whose rows are those of another table, under other keys -/

variable {β μ : Type*} [DecidableEq μ] {key' : β → μ} {g : α → β} {p : κ → μ} {rows : List α} {k : κ}

/-- A key that no other key of the table is mapped to looks up the image of its row. -/
theorem lookup_image (hg : ∀ row, key' (g row) = p (key row))
    (hinj : ∀ row ∈ rows, p (key row) = p k → key row = k) :
    lookup key' (rows.map g) (p k) = (lookup key rows k).map g := by
  induction rows with
  | nil => rfl
  | cons row rows ih =>
      rw [List.forall_mem_cons] at hinj
      rw [List.map_cons, lookup_cons, lookup_cons, hg, ih hinj.2]
      by_cases hsame : key row = k
      · rw [if_pos hsame, if_pos (congrArg p hsame)]
        rfl
      · rw [if_neg hsame, if_neg fun heq => hsame (hinj.1 heq)]

theorem updateAt_image (hg : ∀ row, key' (g row) = p (key row))
    (hinj : ∀ row ∈ rows, p (key row) = p k → key row = k) {f : α → α} {f' : β → β}
    (hf : ∀ row ∈ rows, key row = k → f' (g row) = g (f row)) :
    updateAt key' (p k) f' (rows.map g) = (updateAt key k f rows).map g := by
  unfold updateAt updateWhere
  rw [List.map_map, List.map_map]
  apply List.map_congr_left
  intro row hrow
  show (if decide (key' (g row) = p k) then f' (g row) else g row) =
    g (if decide (key row = k) then f row else row)
  by_cases hsame : key row = k
  · rw [hg, hsame, decide_eq_true rfl, decide_eq_true rfl, if_pos rfl, if_pos rfl, hf row hrow hsame]
  · rw [hg, decide_eq_false fun heq => hsame (hinj row hrow heq), decide_eq_false hsame,
      if_neg Bool.false_ne_true, if_neg Bool.false_ne_true]

theorem filter_ne_image (hg : ∀ row, key' (g row) = p (key row))
    (hinj : ∀ row ∈ rows, p (key row) = p k → key row = k) :
    (rows.map g).filter (fun row => key' row ≠ p k) = (rows.filter fun row => key row ≠ k).map g := by
  rw [List.filter_map]
  congr 1
  apply List.filter_congr
  intro row hrow
  show decide (key' (g row) ≠ p k) = decide (key row ≠ k)
  rw [hg, decide_eq_decide]
  exact not_congr ⟨hinj row hrow, congrArg p⟩

end Lookup

end M8flow.Lib.Table
