import Mathlib.Data.List.Basic

/-!
# Tables with columns that come and go

A database gives each table name a table or none.  A table has its columns and its
rows, and a row has a value or null in every column; in a column that the table does
not have it has null, so that a column that is added is null in every row.

Each change of a table has a lemma that says what its rows are afterwards, and each
change of a database one that says which table is read.
-/

namespace M8flow.Lib.Sql

variable {N C V : Type}

/-- A row: null is `none`. -/
abbrev Row (C V : Type) : Type := C → Option V

section Same

variable [DecidableEq V]

/-- `a = b` is true, which it is not of two nulls. -/
def same (a b : Option V) : Bool := a.isSome && a == b

theorem same_eq_true {a b : Option V} : same a b = true ↔ a ≠ none ∧ a = b := by
  unfold same
  rw [Bool.and_eq_true, beq_iff_eq, Option.isSome_iff_ne_none]

end Same

structure Table (C V : Type) where
  columns : List C
  rows : List (Row C V)
  absent : ∀ row ∈ rows, ∀ c, c ∉ columns → row c = none

section Tables

variable [DecidableEq C]

/-- A row without what is outside the columns. -/
def restrict (columns : List C) (row : Row C V) : Row C V :=
  fun c => if c ∈ columns then row c else none

theorem restrict_of_mem {columns : List C} {c : C} (h : c ∈ columns) (row : Row C V) :
    restrict columns row c = row c := if_pos h

namespace Table

def of (columns : List C) (rows : List (Row C V)) : Table C V where
  columns := columns
  rows := rows.map (restrict columns)
  absent := by
    intro row hrow c hc
    obtain ⟨source, -, hsource⟩ := List.mem_map.mp hrow
    exact hsource ▸ if_neg hc

variable (t : Table C V)

def addColumn (c : C) : Table C V :=
  if c ∈ t.columns then t else of (t.columns ++ [c]) t.rows

def dropColumns (columns : List C) : Table C V :=
  of (t.columns.filter (· ∉ columns)) t.rows

def renameColumn (old new : C) : Table C V :=
  if old ∉ t.columns ∨ new ∈ t.columns then t
  else
    of (t.columns.map fun c => if c = old then new else c)
      (t.rows.map fun row c => if c = new then row old else row c)

def insert (rows : List (Row C V)) : Table C V := of t.columns (t.rows ++ rows)

def update (f : Row C V → Row C V) : Table C V := of t.columns (t.rows.map f)

/-! ## What the rows are afterwards -/

/-- Columns that the table has, and more, hide nothing. -/
theorem map_restrict {columns : List C} (h : ∀ c ∈ t.columns, c ∈ columns) :
    t.rows.map (restrict columns) = t.rows := by
  conv_rhs => rw [← List.map_id t.rows]
  apply List.map_congr_left
  intro row hrow
  funext c
  unfold restrict
  split
  · rfl
  · rename_i hc
    exact (t.absent row hrow c fun hmem => hc (h c hmem)).symm

@[simp] theorem addColumn_rows (c : C) : (t.addColumn c).rows = t.rows := by
  unfold addColumn
  split
  · rfl
  · exact t.map_restrict fun other hother => List.mem_append_left _ hother

theorem mem_addColumn_columns {c other : C} :
    other ∈ (t.addColumn c).columns ↔ other ∈ t.columns ∨ other = c := by
  unfold addColumn
  split
  · rename_i hc
    constructor
    · exact .inl
    · intro h
      cases h with
      | inl h => exact h
      | inr h => exact h ▸ hc
  · exact List.mem_append.trans (or_congr_right List.mem_singleton)

theorem mem_dropColumns_columns {columns : List C} {c : C} :
    c ∈ (t.dropColumns columns).columns ↔ c ∈ t.columns ∧ c ∉ columns := by
  unfold dropColumns of
  rw [List.mem_filter, decide_eq_true_eq]

/-- Dropped columns are null and the others as they were. -/
theorem dropColumns_rows (columns : List C) :
    (t.dropColumns columns).rows =
      t.rows.map fun row c => if c ∈ columns then none else row c := by
  apply List.map_congr_left
  intro row hrow
  funext c
  unfold restrict
  by_cases hc : c ∈ columns
  · rw [if_pos hc]
    exact if_neg fun hmem => (t.mem_dropColumns_columns.mp hmem).2 hc
  · rw [if_neg hc]
    by_cases hmem : c ∈ t.columns
    · exact if_pos (t.mem_dropColumns_columns.mpr ⟨hmem, hc⟩)
    · rw [t.absent row hrow c hmem]
      exact if_neg fun hdropped => hmem (t.mem_dropColumns_columns.mp hdropped).1

@[simp] theorem insert_columns (rows : List (Row C V)) : (t.insert rows).columns = t.columns := rfl

theorem insert_rows (rows : List (Row C V)) :
    (t.insert rows).rows = t.rows ++ rows.map (restrict t.columns) := by
  show (t.rows ++ rows).map (restrict t.columns) = _
  rw [List.map_append, t.map_restrict fun _ h => h]

@[simp] theorem update_columns (f : Row C V → Row C V) : (t.update f).columns = t.columns := rfl

theorem update_rows (f : Row C V → Row C V) :
    (t.update f).rows = t.rows.map fun row => restrict t.columns (f row) :=
  List.map_map

end Table

end Tables

/-! ## Databases -/

/-- The table of each name, where there is one. -/
abbrev Database (N C V : Type) : Type := N → Option (Table C V)

namespace Database

def has (db : Database N C V) (n : N) : Bool := (db n).isSome

/-- The columns of a table, none for a table that is not there. -/
def columns (db : Database N C V) (n : N) : List C := (db n).elim [] Table.columns

def rows (db : Database N C V) (n : N) : List (Row C V) := (db n).elim [] Table.rows

theorem has_congr {db other : Database N C V} {n : N} (h : db n = other n) :
    db.has n = other.has n := congrArg Option.isSome h

theorem rows_congr {db other : Database N C V} {n : N} (h : db n = other n) :
    db.rows n = other.rows n := congrArg (fun table => table.elim [] Table.rows) h

theorem columns_congr {db other : Database N C V} {n : N} (h : db n = other n) :
    db.columns n = other.columns n := congrArg (fun table => table.elim [] Table.columns) h

theorem rows_of_not_has {db : Database N C V} {n : N} (h : ¬ db.has n = true) : db.rows n = [] := by
  unfold rows
  rw [Option.not_isSome_iff_eq_none.mp h]
  rfl

section Changes

variable [DecidableEq N] (db : Database N C V) {n m : N}

/-- Create, replace or drop a table. -/
def set (n : N) (table : Option (Table C V)) : Database N C V :=
  fun m => if m = n then table else db m

/-- Change a table, if it is there. -/
def change (n : N) (f : Table C V → Table C V) : Database N C V := db.set n ((db n).map f)

@[simp] theorem set_same (n : N) (table : Option (Table C V)) : db.set n table n = table :=
  if_pos rfl

theorem set_other (h : m ≠ n) (table : Option (Table C V)) : db.set n table m = db m := if_neg h

@[simp] theorem change_same (n : N) (f : Table C V → Table C V) :
    db.change n f n = (db n).map f := db.set_same n _

theorem change_other (h : m ≠ n) (f : Table C V → Table C V) : db.change n f m = db m :=
  db.set_other h _

variable {db}

theorem change_congr {other : Database N C V} (h : db n = other n) (f : Table C V → Table C V) :
    db.change n f n = other.change n f n := by
  rw [change_same, change_same, h]

theorem rows_change_of_some {table : Table C V} (h : db n = some table)
    (f : Table C V → Table C V) : (db.change n f).rows n = (f table).rows := by
  unfold rows
  rw [change_same, h]
  rfl

/-- The rows of a changed table, where a table that is not there changes to nothing. -/
theorem rows_change {f : Table C V → Table C V} {g : List (Row C V) → List (Row C V)}
    (hrows : ∀ table, db n = some table → (f table).rows = g table.rows) (hnil : g [] = []) :
    (db.change n f).rows n = g (db.rows n) := by
  unfold rows
  rw [change_same]
  cases htable : db n with
  | none => exact hnil.symm
  | some table => exact hrows table htable

end Changes

end Database

end M8flow.Lib.Sql
