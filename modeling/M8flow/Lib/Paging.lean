import Mathlib.Data.List.Nodup
import Mathlib.Data.List.Sort

/-!
# Pages of a list that is sorted again for every page

A list is read page by page, and for each page the rows come in another order, are sorted
by a key that has ties, and are cut.

- `sortBy` and `slice` are the sort and the cut; `pages` are the pages of one log for each
  page, one after the other.
- `keys_pages`: the keys are those of the sorted list, always.
- `Straddled` says that rows with one key lie on both sides of a place, by counting rows.
- `pages_perm`: the rows are those of the sorted list when no page ends at such a place.
- `not_nodup_of_tie`: a row that ends one page and starts the next is there twice.
-/

namespace M8flow.Lib.Paging

variable {α β : Type*}

/-! ## Cutting -/

/-- `rows[start : start + per_page]` for the `start` of a page. -/
def slice (perPage page : Nat) (rows : List α) : List α :=
  (rows.drop ((page - 1) * perPage)).take perPage

/-- The first pages, each of its own log. -/
def pages (logs : Nat → List α) (perPage count : Nat) : List α :=
  (List.range count).flatMap fun i => slice perPage (i + 1) (logs i)

theorem mem_slice {rows : List α} {perPage page i : Nat} (hi : i < rows.length)
    (hlow : (page - 1) * perPage ≤ i) (hhigh : i < (page - 1) * perPage + perPage) :
    rows[i] ∈ slice perPage page rows := by
  unfold slice
  rw [List.mem_take_iff_getElem]
  refine ⟨i - (page - 1) * perPage, ?_, ?_⟩
  · rw [List.length_drop]
    omega
  · rw [List.getElem_drop]
    congr 1
    omega

/-- The last row of a page that comes first on the next page is there twice. -/
theorem not_nodup_of_tie {logs : Nat → List α} {perPage page count : Nat} {row : α}
    (hper : 0 < perPage) (hpage : page + 1 < count)
    (hlast : (logs page)[(page + 1) * perPage - 1]? = some row)
    (hfirst : (logs (page + 1))[(page + 1) * perPage]? = some row) :
    ¬ (pages logs perPage count).Nodup := by
  intro hnodup
  unfold pages at hnodup
  obtain ⟨-, hdisjoint⟩ := List.nodup_flatMap.mp hnodup
  have hpair := List.pairwise_iff_getElem.mp hdisjoint page (page + 1)
    (by rw [List.length_range]; omega) (by rw [List.length_range]; omega) (Nat.lt_succ_self page)
  rw [List.getElem_range, List.getElem_range] at hpair
  have hmul : (page + 1) * perPage = page * perPage + perPage := Nat.succ_mul page perPage
  obtain ⟨hshort, hrow⟩ := List.getElem?_eq_some_iff.mp hlast
  obtain ⟨hshort', hrow'⟩ := List.getElem?_eq_some_iff.mp hfirst
  have hin : row ∈ slice perPage (page + 1) (logs page) := by
    rw [← hrow]
    exact mem_slice hshort (by rw [Nat.add_sub_cancel]; omega) (by rw [Nat.add_sub_cancel]; omega)
  have hagain : row ∈ slice perPage (page + 1 + 1) (logs (page + 1)) := by
    rw [← hrow']
    exact mem_slice hshort' (by rw [Nat.add_sub_cancel]) (by rw [Nat.add_sub_cancel]; omega)
  exact hpair hin hagain

/-- The keys of the pages, when every log has the same keys. -/
theorem keys_pages {key : α → β} {logs : Nat → List α} {keys : List β}
    (h : ∀ i, (logs i).map key = keys) (perPage count : Nat) : (pages logs perPage count).map key = keys.take (count * perPage) := by
  unfold pages
  induction count with
  | zero => simp
  | succ count ih =>
      have hslice : (slice perPage (count + 1) (logs count)).map key =
          (keys.drop (count * perPage)).take perPage := by
        unfold slice
        rw [List.map_take, List.map_drop, h, Nat.add_sub_cancel]
      rw [List.range_succ, List.flatMap_append, List.map_append, ih, List.flatMap_singleton, hslice,
        Nat.succ_mul, List.take_add]

/-! ## Sorting -/

variable [LinearOrder β] (key : α → β)

/-- `rows.sort(key=...)`, which leaves rows with equal keys in their order. -/
def sortBy (rows : List α) : List α := rows.insertionSort fun row other => key row ≤ key other

/-- In the order of the keys. -/
def Sorted (rows : List α) : Prop := rows.Pairwise fun row other => key row ≤ key other

/-- Rows with one key lie before and behind the place `n`: fewer than `n` rows are below
the key, and more than `n` not above it. -/
def Straddled (all : List α) (n : Nat) : Prop :=
  ∃ row ∈ all, all.countP (fun other => key other < key row) < n ∧
    n < all.countP fun other => key other ≤ key row

variable {key} {rows all : List α} {n : Nat}

theorem sortBy_perm (rows : List α) : (sortBy key rows).Perm rows := List.perm_insertionSort _ _

theorem sorted_sortBy (rows : List α) : Sorted key (sortBy key rows) := by
  have htotal : Std.Total fun row other : α => key row ≤ key other := ⟨fun _ _ => le_total _ _⟩
  have htrans : IsTrans α fun row other => key row ≤ key other := ⟨fun _ _ _ => le_trans⟩
  exact List.pairwise_insertionSort _ rows

/-- The keys of a sorted list are determined by its rows. -/
theorem keys_eq_of_perm {other : List α} (hperm : rows.Perm other) (hrows : Sorted key rows)
    (hother : Sorted key other) : rows.map key = other.map key := by
  refine List.Perm.eq_of_pairwise ?_ (List.pairwise_map.mpr hrows) (List.pairwise_map.mpr hother)
    (hperm.map key)
  intro a b _ _ hab hba
  exact le_antisymm hab hba

/-- Where no two rows tie, the sorted list does not depend on the order before. -/
theorem sortBy_eq_of_perm {other : List α} (hperm : rows.Perm other)
    (hkeys : ∀ row ∈ rows, ∀ row' ∈ rows, key row = key row' → row = row') :
    sortBy key rows = sortBy key other := by
  refine List.Perm.eq_of_pairwise ?_ (sorted_sortBy rows) (sorted_sortBy other)
    ((sortBy_perm rows).trans (hperm.trans (sortBy_perm other).symm))
  intro row row' hrow hrow' hle hge
  exact hkeys row ((sortBy_perm rows).mem_iff.mp hrow) row'
    (hperm.mem_iff.mpr ((sortBy_perm other).mem_iff.mp hrow')) (le_antisymm hle hge)

theorem key_le_of_sorted (hsorted : Sorted key rows) {i j : Nat} (hi : i < rows.length)
    (hj : j < rows.length) (hle : i ≤ j) : key rows[i] ≤ key rows[j] := by
  rcases Nat.eq_or_lt_of_le hle with hsame | hlt
  · subst hsame
    exact le_refl _
  · exact List.pairwise_iff_getElem.mp hsorted i j hi hj hlt

/-! ## Counting -/

theorem le_countP {p : α → Bool} {k : Nat} (hk : k ≤ rows.length)
    (h : ∀ row ∈ rows.take k, p row = true) : k ≤ rows.countP p := by
  have htake : (rows.take k).countP p = k := by
    rw [List.countP_eq_length.mpr h, List.length_take]
    omega
  have hle := (List.take_sublist k rows).countP_le (p := p)
  omega

theorem countP_le {p : α → Bool} {k : Nat} (h : ∀ row ∈ rows.drop k, p row = false) :
    rows.countP p ≤ k := by
  have hdrop : (rows.drop k).countP p = 0 := by
    rw [List.countP_eq_zero]
    intro row hrow
    rw [h row hrow]
    exact Bool.false_ne_true
  have hsplit := congrArg (List.countP p) (List.take_append_drop k rows)
  rw [List.countP_append, hdrop] at hsplit
  have hlength := List.countP_le_length (p := p) (l := rows.take k)
  rw [List.length_take] at hlength
  omega

/-- In the sorted list a straddled place has equal keys at its two sides. -/
theorem straddled_iff (hperm : rows.Perm all) (hsorted : Sorted key rows) (hpos : 0 < n)
    (hn : n < rows.length) :
    Straddled key all n ↔ key rows[n - 1] = key rows[n] := by
  have hcount : ∀ p : α → Bool, all.countP p = rows.countP p := fun p => (hperm.countP_eq p).symm
  constructor
  · intro h
    obtain ⟨row, -, hbelow, hupto⟩ := h
    rw [hcount] at hbelow hupto
    have hlow : key row ≤ key rows[n - 1] := by
      by_contra hlt
      rw [not_le] at hlt
      have hle : n ≤ rows.countP fun other => key other < key row := by
        apply le_countP (Nat.le_of_lt hn)
        intro other hother
        obtain ⟨i, hi, hsame⟩ := List.mem_take_iff_getElem.mp hother
        rw [← hsame, decide_eq_true_eq]
        exact lt_of_le_of_lt (key_le_of_sorted hsorted (by omega) (by omega) (by omega)) hlt
      omega
    have hhigh : key rows[n] ≤ key row := by
      by_contra hlt
      rw [not_le] at hlt
      have hle : (rows.countP fun other => key other ≤ key row) ≤ n := by
        apply countP_le
        intro other hother
        obtain ⟨i, hi, hsame⟩ := List.mem_drop_iff_getElem.mp hother
        rw [← hsame, decide_eq_false_iff_not, not_le]
        exact lt_of_lt_of_le hlt (key_le_of_sorted hsorted hn (by omega) (by omega))
      omega
    exact le_antisymm (key_le_of_sorted hsorted (by omega) hn (by omega)) (hhigh.trans hlow)
  · intro htie
    refine ⟨rows[n], hperm.subset (List.getElem_mem hn), ?_, ?_⟩
    · rw [hcount]
      have hle : (rows.countP fun other => key other < key rows[n]) ≤ n - 1 := by
        apply countP_le
        intro other hother
        obtain ⟨i, hi, hsame⟩ := List.mem_drop_iff_getElem.mp hother
        rw [← hsame, decide_eq_false_iff_not, not_lt, ← htie]
        exact key_le_of_sorted hsorted (by omega) (by omega) (by omega)
      omega
    · rw [hcount]
      have hle : n + 1 ≤ rows.countP fun other => key other ≤ key rows[n] := by
        apply le_countP hn
        intro other hother
        obtain ⟨i, hi, hsame⟩ := List.mem_take_iff_getElem.mp hother
        rw [← hsame, decide_eq_true_eq]
        exact key_le_of_sorted hsorted (by omega) hn (by omega)
      omega

/-! ## Pages of sorted lists -/

/-- Up to a place that is not straddled the rows are those with smaller keys. -/
theorem take_perm {log other : List α} (hlog : log.Perm all) (hother : other.Perm all)
    (hsorted : Sorted key log) (hsorted' : Sorted key other) (hn : ¬ Straddled key all n) :
    (log.take n).Perm (other.take n) := by
  have hperm : log.Perm other := hlog.trans hother.symm
  have hlength := hperm.length_eq
  by_cases hpos : n = 0
  · rw [hpos, List.take_zero, List.take_zero]
  by_cases hshort : n < log.length
  · have hkeys := keys_eq_of_perm hperm hsorted hsorted'
    -- in either list the first `n` rows are the ones below the key that comes next
    have hfilter : ∀ {rows : List α}, rows.Perm all → Sorted key rows → ∀ h : n < rows.length,
        rows.take n = rows.filter fun row => key row < key rows[n] := by
      intro rows hrows hsort h
      have hgap : key rows[n - 1] < key rows[n] := by
        apply lt_of_le_of_ne (key_le_of_sorted hsort (by omega) h (by omega))
        intro htie
        exact hn ((straddled_iff hrows hsort (Nat.pos_of_ne_zero hpos) h).mpr htie)
      have hbelow : (rows.take n).filter (fun row => key row < key rows[n]) = rows.take n := by
        rw [List.filter_eq_self]
        intro row hrow
        obtain ⟨i, hi, hsame⟩ := List.mem_take_iff_getElem.mp hrow
        rw [← hsame, decide_eq_true_eq]
        exact lt_of_le_of_lt (key_le_of_sorted hsort (by omega) (by omega) (by omega)) hgap
      have habove : (rows.drop n).filter (fun row => key row < key rows[n]) = [] := by
        rw [List.filter_eq_nil_iff]
        intro row hrow
        obtain ⟨i, hi, hsame⟩ := List.mem_drop_iff_getElem.mp hrow
        rw [← hsame, decide_eq_true_eq, not_lt]
        exact key_le_of_sorted hsort h (by omega) (by omega)
      generalize key rows[n] = bound at hbelow habove
      have hall : rows.filter (fun row => key row < bound) =
          (rows.take n ++ rows.drop n).filter fun row => key row < bound := by
        rw [List.take_append_drop]
      rw [hall, List.filter_append, hbelow, habove, List.append_nil]
    have hshort' : n < other.length := by omega
    have hsame : key log[n] = key other[n] := by
      have hget : (log.map key)[n]? = (other.map key)[n]? := by rw [hkeys]
      rw [List.getElem?_map, List.getElem?_map, List.getElem?_eq_getElem hshort,
        List.getElem?_eq_getElem hshort'] at hget
      exact Option.some.inj hget
    rw [hfilter hlog hsorted hshort, hfilter hother hsorted' hshort', hsame]
    exact hperm.filter _
  · rw [List.take_of_length_le (by omega), List.take_of_length_le (by omega)]
    exact hperm

/-- When no page ends at a straddled place, the pages have the rows of a sorted list. -/
theorem pages_perm {logs : Nat → List α} (hlogs : ∀ i, (logs i).Perm all)
    (hsorted : ∀ i, Sorted key (logs i)) {perPage : Nat}
    (hpages : ∀ page, ¬ Straddled key all (page * perPage)) (count : Nat) :
    (pages logs perPage count).Perm ((logs 0).take (count * perPage)) := by
  unfold pages
  induction count with
  | zero => simp
  | succ count ih =>
      have hsplit : ∀ i, (logs i).take ((count + 1) * perPage) =
          (logs i).take (count * perPage) ++ slice perPage (count + 1) (logs i) := by
        intro i
        unfold slice
        rw [Nat.succ_mul, List.take_add, Nat.add_sub_cancel]
      have hwhole := take_perm (hlogs count) (hlogs 0) (hsorted count) (hsorted 0)
        (hpages (count + 1))
      have hbefore := take_perm (hlogs count) (hlogs 0) (hsorted count) (hsorted 0) (hpages count)
      rw [hsplit count, hsplit 0] at hwhole
      have hslice : (slice perPage (count + 1) (logs count)).Perm
          (slice perPage (count + 1) (logs 0)) :=
        (List.perm_append_left_iff _).mp (hwhole.trans (hbefore.symm.append_right _))
      rw [List.range_succ, List.flatMap_append, List.flatMap_singleton, hsplit 0]
      exact ih.append hslice

/-! ## Batches -/

/-- The rows in batches of a size, of which the last one may be short. -/
def batches (size : Nat) (rows : List α) : List (List α) :=
  if rows = [] ∨ size = 0 then [] else rows.take size :: batches size (rows.drop size)
termination_by rows.length
decreasing_by
  rename_i h
  rw [not_or] at h
  have hpos := List.length_pos_iff.mpr h.1
  rw [List.length_drop]
  omega

theorem batches_nil (size : Nat) : batches size ([] : List α) = [] := by
  rw [batches, if_pos (Or.inl rfl)]

theorem batches_of_ne_nil {size : Nat} {rows : List α} (hsize : 0 < size) (h : rows ≠ []) :
    batches size rows = rows.take size :: batches size (rows.drop size) := by
  rw [batches, if_neg]
  rintro (hnil | hzero)
  · exact h hnil
  · omega

/-- A choice that is made in each batch as in the whole list keeps the chosen rows. -/
theorem flatMap_batches {size : Nat} (hsize : 0 < size) {choose : List α → List α} {p : α → Bool}
    {rows : List α} (h : ∀ batch, batch ⊆ rows → choose batch = batch.filter p) :
    (batches size rows).flatMap choose = rows.filter p := by
  induction rows using batches.induct size with
  | case1 rows hrows =>
      rcases hrows with hnil | hzero
      · rw [hnil, batches_nil]
        rfl
      · omega
  | case2 rows hrows ih =>
      rw [not_or] at hrows
      have hrest : ∀ batch, batch ⊆ rows.drop size → choose batch = batch.filter p :=
        fun batch hsub => h batch fun _ hmem => List.mem_of_mem_drop (hsub hmem)
      rw [batches_of_ne_nil hsize hrows.1, List.flatMap_cons, ih hrest,
        h _ (List.take_subset size rows), ← List.filter_append, List.take_append_drop]

end M8flow.Lib.Paging
