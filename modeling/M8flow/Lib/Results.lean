import Mathlib.Data.List.Forall2

/-!
# Computations that can fail

What is known of a computation in `Except` that returned: the parts of it returned, too.

- `bind_eq_ok` and `map_eq_ok` take a sequence apart.
- `mapM_eq_ok` is a loop, and `exists_mem_iff` goes from its items to its results.
- `foldlM_simulates` is a loop that carries a state, against a loop that cannot fail, and
  `foldlM_processed` one whose invariant tells of the items it has done.
-/

namespace M8flow.Lib.Results

variable {ε α β : Type}

theorem bind_eq_ok {x : Except ε α} {f : α → Except ε β} {b : β} :
    x >>= f = .ok b ↔ ∃ a, x = .ok a ∧ f a = .ok b := by
  cases x with
  | error e =>
      constructor
      · intro h
        cases h
      · intro h
        obtain ⟨a, ha, _⟩ := h
        cases ha
  | ok a =>
      constructor
      · intro h
        exact ⟨a, rfl, h⟩
      · intro h
        obtain ⟨a', ha, hf⟩ := h
        cases ha
        exact hf

theorem map_eq_ok {x : Except ε α} {f : α → β} {b : β} :
    x.map f = .ok b ↔ ∃ a, x = .ok a ∧ f a = b := by
  cases x with
  | error e =>
      constructor
      · intro h
        cases h
      · intro h
        obtain ⟨a, ha, _⟩ := h
        cases ha
  | ok a =>
      constructor
      · intro h
        exact ⟨a, rfl, Except.ok.inj h⟩
      · intro h
        obtain ⟨a', ha, hf⟩ := h
        cases ha
        exact congrArg Except.ok hf

/-- A loop returns the results of its items. -/
theorem mapM_eq_ok {f : α → Except ε β} {xs : List α} {ys : List β} :
    xs.mapM f = .ok ys ↔ List.Forall₂ (fun x y => f x = .ok y) xs ys := by
  induction xs generalizing ys with
  | nil =>
      rw [List.mapM_nil, List.forall₂_nil_left_iff]
      constructor
      · intro h
        exact (Except.ok.inj h).symm
      · intro h
        rw [h]
        rfl
  | cons x xs ih =>
      rw [List.mapM_cons, bind_eq_ok]
      constructor
      · intro h
        obtain ⟨y, hy, h⟩ := h
        obtain ⟨rest, hrest, h⟩ := bind_eq_ok.mp h
        rw [← Except.ok.inj h]
        exact .cons hy (ih.mp hrest)
      · intro h
        cases h with
        | cons hy hrest => exact ⟨_, hy, bind_eq_ok.mpr ⟨_, ih.mpr hrest, rfl⟩⟩

/-- A property of one of the items is that of one of the results. -/
theorem exists_mem_iff {R : α → β → Prop} {P : α → Prop} {Q : β → Prop} {xs : List α} {ys : List β}
    (h : List.Forall₂ R xs ys) (hR : ∀ x y, R x y → (P x ↔ Q y)) :
    (∃ x ∈ xs, P x) ↔ ∃ y ∈ ys, Q y := by
  induction h with
  | nil => simp
  | cons hxy _ ih =>
      rw [List.exists_mem_cons_iff, List.exists_mem_cons_iff]
      exact or_congr (hR _ _ hxy) ih

/-- A loop whose steps return and keep a relation to another loop's state returns, and keeps the
relation. -/
theorem foldlM_simulates {σ τ ι : Type} {R : σ → τ → Prop} {f : σ → ι → Except ε σ}
    {g : τ → ι → τ} {items : List ι}
    (hstep : ∀ item ∈ items, ∀ s t, R s t → ∃ s', f s item = .ok s' ∧ R s' (g t item))
    {s : σ} {t : τ} (h : R s t) :
    ∃ s', items.foldlM f s = .ok s' ∧ R s' (items.foldl g t) := by
  induction items generalizing s t with
  | nil => exact ⟨s, rfl, h⟩
  | cons item items ih =>
      obtain ⟨next, hnext, hrelated⟩ := hstep item List.mem_cons_self s t h
      obtain ⟨last, hlast, hend⟩ :=
        ih (fun other hother => hstep other (List.mem_cons_of_mem _ hother)) hrelated
      refine ⟨last, ?_, hend⟩
      rw [List.foldlM_cons, hnext]
      exact hlast

/-- A loop whose invariant tells of the items that it has done tells of all of them in the end. -/
theorem foldlM_processed {σ ι : Type} {R : σ → List ι → Prop} {f : σ → ι → Except ε σ}
    {items : List ι}
    (hstep : ∀ item ∈ items, ∀ s done, R s done → ∃ s', f s item = .ok s' ∧ R s' (done ++ [item]))
    {s : σ} (h : R s []) : ∃ s', items.foldlM f s = .ok s' ∧ R s' items := by
  obtain ⟨last, hlast, hend⟩ :=
    foldlM_simulates (g := fun done item => done ++ [item]) (t := []) hstep h
  rw [List.foldl_append_eq_append, List.nil_append, ← List.flatMap_def,
    List.flatMap_singleton'] at hend
  exact ⟨last, hlast, hend⟩

end M8flow.Lib.Results
