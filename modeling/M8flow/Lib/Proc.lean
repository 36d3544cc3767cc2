import Mathlib.Logic.Basic

/-!
# Procedures that raise

A Python procedure reads and changes a state and either returns or raises; what
it changed before raising stays changed.  `Proc` is that, with

- `raise`, `tryExcept`, `read`, `modify` and `ofExcept` beside the monad;
- `Triple`, a precondition with one postcondition for returning and one for
  raising, and one rule for each way to build a procedure;
- what a run from one state is, for two procedures in a row and for `tryExcept`;
- `Outcome`, the verdict that a procedure comes to and the state in which it returns.
-/

namespace M8flow.Lib

/-- A procedure over the state `σ` that may raise an `ε`. -/
def Proc (σ ε α : Type) : Type := σ → Except ε α × σ

namespace Proc

variable {σ ε α β : Type}

protected def pure (a : α) : Proc σ ε α := fun s => (.ok a, s)

protected def bind (x : Proc σ ε α) (f : α → Proc σ ε β) : Proc σ ε β := fun s =>
  match x s with
  | (.ok a, s') => f a s'
  | (.error e, s') => (.error e, s')

instance : Monad (Proc σ ε) where
  pure := Proc.pure
  bind := Proc.bind

/-- `raise e`. -/
def raise (e : ε) : Proc σ ε α := fun s => (.error e, s)

/-- `try: x except e: handler(e)`. -/
def tryExcept (x : Proc σ ε α) (handler : ε → Proc σ ε α) : Proc σ ε α := fun s =>
  match x s with
  | (.ok a, s') => (.ok a, s')
  | (.error e, s') => handler e s'

/-- The current state. -/
def read : Proc σ ε σ := fun s => (.ok s, s)

/-- Change the state. -/
def modify (f : σ → σ) : Proc σ ε Unit := fun s => (.ok (), f s)

/-- A check that raises its own error. -/
def ofExcept {δ : Type} (wrap : δ → ε) : Except δ α → Proc σ ε α
  | .ok a => Proc.pure a
  | .error d => raise (wrap d)

/-- A check of the state, which it leaves. -/
def check (f : σ → Except ε α) : Proc σ ε α := fun s => (f s, s)

/-- Which of two procedures to run, by the state. -/
def branch (c : σ → Bool) (x y : Proc σ ε α) : Proc σ ε α := fun s => if c s then x s else y s

/-- A procedure over a part of a state, with its errors among those of the whole. -/
def focus {τ φ : Type} (get : τ → σ) (set : τ → σ → τ) (wrap : ε → φ) (x : Proc σ ε α) :
    Proc τ φ α := fun t =>
  match x (get t) with
  | (.ok a, s) => (.ok a, set t s)
  | (.error e, s) => (.error (wrap e), set t s)

/-- From any state that meets `pre`, the procedure ends in `post` if it returns
and in `exc` if it raises. -/
def Triple (pre : σ → Prop) (x : Proc σ ε α) (post : α → σ → Prop)
    (exc : ε → σ → Prop) : Prop :=
  ∀ s, pre s →
    match x s with
    | (.ok a, s') => post a s'
    | (.error e, s') => exc e s'

namespace Triple

variable {pre pre' : σ → Prop} {post post' : α → σ → Prop} {exc exc' : ε → σ → Prop}

/-- What a triple says of one run that returns. -/
theorem of_ok {x : Proc σ ε α} (h : Triple pre x post exc) {s s' : σ} {a : α}
    (hpre : pre s) (hrun : x s = (.ok a, s')) : post a s' := by
  have hmatch := h s hpre
  rw [hrun] at hmatch
  exact hmatch

/-- What a triple says of one run that raises. -/
theorem of_error {x : Proc σ ε α} (h : Triple pre x post exc) {s s' : σ} {e : ε}
    (hpre : pre s) (hrun : x s = (.error e, s')) : exc e s' := by
  have hmatch := h s hpre
  rw [hrun] at hmatch
  exact hmatch

theorem intro {x : Proc σ ε α}
    (hok : ∀ s a s', pre s → x s = (.ok a, s') → post a s')
    (herror : ∀ s e s', pre s → x s = (.error e, s') → exc e s') :
    Triple pre x post exc := by
  intro s hpre
  rcases hrun : x s with ⟨result, s'⟩
  cases result with
  | ok a => exact hok s a s' hpre hrun
  | error e => exact herror s e s' hpre hrun

theorem consequence {x : Proc σ ε α} (h : Triple pre x post exc)
    (hpre : ∀ s, pre' s → pre s) (hpost : ∀ a s, post a s → post' a s)
    (hexc : ∀ e s, exc e s → exc' e s) : Triple pre' x post' exc' :=
  intro (fun s a s' hs hrun => hpost a s' (h.of_ok (hpre s hs) hrun))
    (fun s e s' hs hrun => hexc e s' (h.of_error (hpre s hs) hrun))

/-- A triple that speaks of the state it starts from, for each such state. -/
theorem ofState {x : Proc σ ε α} (h : ∀ s, pre s → Triple (fun s' => s' = s) x post exc) :
    Triple pre x post exc :=
  fun s hs => h s hs s rfl

/-- A fact in the precondition that does not speak of the state. -/
theorem assume {fact : Prop} {x : Proc σ ε α} (h : fact → Triple pre x post exc) :
    Triple (fun s => fact ∧ pre s) x post exc :=
  fun s hs => h hs.1 s hs.2

theorem pure {a : α} (h : ∀ s, pre s → post a s) :
    Triple pre (Pure.pure a : Proc σ ε α) post exc :=
  fun s hs => h s hs

/-- `between` holds after the first procedure and before the second. -/
theorem bind {x : Proc σ ε α} {f : α → Proc σ ε β} {last : β → σ → Prop}
    (between : α → σ → Prop) (hx : Triple pre x between exc)
    (hf : ∀ a, Triple (between a) (f a) last exc) : Triple pre (x >>= f) last exc := by
  intro s hs
  show match Proc.bind x f s with
    | (.ok b, s') => last b s'
    | (.error e, s') => exc e s'
  unfold Proc.bind
  rcases hrun : x s with ⟨result, s'⟩
  cases result with
  | ok a => exact hf a s' (hx.of_ok hs hrun)
  | error e => exact hx.of_error hs hrun

theorem raise {e : ε} (h : ∀ s, pre s → exc e s) :
    Triple pre (Proc.raise e : Proc σ ε α) post exc :=
  fun s hs => h s hs

/-- The handler starts from the state in which the body raised. -/
theorem tryExcept {x : Proc σ ε α} {handler : ε → Proc σ ε α} (raised : ε → σ → Prop)
    (hx : Triple pre x post raised) (hhandler : ∀ e, Triple (raised e) (handler e) post exc) :
    Triple pre (Proc.tryExcept x handler) post exc := by
  intro s hs
  unfold Proc.tryExcept
  rcases hrun : x s with ⟨result, s'⟩
  cases result with
  | ok a => exact hx.of_ok hs hrun
  | error e => exact hhandler e s' (hx.of_error hs hrun)

theorem read {post : σ → σ → Prop} (h : ∀ s, pre s → post s s) :
    Triple pre (Proc.read : Proc σ ε σ) post exc :=
  fun s hs => h s hs

theorem modify {f : σ → σ} {post : Unit → σ → Prop} (h : ∀ s, pre s → post () (f s)) :
    Triple pre (Proc.modify f : Proc σ ε Unit) post exc :=
  fun s hs => h s hs

theorem branch {c : σ → Bool} {x y : Proc σ ε α} (hx : Triple pre x post exc)
    (hy : Triple pre y post exc) : Triple pre (Proc.branch c x y) post exc := by
  intro s hs
  unfold Proc.branch
  cases c s with
  | true => exact hx s hs
  | false => exact hy s hs

theorem ofExcept {δ : Type} {wrap : δ → ε} {check : Except δ α}
    (hok : ∀ a s, check = .ok a → pre s → post a s)
    (herror : ∀ d s, check = .error d → pre s → exc (wrap d) s) :
    Triple pre (Proc.ofExcept wrap check) post exc := by
  intro s hs
  cases hcheck : check with
  | ok a => exact hok a s hcheck hs
  | error d => exact herror d s hcheck hs

theorem ite {c : Prop} [Decidable c] {x y : Proc σ ε α}
    (hx : c → Triple pre x post exc) (hy : ¬ c → Triple pre y post exc) :
    Triple pre (if c then x else y) post exc := by
  split
  · exact hx ‹c›
  · exact hy ‹¬ c›

end Triple

/-! ## What a procedure leaves -/

/-- Whatever comes of the procedure, a state with the property is left with it. -/
def Preserves (P : σ → Prop) (x : Proc σ ε α) : Prop := ∀ s, P s → P (x s).2

namespace Preserves

variable {P : σ → Prop}

theorem pure (a : α) : Preserves P (Pure.pure a : Proc σ ε α) := fun _ h => h

theorem raise (e : ε) : Preserves P (Proc.raise e : Proc σ ε α) := fun _ h => h

theorem read : Preserves P (Proc.read : Proc σ ε σ) := fun _ h => h

theorem modify {f : σ → σ} (h : ∀ s, P s → P (f s)) :
    Preserves P (Proc.modify f : Proc σ ε Unit) := h

theorem check (f : σ → Except ε α) : Preserves P (Proc.check f) := fun _ h => h

theorem branch {c : σ → Bool} {x y : Proc σ ε α} (hx : Preserves P x) (hy : Preserves P y) :
    Preserves P (Proc.branch c x y) := by
  intro s h
  unfold Proc.branch
  split
  · exact hx s h
  · exact hy s h

/-- What is preserved holds also when the procedure raises. -/
theorem triple {x : Proc σ ε α} (hx : Preserves P x) :
    Triple P x (fun _ => P) (fun _ => P) := by
  intro s h
  have hafter := hx s h
  rcases hrun : x s with ⟨result, t⟩
  rw [hrun] at hafter
  cases result with
  | ok a => exact hafter
  | error e => exact hafter

theorem bind {x : Proc σ ε α} {f : α → Proc σ ε β} (hx : Preserves P x)
    (hf : ∀ a, Preserves P (f a)) : Preserves P (x >>= f) := by
  intro s h
  show P (Proc.bind x f s).2
  have hmid := hx s h
  unfold Proc.bind
  rcases hrun : x s with ⟨result, t⟩
  rw [hrun] at hmid
  cases result with
  | ok a => exact hf a t hmid
  | error e => exact hmid

theorem tryExcept {x : Proc σ ε α} {handler : ε → Proc σ ε α} (hx : Preserves P x)
    (hhandler : ∀ e, Preserves P (handler e)) : Preserves P (Proc.tryExcept x handler) := by
  intro s h
  have hmid := hx s h
  unfold Proc.tryExcept
  rcases hrun : x s with ⟨result, t⟩
  rw [hrun] at hmid
  cases result with
  | ok a => exact hmid
  | error e => exact hhandler e t hmid

theorem ofExcept {δ : Type} (wrap : δ → ε) (check : Except δ α) :
    Preserves P (Proc.ofExcept wrap check) := by
  cases check with
  | ok a => exact pure a
  | error d => exact raise (wrap d)

theorem ite {c : Prop} [Decidable c] {x y : Proc σ ε α} (hx : Preserves P x)
    (hy : Preserves P y) : Preserves P (if c then x else y) := by
  split
  · exact hx
  · exact hy

/-- A part's property, of a procedure over the part. -/
theorem focus {τ φ : Type} {get : τ → σ} {set : τ → σ → τ} {wrap : ε → φ} {x : Proc σ ε α}
    (hset : ∀ t s, get (set t s) = s) (hx : Preserves P x) :
    Preserves (fun t => P (get t)) (Proc.focus get set wrap x) := by
  intro t h
  have hmid := hx (get t) h
  unfold Proc.focus
  rcases hrun : x (get t) with ⟨result, s⟩
  rw [hrun] at hmid
  cases result with
  | ok a => exact (hset t s).symm ▸ hmid
  | error e => exact (hset t s).symm ▸ hmid

/-- A property that the part does not count for. -/
theorem focus_other {τ φ : Type} {get : τ → σ} {set : τ → σ → τ} {wrap : ε → φ} {x : Proc σ ε α}
    {Q : τ → Prop} (hset : ∀ t s, Q t → Q (set t s)) :
    Preserves Q (Proc.focus get set wrap x) := by
  intro t h
  unfold Proc.focus
  rcases x (get t) with ⟨result, s⟩
  cases result with
  | ok a => exact hset t s h
  | error e => exact hset t s h

end Preserves

/-! ## Runs from one state -/

theorem bind_assoc {γ : Type} (x : Proc σ ε α) (f : α → Proc σ ε β) (g : β → Proc σ ε γ) :
    (x >>= f) >>= g = x >>= fun a => f a >>= g := by
  funext s
  show Proc.bind (Proc.bind x f) g s = Proc.bind x (fun a => Proc.bind (f a) g) s
  unfold Proc.bind
  rcases x s with ⟨result, t⟩
  cases result with
  | ok a => rfl
  | error e => rfl

section Run

variable {x : Proc σ ε α} {f : α → Proc σ ε β} {s s' : σ}

theorem bind_run_ok {a : α} (h : x s = (.ok a, s')) : (x >>= f) s = f a s' := by
  show Proc.bind x f s = f a s'
  unfold Proc.bind
  rw [h]

theorem bind_run_error {e : ε} (h : x s = (.error e, s')) : (x >>= f) s = (.error e, s') := by
  show Proc.bind x f s = (.error e, s')
  unfold Proc.bind
  rw [h]

theorem read_bind_run (f : σ → Proc σ ε β) (s : σ) : (Proc.read >>= f) s = f s s := rfl

theorem ofExcept_ok_bind_run {δ : Type} (wrap : δ → ε) (a : α) (f : α → Proc σ ε β) (s : σ) :
    (Proc.ofExcept wrap (.ok a) >>= f) s = f a s := rfl

theorem ofExcept_error_bind_run {δ : Type} (wrap : δ → ε) (d : δ) (f : α → Proc σ ε β) (s : σ) :
    (Proc.ofExcept wrap (.error d) >>= f) s = (.error (wrap d), s) := rfl

/-- Two procedures in a row return only if both do. -/
theorem bind_eq_ok {b : β} :
    (x >>= f) s = (.ok b, s') ↔ ∃ a t, x s = (.ok a, t) ∧ f a t = (.ok b, s') := by
  rcases hrun : x s with ⟨result, t⟩
  cases result with
  | ok a =>
      rw [bind_run_ok hrun]
      constructor
      · intro h
        exact ⟨a, t, rfl, h⟩
      · intro h
        obtain ⟨a', t', hsame, hrest⟩ := h
        cases hsame
        exact hrest
  | error e =>
      rw [bind_run_error hrun]
      constructor
      · intro h
        cases h
      · intro h
        obtain ⟨a, t', hsame, -⟩ := h
        cases hsame

/-- Two procedures in a row raise if the first does, or the second after it. -/
theorem bind_eq_error {e : ε} :
    (x >>= f) s = (.error e, s') ↔
      x s = (.error e, s') ∨ ∃ a t, x s = (.ok a, t) ∧ f a t = (.error e, s') := by
  rcases hrun : x s with ⟨result, t⟩
  cases result with
  | ok a =>
      rw [bind_run_ok hrun]
      constructor
      · intro h
        exact Or.inr ⟨a, t, rfl, h⟩
      · intro h
        rcases h with hfirst | ⟨a', t', hsame, hrest⟩
        · cases hfirst
        · cases hsame
          exact hrest
  | error e' =>
      rw [bind_run_error hrun]
      constructor
      · intro h
        cases h
        exact Or.inl rfl
      · intro h
        rcases h with hfirst | ⟨a', t', hsame, -⟩
        · cases hfirst
          rfl
        · cases hsame

theorem tryExcept_run_ok {handler : ε → Proc σ ε α} {a : α} (h : x s = (.ok a, s')) :
    tryExcept x handler s = (.ok a, s') := by
  unfold tryExcept
  rw [h]

theorem tryExcept_run_error {handler : ε → Proc σ ε α} {e : ε} (h : x s = (.error e, s')) :
    tryExcept x handler s = handler e s' := by
  unfold tryExcept
  rw [h]

theorem focus_run_ok {τ φ : Type} {get : τ → σ} {set : τ → σ → τ} {wrap : ε → φ} {t : τ} {a : α}
    (h : x (get t) = (.ok a, s')) : focus get set wrap x t = (.ok a, set t s') := by
  unfold focus
  rw [h]

theorem focus_run_error {τ φ : Type} {get : τ → σ} {set : τ → σ → τ} {wrap : ε → φ} {t : τ} {e : ε}
    (h : x (get t) = (.error e, s')) : focus get set wrap x t = (.error (wrap e), set t s') := by
  unfold focus
  rw [h]

/-- The procedure returns. -/
def Returns (x : Proc σ ε α) (s : σ) : Prop := ∃ a t, x s = (.ok a, t)

theorem not_returns {x : Proc σ ε α} {s : σ} (h : ¬ Returns x s) : ∃ e t, x s = (.error e, t) := by
  rcases hrun : x s with ⟨result, t⟩
  cases result with
  | ok a => exact absurd ⟨a, t, hrun⟩ h
  | error e => exact ⟨e, t, rfl⟩

theorem returns_bind : Returns (x >>= f) s ↔ ∃ a t, x s = (.ok a, t) ∧ Returns (f a) t := by
  constructor
  · intro h
    obtain ⟨b, u, hrun⟩ := h
    obtain ⟨a, t, hfirst, hrest⟩ := bind_eq_ok.mp hrun
    exact ⟨a, t, hfirst, b, u, hrest⟩
  · intro h
    obtain ⟨a, t, hfirst, b, u, hrest⟩ := h
    exact ⟨b, u, bind_eq_ok.mpr ⟨a, t, hfirst, hrest⟩⟩

end Run

/-! ## Verdicts -/

/-- From `s` the procedure comes to `verdict`, and to the state `t` if that is to return. -/
def Outcome (x : Proc σ ε α) (s : σ) (verdict : Except ε α) (t : σ) : Prop :=
  match verdict with
  | .ok a => x s = (.ok a, t)
  | .error e => ∃ u, x s = (.error e, u)

namespace Outcome

variable {x : Proc σ ε α} {s t : σ} {verdict : Except ε α}

theorem of_ok (h : Outcome x s verdict t) {a : α} (hverdict : verdict = .ok a) :
    x s = (.ok a, t) := by
  rw [hverdict] at h
  exact h

theorem of_error (h : Outcome x s verdict t) {e : ε} (hverdict : verdict = .error e) :
    ∃ u, x s = (.error e, u) := by
  rw [hverdict] at h
  exact h

theorem pure (a : α) : Outcome (Pure.pure a : Proc σ ε α) s (.ok a) s := rfl

theorem check (f : σ → Except ε α) : Outcome (Proc.check f) s (f s) s := by
  cases hcheck : f s with
  | ok a =>
      show (f s, s) = (.ok a, s)
      rw [hcheck]
  | error e => exact ⟨s, congrArg (·, s) hcheck⟩

/-- The second procedure starts from the state that the first leaves. -/
theorem bind {f : α → Proc σ ε β} {rest : α → Except ε β} {u : σ} (hx : Outcome x s verdict t)
    (hf : ∀ a, verdict = .ok a → Outcome (f a) t (rest a) u) :
    Outcome (x >>= f) s (verdict >>= rest) u := by
  cases hverdict : verdict with
  | error e =>
      obtain ⟨v, hrun⟩ := hx.of_error hverdict
      exact ⟨v, bind_run_error hrun⟩
  | ok a =>
      show Outcome (x >>= f) s (rest a) u
      unfold Outcome
      rw [bind_run_ok (hx.of_ok hverdict)]
      exact hf a hverdict

theorem seq {y : Proc σ ε β} {rest : Except ε β} {u : σ} (hx : Outcome x s verdict t)
    (hy : Outcome y t rest u) : Outcome (x >>= fun _ => y) s (verdict >>= fun _ => rest) u :=
  bind hx fun _ _ => hy

/-- The first procedure returns whatever the state is. -/
theorem after {f : α → Proc σ ε β} {rest : Except ε β} {a : α} {u : σ} (hx : x s = (.ok a, t))
    (hf : Outcome (f a) t rest u) : Outcome (x >>= f) s rest u := by
  unfold Outcome
  rw [bind_run_ok hx]
  exact hf

theorem afterModify {y : Proc σ ε β} {rest : Except ε β} {f : σ → σ} {u : σ}
    (hy : Outcome y (f s) rest u) : Outcome (Proc.modify f >>= fun _ => y) s rest u :=
  after (f := fun _ => y) rfl hy

/-- The second procedure returns whatever the state is. -/
theorem andThen {x : Proc σ ε Unit} {verdict : Except ε Unit} {y : Proc σ ε Unit} {u : σ}
    (hx : Outcome x s verdict t) (hy : y t = (.ok (), u)) :
    Outcome (x >>= fun _ => y) s verdict u := by
  cases hverdict : verdict with
  | ok a =>
      show (x >>= fun _ => y) s = (.ok a, u)
      rw [bind_run_ok (hx.of_ok hverdict)]
      exact hy
  | error e =>
      obtain ⟨v, hrun⟩ := hx.of_error hverdict
      exact ⟨v, bind_run_error hrun⟩

theorem branch {c : σ → Bool} {y : Proc σ ε α} {other : Except ε α} {u : σ}
    (hx : c s = true → Outcome x s verdict t) (hy : c s = false → Outcome y s other u) :
    Outcome (Proc.branch c x y) s (if c s then verdict else other) (if c s then t else u) := by
  unfold Outcome Proc.branch
  cases hc : c s with
  | true => exact hx hc
  | false => exact hy hc

/-- Both procedures return whatever the state is. -/
theorem branch_run {c : σ → Bool} {y : Proc σ ε α} {a : α} {u : σ} (hx : x s = (.ok a, t))
    (hy : y s = (.ok a, u)) : Proc.branch c x y s = (.ok a, if c s then t else u) := by
  unfold Proc.branch
  cases c s with
  | true => exact hx
  | false => exact hy

end Outcome

end Proc

end M8flow.Lib
