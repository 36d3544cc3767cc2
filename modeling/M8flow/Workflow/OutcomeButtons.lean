import M8flow.Workflow.OutcomeGateway
import Mathlib.Data.List.Nodup

/-!
# What the outcome buttons select

- `Reaches` is what the loop of `outcomes_for_task` comes to; `mem_scan`, `scan_skipped` and
  `not_mem_scan_emitted` say what it makes of it.
- `Select`: every button selects the one flow that it is derived from and labelled with.
- `Selecting`: the literals, the values and the flows of a gateway for which that is so.
- `outcomes_select_iff`: it is so for no other gateway.
- `compound_condition`: a condition that compares twice is read as one long literal.
-/

namespace M8flow.Workflow.Outcomes

open M8flow.Lib

/-! ## The buttons -/

/-- None of the flows offers the target. -/
def Unoffered (gateway : Gateway) (entries : List CondTaskSpec) (taskSpec : Text) : Prop :=
  ∀ entry ∈ entries, entry.taskSpec = taskSpec → gateway.offer entry = none

/-- The loop, started at a position with targets that have been emitted, comes to a flow whose
target has not been emitted by then. -/
def Reaches (gateway : Gateway) (entries : List CondTaskSpec) (position : Nat)
    (emitted : List Text) (taken : Nat) (entry : CondTaskSpec) : Prop :=
  ∃ before after, entries = before ++ entry :: after ∧ taken = position + before.length ∧
    entry.taskSpec ∉ emitted ∧ Unoffered gateway before entry.taskSpec

section Scan

variable {gateway : Gateway} {position taken : Nat} {emitted : List Text}
  {first entry : CondTaskSpec} {entries : List CondTaskSpec}

theorem offer_of_unsupported (h : entry.unsupported) : gateway.offer entry = none := by
  unfold CondTaskSpec.unsupported at h
  unfold Gateway.offer
  cases hcondition : entry.condition with
  | none =>
      rw [hcondition] at h
      cases h
  | some condition =>
      rw [hcondition] at h
      exact Option.isNone_iff_eq_none.mp h

theorem not_reaches_nil : ¬ Reaches gateway [] position emitted taken entry := by
  intro h
  obtain ⟨before, after, hsplit, -⟩ := h
  cases before with
  | nil => cases hsplit
  | cons other before => cases hsplit

theorem reaches_cons : Reaches gateway (first :: entries) position emitted taken entry ↔
    (first = entry ∧ taken = position ∧ entry.taskSpec ∉ emitted) ∨
      Reaches gateway entries (position + 1) emitted taken entry ∧
        (first.taskSpec = entry.taskSpec → gateway.offer first = none) := by
  constructor
  · intro h
    obtain ⟨before, after, hsplit, htaken, hnew, hfree⟩ := h
    cases before with
    | nil =>
        cases hsplit
        exact Or.inl ⟨rfl, htaken, hnew⟩
    | cons other before =>
        obtain ⟨hother, hentries⟩ := List.cons.inj hsplit
        obtain ⟨hfirst, hrest⟩ := List.forall_mem_cons.mp hfree
        rw [hother]
        refine Or.inr ⟨⟨before, after, hentries, ?_, hnew, hrest⟩, hfirst⟩
        rw [htaken, List.length_cons]
        omega
  · intro h
    cases h with
    | inl hhere =>
        obtain ⟨hfirst, htaken, hnew⟩ := hhere
        rw [hfirst]
        exact ⟨[], entries, rfl, htaken, hnew, fun _ hmem => absurd hmem List.not_mem_nil⟩
    | inr hlater =>
        obtain ⟨⟨before, after, hsplit, htaken, hnew, hrest⟩, hfirst⟩ := hlater
        refine ⟨first :: before, after, by rw [hsplit, List.cons_append], ?_, hnew,
          List.forall_mem_cons.mpr ⟨hfirst, hrest⟩⟩
        rw [htaken, List.length_cons]
        omega

/-- What one more emitted target takes away. -/
theorem reaches_emitted {taskSpec : Text} :
    Reaches gateway entries position (taskSpec :: emitted) taken entry ↔
      Reaches gateway entries position emitted taken entry ∧ taskSpec ≠ entry.taskSpec := by
  constructor
  · intro h
    obtain ⟨before, after, hsplit, htaken, hnew, hfree⟩ := h
    exact ⟨⟨before, after, hsplit, htaken, fun hmem => hnew (List.mem_cons_of_mem _ hmem),
      hfree⟩, fun hsame => hnew (hsame ▸ List.mem_cons_self)⟩
  · intro h
    obtain ⟨⟨before, after, hsplit, htaken, hnew, hfree⟩, hdiffers⟩ := h
    refine ⟨before, after, hsplit, htaken, fun hmem => ?_, hfree⟩
    cases List.mem_cons.mp hmem with
    | inl hsame => exact hdiffers hsame.symm
    | inr hold => exact hnew hold

theorem new_of_reaches (h : Reaches gateway entries position emitted taken entry) :
    entry.taskSpec ∉ emitted := by
  obtain ⟨before, after, -, -, hnew, -⟩ := h
  exact hnew

/-- The loop passes a flow whose target has been emitted. -/
theorem reaches_cons_emitted (h : first.taskSpec ∈ emitted) :
    Reaches gateway (first :: entries) position emitted taken entry ↔
      Reaches gateway entries (position + 1) emitted taken entry := by
  rw [reaches_cons]
  constructor
  · intro hcases
    cases hcases with
    | inl hhere => exact absurd (hhere.1 ▸ h) hhere.2.2
    | inr hlater => exact hlater.1
  · intro hlater
    exact Or.inr ⟨hlater, fun hsame => absurd (hsame ▸ h) (new_of_reaches hlater)⟩

/-- A flow that offers its target emits it. -/
theorem reaches_cons_offer (h : first.taskSpec ∉ emitted) {value : Text}
    (hoffer : gateway.offer first = some value) :
    Reaches gateway (first :: entries) position emitted taken entry ↔
      (first = entry ∧ taken = position) ∨
        Reaches gateway entries (position + 1) (first.taskSpec :: emitted) taken entry := by
  rw [reaches_cons, reaches_emitted, hoffer]
  constructor
  · intro hcases
    cases hcases with
    | inl hhere => exact Or.inl ⟨hhere.1, hhere.2.1⟩
    | inr hlater => exact Or.inr ⟨hlater.1, fun hsame => absurd (hlater.2 hsame) (by simp)⟩
  · intro hcases
    cases hcases with
    | inl hhere => exact Or.inl ⟨hhere.1, hhere.2, hhere.1 ▸ h⟩
    | inr hlater => exact Or.inr ⟨hlater.1, fun hsame => absurd hsame hlater.2⟩

/-- A flow that offers nothing leaves the emitted targets alone. -/
theorem reaches_cons_skip (h : first.taskSpec ∉ emitted) (hoffer : gateway.offer first = none) :
    Reaches gateway (first :: entries) position emitted taken entry ↔
      (first = entry ∧ taken = position) ∨
        Reaches gateway entries (position + 1) emitted taken entry := by
  rw [reaches_cons, hoffer]
  constructor
  · intro hcases
    cases hcases with
    | inl hhere => exact Or.inl ⟨hhere.1, hhere.2.1⟩
    | inr hlater => exact Or.inr hlater.1
  · intro hcases
    cases hcases with
    | inl hhere => exact Or.inl ⟨hhere.1, hhere.2, hhere.1 ▸ h⟩
    | inr hlater => exact Or.inr ⟨hlater, fun _ => rfl⟩

/-- The buttons of the loop are those of the flows that it comes to and that offer a value. -/
theorem mem_scan {button : Button} : ∀ {position : Nat} {emitted : List Text},
    button ∈ (gateway.scan entries position emitted).1 ↔
      ∃ taken entry value, Reaches gateway entries position emitted taken entry ∧
        gateway.offer entry = some value ∧
        button = gateway.button entry.taskSpec value (.conditional taken) := by
  induction entries with
  | nil =>
      intro position emitted
      constructor
      · intro h
        exact absurd h List.not_mem_nil
      · intro h
        obtain ⟨taken, entry, value, hreach, -⟩ := h
        exact absurd hreach not_reaches_nil
  | cons first entries ih =>
      intro position emitted
      rw [Gateway.scan]
      by_cases hemitted : first.taskSpec ∈ emitted
      · rw [if_pos hemitted, ih]
        simp only [reaches_cons_emitted hemitted]
      · rw [if_neg hemitted]
        cases hoffer : gateway.offer first with
        | some value =>
            show button ∈ _ :: (gateway.scan entries (position + 1) _).1 ↔ _
            rw [List.mem_cons, ih]
            simp only [reaches_cons_offer hemitted hoffer]
            constructor
            · intro h
              cases h with
              | inl hhere => exact ⟨position, first, value, Or.inl ⟨rfl, rfl⟩, hoffer, hhere⟩
              | inr hlater =>
                  obtain ⟨taken, entry, other, hreach, hrest⟩ := hlater
                  exact ⟨taken, entry, other, Or.inr hreach, hrest⟩
            · intro h
              obtain ⟨taken, entry, other, hreach, hother, hbutton⟩ := h
              cases hreach with
              | inl hhere =>
                  rw [← hhere.1, hoffer] at hother
                  rw [← hhere.1, hhere.2, ← Option.some.inj hother] at hbutton
                  exact Or.inl hbutton
              | inr hlater => exact Or.inr ⟨taken, entry, other, hlater, hother, hbutton⟩
        | none =>
            show button ∈ (gateway.scan entries (position + 1) _).1 ↔ _
            rw [ih]
            simp only [reaches_cons_skip hemitted hoffer]
            constructor
            · intro h
              obtain ⟨taken, entry, other, hreach, hrest⟩ := h
              exact ⟨taken, entry, other, Or.inr hreach, hrest⟩
            · intro h
              obtain ⟨taken, entry, other, hreach, hother, hbutton⟩ := h
              cases hreach with
              | inl hhere =>
                  rw [← hhere.1, hoffer] at hother
                  cases hother
              | inr hlater => exact ⟨taken, entry, other, hlater, hother, hbutton⟩

/-- A condition was not read if it is that of a flow that the loop comes to. -/
theorem scan_skipped : ∀ {position : Nat} {emitted : List Text},
    (gateway.scan entries position emitted).2.2 = true ↔
      ∃ taken entry, Reaches gateway entries position emitted taken entry ∧
        entry.unsupported = true := by
  induction entries with
  | nil =>
      intro position emitted
      constructor
      · intro h
        cases h
      · intro h
        obtain ⟨taken, entry, hreach, -⟩ := h
        exact absurd hreach not_reaches_nil
  | cons first entries ih =>
      intro position emitted
      rw [Gateway.scan]
      by_cases hemitted : first.taskSpec ∈ emitted
      · rw [if_pos hemitted, ih]
        simp only [reaches_cons_emitted hemitted]
      · rw [if_neg hemitted]
        cases hoffer : gateway.offer first with
        | some value =>
            show (gateway.scan entries (position + 1) _).2.2 = true ↔ _
            rw [ih]
            simp only [reaches_cons_offer hemitted hoffer]
            constructor
            · intro h
              obtain ⟨taken, entry, hreach, hunsupported⟩ := h
              exact ⟨taken, entry, Or.inr hreach, hunsupported⟩
            · intro h
              obtain ⟨taken, entry, hreach, hunsupported⟩ := h
              cases hreach with
              | inl hhere =>
                  rw [← hhere.1] at hunsupported
                  rw [offer_of_unsupported hunsupported] at hoffer
                  cases hoffer
              | inr hlater => exact ⟨taken, entry, hlater, hunsupported⟩
        | none =>
            show (first.unsupported || (gateway.scan entries (position + 1) _).2.2) = true ↔ _
            rw [Bool.or_eq_true, ih]
            simp only [reaches_cons_skip hemitted hoffer]
            constructor
            · intro h
              cases h with
              | inl hhere => exact ⟨position, first, Or.inl ⟨rfl, rfl⟩, hhere⟩
              | inr hlater =>
                  obtain ⟨taken, entry, hreach, hunsupported⟩ := hlater
                  exact ⟨taken, entry, Or.inr hreach, hunsupported⟩
            · intro h
              obtain ⟨taken, entry, hreach, hunsupported⟩ := h
              cases hreach with
              | inl hhere =>
                  rw [← hhere.1] at hunsupported
                  exact Or.inl hunsupported
              | inr hlater => exact Or.inr ⟨taken, entry, hlater, hunsupported⟩

/-- The targets that the loop leaves unemitted are those that no flow offers. -/
theorem not_mem_scan_emitted {taskSpec : Text} : ∀ {position : Nat} {emitted : List Text},
    taskSpec ∉ (gateway.scan entries position emitted).2.1 ↔
      taskSpec ∉ emitted ∧ Unoffered gateway entries taskSpec := by
  induction entries with
  | nil =>
      intro position emitted
      exact (and_iff_left fun _ hmem => absurd hmem List.not_mem_nil).symm
  | cons first entries ih =>
      intro position emitted
      rw [Gateway.scan, Unoffered, List.forall_mem_cons]
      by_cases hemitted : first.taskSpec ∈ emitted
      · rw [if_pos hemitted, ih]
        constructor
        · intro h
          exact ⟨h.1, fun hsame => absurd (hsame ▸ hemitted) h.1, h.2⟩
        · intro h
          exact ⟨h.1, h.2.2⟩
      · rw [if_neg hemitted]
        cases hoffer : gateway.offer first with
        | some value =>
            show taskSpec ∉ (gateway.scan entries (position + 1) _).2.1 ↔ _
            rw [ih]
            constructor
            · intro h
              obtain ⟨hnew, hrest⟩ := h
              exact ⟨fun hmem => hnew (List.mem_cons_of_mem _ hmem),
                fun hsame => absurd (hsame ▸ List.mem_cons_self) hnew, hrest⟩
            · intro h
              obtain ⟨hnew, hfirst, hrest⟩ := h
              refine ⟨fun hmem => ?_, hrest⟩
              cases List.mem_cons.mp hmem with
              | inl hsame => cases hfirst hsame.symm
              | inr hold => exact hnew hold
        | none =>
            show taskSpec ∉ (gateway.scan entries (position + 1) _).2.1 ↔ _
            rw [ih]
            exact and_congr_right fun _ => (and_iff_right fun _ => rfl).symm

/-- The buttons of the loop stand for different flows. -/
theorem scan_pairwise : ∀ {position : Nat} {emitted : List Text},
    (gateway.scan entries position emitted).1.Pairwise
      fun button other => button.flow ≠ other.flow := by
  induction entries with
  | nil => exact List.Pairwise.nil
  | cons first entries ih =>
      intro position emitted
      rw [Gateway.scan]
      by_cases hemitted : first.taskSpec ∈ emitted
      · rw [if_pos hemitted]
        exact ih
      · rw [if_neg hemitted]
        cases hoffer : gateway.offer first with
        | none => exact ih
        | some value =>
            refine List.Pairwise.cons ?_ ih
            intro other hmem hsame
            obtain ⟨taken, entry, otherValue, ⟨before, after, -, htaken, -⟩, -, hother⟩ :=
              mem_scan.mp hmem
            rw [hother] at hsame
            have hposition : position = taken := Flow.conditional.inj hsame
            omega

end Scan

/-! ## Buttons that select what they show -/

/-- The task that a flow leads to. -/
def Gateway.target (gateway : Gateway) : Flow → Option Text
  | .conditional position => gateway.condTaskSpecs[position]?.map CondTaskSpec.taskSpec
  | .default => gateway.defaultTaskSpec

/-- Every button selects exactly the flow that it is derived from, and has the label of every
sequence flow that leads to its task; two buttons differ in their flows and in their values. -/
structure Select (eval : Evaluator) (gateway : Gateway) (buttons : List Button) : Prop where
  takes : ∀ button ∈ buttons, gateway.takes eval button.value = some [button.flow]
  labels : ∀ button ∈ buttons, ∀ taskSpec ∈ gateway.target button.flow,
    ∀ flow ∈ gateway.flows, truthy flow.target = some taskSpec →
      button.label = gateway.labelOf (some flow) taskSpec button.value
  distinct : buttons.Pairwise fun button other =>
    button.flow ≠ other.flow ∧ button.value ≠ other.value

/-- The conditional flow stands in the list, and no flow before it offers its target. -/
structure Comes (gateway : Gateway) (before : List CondTaskSpec) (entry : CondTaskSpec)
    (after : List CondTaskSpec) : Prop where
  split : gateway.condTaskSpecs = before ++ entry :: after
  first : Unoffered gateway before entry.taskSpec

/-- The default flow is offered: no condition is left unread, and no other flow offers its
target. -/
structure DefaultOffered (gateway : Gateway) (taskSpec : Text) : Prop where
  given : truthy gateway.defaultTaskSpec = some taskSpec
  read : ∀ before entry after, Comes gateway before entry after → ¬ entry.unsupported
  unoffered : Unoffered gateway gateway.condTaskSpecs taskSpec

/-- A condition is not true of a value: a plain comparison has another literal. -/
def Passed (eval : Evaluator) (entry : CondTaskSpec) (value : Text) : Prop :=
  match entry.condition with
  | none => True
  | some condition =>
      match plainLiteral condition with
      | some literal => value ≠ literal
      | none => eval condition value = some false

/-- A flow to the task is offered with the value. -/
def Offers (gateway : Gateway) (taskSpec value : Text) : Prop :=
  (∃ before entry after, Comes gateway before entry after ∧ entry.taskSpec = taskSpec ∧
    gateway.offer entry = some value) ∨
  DefaultOffered gateway taskSpec ∧ gateway.defaultFlowValue taskSpec = value

/-- The gateways whose buttons select what they show. -/
structure Selecting (eval : Evaluator) (gateway : Gateway) : Prop where
  /-- only the default flow has no condition -/
  conditions : ∀ before entry after, Comes gateway before entry after →
    entry.condition = none → gateway.defaultTaskSpec = some entry.taskSpec
  /-- a condition that is read is a plain comparison, or true of what is read -/
  literals : ∀ before entry after condition literal, Comes gateway before entry after →
    entry.condition = some condition → parseOutcomeLiteral condition = some literal →
      plainLiteral condition = some literal ∨ eval condition literal = some true
  rivals : ∀ before entry after condition literal, Comes gateway before entry after →
    entry.condition = some condition → parseOutcomeLiteral condition = some literal →
      ∀ other ∈ gateway.rivals before after, Passed eval other literal
  default : ∀ taskSpec, DefaultOffered gateway taskSpec →
    ∀ other ∈ gateway.condTaskSpecs, Passed eval other (gateway.defaultFlowValue taskSpec)
  /-- the sequence flows to the task of a button have one label -/
  labels : ∀ taskSpec value, Offers gateway taskSpec value →
    ∀ flow ∈ gateway.flows, ∀ other ∈ gateway.flows, truthy flow.target = some taskSpec →
      truthy other.target = some taskSpec →
      gateway.labelOf (some flow) taskSpec value = gateway.labelOf (some other) taskSpec value

section Buttons

variable {eval : Evaluator} {gateway : Gateway}

theorem holds_eq_false (heval : ReadsPlain eval) {entry : CondTaskSpec} {value : Text} :
    entry.holds eval value = some false ↔ Passed eval entry value := by
  unfold CondTaskSpec.holds Passed
  cases entry.condition with
  | none => exact iff_of_true rfl trivial
  | some condition =>
      dsimp only
      cases hliteral : plainLiteral condition with
      | none => exact Iff.rfl
      | some literal =>
          rw [heval condition literal value hliteral]
          exact Option.some_inj.trans decide_eq_false_iff_not

theorem reaches_iff_comes {taken : Nat} {entry : CondTaskSpec} :
    Reaches gateway gateway.condTaskSpecs 0 [] taken entry ↔
      ∃ before after, Comes gateway before entry after ∧ taken = before.length := by
  constructor
  · intro h
    obtain ⟨before, after, hsplit, htaken, -, hfree⟩ := h
    exact ⟨before, after, ⟨hsplit, hfree⟩, by rw [htaken, Nat.zero_add]⟩
  · intro h
    obtain ⟨before, after, hcomes, htaken⟩ := h
    exact ⟨before, after, hcomes.split, by rw [htaken, Nat.zero_add], List.not_mem_nil,
      hcomes.first⟩

/-- The buttons of the gateway. -/
theorem mem_buttons (hflows : ¬ gateway.flows.length ≤ 1) {button : Button} :
    button ∈ gateway.buttons ↔
      (∃ before entry after value, Comes gateway before entry after ∧
        gateway.offer entry = some value ∧
        button = gateway.button entry.taskSpec value (.conditional before.length)) ∨
      ∃ taskSpec, DefaultOffered gateway taskSpec ∧
        button = gateway.button taskSpec (gateway.defaultFlowValue taskSpec) .default := by
  have hfound : button ∈ (gateway.scan gateway.condTaskSpecs 0 []).1 ↔
      ∃ before entry after value, Comes gateway before entry after ∧
        gateway.offer entry = some value ∧
        button = gateway.button entry.taskSpec value (.conditional before.length) := by
    rw [mem_scan]
    constructor
    · intro h
      obtain ⟨taken, entry, value, hreach, hoffer, hbutton⟩ := h
      obtain ⟨before, after, hcomes, htaken⟩ := reaches_iff_comes.mp hreach
      rw [htaken] at hbutton
      exact ⟨before, entry, after, value, hcomes, hoffer, hbutton⟩
    · intro h
      obtain ⟨before, entry, after, value, hcomes, hoffer, hbutton⟩ := h
      exact ⟨before.length, entry, value, reaches_iff_comes.mpr ⟨before, after, hcomes, rfl⟩,
        hoffer, hbutton⟩
  rw [← hfound]
  unfold Gateway.buttons
  rw [if_neg hflows]
  dsimp only
  cases hgiven : truthy gateway.defaultTaskSpec with
  | none =>
      refine (or_iff_left fun h => ?_).symm
      obtain ⟨taskSpec, hoffered, -⟩ := h
      rw [hoffered.given] at hgiven
      cases hgiven
  | some given =>
      dsimp only
      by_cases hskipped : (gateway.scan gateway.condTaskSpecs 0 []).2.2 = true
      · rw [if_pos hskipped]
        refine (or_iff_left fun h => ?_).symm
        obtain ⟨taskSpec, hoffered, -⟩ := h
        obtain ⟨taken, entry, hreach, hunsupported⟩ := scan_skipped.mp hskipped
        obtain ⟨before, after, hcomes, -⟩ := reaches_iff_comes.mp hreach
        exact hoffered.read before entry after hcomes hunsupported
      · rw [if_neg hskipped]
        by_cases hemitted : given ∈ (gateway.scan gateway.condTaskSpecs 0 []).2.1
        · rw [if_pos hemitted]
          refine (or_iff_left fun h => ?_).symm
          obtain ⟨taskSpec, hoffered, -⟩ := h
          have hsame : given = taskSpec := Option.some.inj (hgiven.symm.trans hoffered.given)
          rw [hsame] at hemitted
          exact not_mem_scan_emitted.mpr ⟨List.not_mem_nil, hoffered.unoffered⟩ hemitted
        · rw [if_neg hemitted, List.mem_append, List.mem_singleton]
          refine or_congr_right ?_
          have hoffered : DefaultOffered gateway given := by
            refine ⟨hgiven, ?_, (not_mem_scan_emitted.mp hemitted).2⟩
            intro before entry after hcomes hunsupported
            exact hskipped (scan_skipped.mpr ⟨before.length, entry,
              reaches_iff_comes.mpr ⟨before, after, hcomes, rfl⟩, hunsupported⟩)
          constructor
          · intro h
            exact ⟨given, hoffered, h⟩
          · intro h
            obtain ⟨taskSpec, hother, hbutton⟩ := h
            rw [Option.some.inj (hgiven.symm.trans hother.given)]
            exact hbutton

theorem buttons_pairwise : gateway.buttons.Pairwise fun button other =>
    button.flow ≠ other.flow := by
  unfold Gateway.buttons
  split
  · exact List.Pairwise.nil
  · dsimp only
    split
    · exact scan_pairwise
    · split
      · exact scan_pairwise
      · split
        · exact scan_pairwise
        · refine List.pairwise_append.mpr ⟨scan_pairwise, List.pairwise_singleton _ _, ?_⟩
          intro button hmem other hother
          obtain ⟨taken, entry, value, -, -, hbutton⟩ := mem_scan.mp hmem
          rw [hbutton, List.mem_singleton.mp hother]
          intro hsame
          cases hsame

/-- The last flow to a task is one of them. -/
theorem flowByTarget_of_mem {taskSpec : Text} {flow : SequenceFlow} (hmem : flow ∈ gateway.flows)
    (htarget : truthy flow.target = some taskSpec) :
    ∃ last ∈ gateway.flows, truthy last.target = some taskSpec ∧
      gateway.flowByTarget taskSpec = some last := by
  have hsome : (gateway.flows.reverse.find? fun flow =>
      truthy flow.target = some taskSpec).isSome :=
    List.find?_isSome.mpr ⟨flow, List.mem_reverse.mpr hmem, decide_eq_true htarget⟩
  obtain ⟨last, hlast⟩ := Option.isSome_iff_exists.mp hsome
  have hfound := List.find?_some hlast
  exact ⟨last, List.mem_reverse.mp (List.mem_of_find?_eq_some hlast),
    of_decide_eq_true hfound, hlast⟩

theorem target_conditional {before after : List CondTaskSpec} {entry : CondTaskSpec}
    (h : Comes gateway before entry after) :
    gateway.target (.conditional before.length) = some entry.taskSpec := by
  unfold Gateway.target
  dsimp only
  rw [h.split, List.getElem?_append_right (Nat.le_refl _), Nat.sub_self]
  rfl

/-- The offers are the tasks and the values of the buttons. -/
theorem offers_iff (hflows : ¬ gateway.flows.length ≤ 1) {taskSpec value : Text} :
    Offers gateway taskSpec value ↔ ∃ button ∈ gateway.buttons,
      gateway.target button.flow = some taskSpec ∧ button.value = value ∧
        button.label = gateway.labelOf (gateway.flowByTarget taskSpec) taskSpec value := by
  constructor
  · intro h
    cases h with
    | inl hconditional =>
        obtain ⟨before, entry, after, hcomes, htask, hoffer⟩ := hconditional
        rw [← htask]
        exact ⟨_, (mem_buttons hflows).mpr (Or.inl ⟨before, entry, after, value, hcomes, hoffer,
          rfl⟩), target_conditional hcomes, rfl, rfl⟩
    | inr hdefault =>
        obtain ⟨hoffered, hvalue⟩ := hdefault
        rw [← hvalue]
        exact ⟨_, (mem_buttons hflows).mpr (Or.inr ⟨taskSpec, hoffered, rfl⟩),
          (truthy_eq_some.mp hoffered.given).1, rfl, rfl⟩
  · intro h
    obtain ⟨button, hmem, htarget, hvalue, -⟩ := h
    cases (mem_buttons hflows).mp hmem with
    | inl hconditional =>
        obtain ⟨before, entry, after, offered, hcomes, hoffer, hbutton⟩ := hconditional
        rw [hbutton] at htarget hvalue
        have htask := Option.some.inj ((target_conditional hcomes).symm.trans htarget)
        exact Or.inl ⟨before, entry, after, hcomes, htask, hoffer.trans (congrArg some hvalue)⟩
    | inr hdefault =>
        obtain ⟨given, hoffered, hbutton⟩ := hdefault
        rw [hbutton] at htarget hvalue
        have htask : given = taskSpec :=
          Option.some.inj ((truthy_eq_some.mp hoffered.given).1.symm.trans htarget)
        rw [htask] at hoffered hvalue
        exact Or.inr ⟨hoffered, hvalue⟩

theorem selecting_of_select (heval : ReadsPlain eval) (hflows : ¬ gateway.flows.length ≤ 1)
    (h : Select eval gateway gateway.buttons) : Selecting eval gateway := by
  have htaken : ∀ before entry after value, Comes gateway before entry after →
      gateway.offer entry = some value →
      (∀ other ∈ gateway.rivals before after, other.holds eval value = some false) ∧
        entry.holds eval value = some true := by
    intro before entry after value hcomes hoffer
    have htakes := h.takes _ ((mem_buttons hflows).mpr
      (Or.inl ⟨before, entry, after, value, hcomes, hoffer, rfl⟩))
    exact (takes_conditional hcomes.split).mp htakes
  have hread : ∀ {entry : CondTaskSpec} {condition literal : Text},
      entry.condition = some condition → parseOutcomeLiteral condition = some literal →
        gateway.offer entry = some literal := by
    intro entry condition literal hcondition hparse
    unfold Gateway.offer
    rw [hcondition]
    exact hparse
  refine ⟨?_, ?_, ?_, ?_, ?_⟩
  · intro before entry after hcomes hcondition
    by_cases hdefault : gateway.defaultTaskSpec = some entry.taskSpec
    · exact hdefault
    · have hoffer : gateway.offer entry = some (gateway.defaultFlowValue entry.taskSpec) := by
        unfold Gateway.offer
        rw [hcondition]
        exact if_neg hdefault
      have htrue := (htaken before entry after _ hcomes hoffer).2
      unfold CondTaskSpec.holds at htrue
      rw [hcondition] at htrue
      cases htrue
  · intro before entry after condition literal hcomes hcondition hparse
    have htrue := (htaken before entry after _ hcomes (hread hcondition hparse)).2
    unfold CondTaskSpec.holds at htrue
    rw [hcondition] at htrue
    exact Or.inr htrue
  · intro before entry after condition literal hcomes hcondition hparse other hmem
    exact (holds_eq_false heval).mp
      ((htaken before entry after _ hcomes (hread hcondition hparse)).1 other hmem)
  · intro taskSpec hoffered other hmem
    have htakes := h.takes _ ((mem_buttons hflows).mpr (Or.inr ⟨taskSpec, hoffered, rfl⟩))
    exact (holds_eq_false heval).mp ((takes_default.mp htakes).2 other hmem)
  · intro taskSpec value hoffers flow hflow other hother htarget htarget'
    obtain ⟨button, hmem, htask, hvalue, -⟩ := (offers_iff hflows).mp hoffers
    rw [← hvalue, ← h.labels button hmem taskSpec htask flow hflow htarget,
      ← h.labels button hmem taskSpec htask other hother htarget']

theorem select_of_selecting (heval : ReadsPlain eval) (hflows : ¬ gateway.flows.length ≤ 1)
    (h : Selecting eval gateway) : Select eval gateway gateway.buttons := by
  have htakes : ∀ button ∈ gateway.buttons,
      gateway.takes eval button.value = some [button.flow] := by
    intro button hmem
    cases (mem_buttons hflows).mp hmem with
    | inl hconditional =>
        obtain ⟨before, entry, after, value, hcomes, hoffer, hbutton⟩ := hconditional
        rw [hbutton]
        refine (takes_conditional hcomes.split).mpr ?_
        unfold Gateway.offer at hoffer
        cases hcondition : entry.condition with
        | none =>
            rw [hcondition] at hoffer
            dsimp only at hoffer
            rw [if_pos (h.conditions before entry after hcomes hcondition)] at hoffer
            cases hoffer
        | some condition =>
            rw [hcondition] at hoffer
            refine ⟨fun other hother => (holds_eq_false heval).mpr
              (h.rivals before entry after condition value hcomes hcondition hoffer other
                hother), ?_⟩
            unfold CondTaskSpec.holds
            rw [hcondition]
            cases h.literals before entry after condition value hcomes hcondition hoffer with
            | inl hplain =>
                refine (heval condition value value hplain).trans ?_
                rw [decide_eq_true rfl]
            | inr htrue => exact htrue
    | inr hdefault =>
        obtain ⟨taskSpec, hoffered, hbutton⟩ := hdefault
        rw [hbutton]
        refine takes_default.mpr ⟨by rw [hoffered.given]; rfl, fun other hother => ?_⟩
        exact (holds_eq_false heval).mpr (h.default taskSpec hoffered other hother)
  refine ⟨htakes, ?_, ?_⟩
  · intro button hmem taskSpec htarget flow hflow hleads
    have hoffers : Offers gateway taskSpec button.value ∧
        button.label =
          gateway.labelOf (gateway.flowByTarget taskSpec) taskSpec button.value := by
      cases (mem_buttons hflows).mp hmem with
      | inl hconditional =>
          obtain ⟨before, entry, after, value, hcomes, hoffer, hbutton⟩ := hconditional
          rw [hbutton] at htarget
          have htask : entry.taskSpec = taskSpec :=
            Option.some.inj ((target_conditional hcomes).symm.trans htarget)
          rw [hbutton, ← htask]
          exact ⟨Or.inl ⟨before, entry, after, hcomes, rfl, hoffer⟩, rfl⟩
      | inr hdefault =>
          obtain ⟨given, hoffered, hbutton⟩ := hdefault
          rw [hbutton] at htarget
          have htask : given = taskSpec :=
            Option.some.inj ((truthy_eq_some.mp hoffered.given).1.symm.trans htarget)
          rw [hbutton, ← htask]
          exact ⟨Or.inr ⟨hoffered, rfl⟩, rfl⟩
    obtain ⟨last, hlast, hlastTarget, hfound⟩ := flowByTarget_of_mem hflow hleads
    rw [hoffers.2, hfound]
    exact h.labels taskSpec button.value hoffers.1 last hlast flow hflow hlastTarget hleads
  · refine List.Pairwise.imp_of_mem ?_ buttons_pairwise
    intro button other hmem hother hflow
    refine ⟨hflow, fun hvalue => hflow ?_⟩
    have hsame := htakes button hmem
    rw [hvalue, htakes other hother] at hsame
    exact (List.cons.inj (Option.some.inj hsame)).1.symm

/-- The buttons of a task select what they show exactly if its gateway has at most one
sequence flow, and so no button, or is a selecting one. -/
theorem outcomes_select_iff (heval : ReadsPlain eval) {parse : Parser} {rows : Rows}
    {tenantId : Text} {workItemId : Nat}
    (hgateway : gatewayAfter parse rows tenantId workItemId = some gateway) :
    Select eval gateway (buttonsForTask parse rows tenantId workItemId) ↔
      gateway.flows.length ≤ 1 ∨ Selecting eval gateway := by
  unfold buttonsForTask
  rw [hgateway]
  dsimp only
  by_cases hflows : gateway.flows.length ≤ 1
  · have hnone : gateway.buttons = [] := by
      unfold Gateway.buttons
      rw [if_pos hflows]
    rw [hnone]
    refine iff_of_true ⟨?_, ?_, List.Pairwise.nil⟩ (Or.inl hflows)
    · exact fun _ hmem => absurd hmem List.not_mem_nil
    · exact fun _ hmem => absurd hmem List.not_mem_nil
  · rw [or_iff_right hflows]
    exact ⟨selecting_of_select heval hflows, select_of_selecting heval hflows⟩

end Buttons

/-! ## Two approval gateways -/

/-- Python, for plain comparisons and for the one other condition here. -/
def approvalEval : Evaluator := fun condition outcome =>
  match plainLiteral condition with
  | some literal => some (decide (outcome = literal))
  | none =>
      if condition = "outcome == 'approve' or outcome == 'accept'".toList then
        some (outcome = "approve".toList ∨ outcome = "accept".toList)
      else none

theorem approvalEval_plain : ReadsPlain approvalEval := by
  intro condition literal outcome h
  unfold approvalEval
  rw [h]

/-- The source of the two processes. -/
def approvalXml : Text :=
  "<process><sequenceFlow id=\"f1\" name=\"Approve\" sourceRef=\"G\" targetRef=\"Pay\"/>".toList ++
  "<sequenceFlow id=\"f2\" name=\"Reject\" sourceRef=\"G\" targetRef=\"Close\"/></process>".toList

/-- The parser on the source. -/
def approvalParser : Parser := fun xml =>
  let flow := fun id name target : String =>
    (Xml.Node.element ⟨none, "sequenceFlow".toList⟩
      [(⟨none, "id".toList⟩, id.toList), (⟨none, "name".toList⟩, name.toList),
        (⟨none, "sourceRef".toList⟩, "G".toList), (⟨none, "targetRef".toList⟩, target.toList)]
      [] [], ([] : Text))
  if xml = approvalXml then
    some (.element ⟨none, "process".toList⟩ [] [] [flow "f1" "Approve" "Pay",
      flow "f2" "Reject" "Close"])
  else none

/-- A task before a gateway that pays on a condition and closes otherwise. -/
def approvalRows (condition : String) : Rows where
  workItems := [⟨1, "t1".toList, 1, ["G".toList]⟩]
  instances := [⟨1, "t1".toList, some 1⟩]
  definitions := [⟨1, "t1".toList, some approvalXml⟩]
  taskDefinitions :=
    [⟨"t1".toList, 1, "G".toList, none, some .exclusive, some "G".toList,
      [⟨some condition.toList, "Pay".toList⟩, ⟨none, "Close".toList⟩], some "Close".toList⟩]

/-- The gateway after that task. -/
def approvalGateway (condition : String) : Gateway where
  typename := .exclusive
  condTaskSpecs := [⟨some condition.toList, "Pay".toList⟩, ⟨none, "Close".toList⟩]
  defaultTaskSpec := some "Close".toList
  flows :=
    [⟨some "f1".toList, some "Approve".toList, some "Pay".toList⟩,
      ⟨some "f2".toList, some "Reject".toList, some "Close".toList⟩]
  taskNames := []

theorem selecting_approvalGateway :
    Selecting approvalEval (approvalGateway "outcome == 'approve'") := by
  have hplain : plainLiteral "outcome == 'approve'".toList = some "approve".toList := by
    decide +kernel
  have hcomes : ∀ before entry after,
      Comes (approvalGateway "outcome == 'approve'") before entry after →
      (before = [] ∧ entry.condition = some "outcome == 'approve'".toList) ∨
        entry = ⟨none, "Close".toList⟩ := by
    intro before entry after h
    have hsplit := h.split
    cases before with
    | nil =>
        cases hsplit
        exact Or.inl ⟨rfl, rfl⟩
    | cons first before =>
        obtain ⟨-, hrest⟩ := List.cons.inj hsplit
        cases before with
        | nil =>
            cases hrest
            exact Or.inr rfl
        | cons second before => cases before <;> cases hrest
  refine ⟨?_, ?_, ?_, ?_, ?_⟩
  · intro before entry after h hcondition
    cases hcomes before entry after h with
    | inl hpay =>
        rw [hpay.2] at hcondition
        cases hcondition
    | inr hclose =>
        rw [hclose]
        rfl
  · intro before entry after condition literal h hcondition hparse
    cases hcomes before entry after h with
    | inl hpay =>
        rw [hpay.2] at hcondition
        rw [← Option.some.inj hcondition] at hparse ⊢
        rw [parse_of_plain hplain] at hparse
        exact Or.inl (hplain.trans hparse)
    | inr hclose =>
        rw [hclose] at hcondition
        cases hcondition
  · intro before entry after condition literal h hcondition _ other hother
    cases hcomes before entry after h with
    | inl hpay =>
        rw [hpay.1] at hother
        exact absurd hother List.not_mem_nil
    | inr hclose =>
        rw [hclose] at hcondition
        cases hcondition
  · intro taskSpec hoffered other hother
    have htask : taskSpec = "Close".toList :=
      Option.some.inj ((truthy_eq_some.mp hoffered.given).1.symm.trans rfl)
    rw [htask]
    cases List.mem_cons.mp hother with
    | inl hpay =>
        rw [hpay]
        unfold Passed
        dsimp only
        rw [hplain]
        decide
    | inr hclose =>
        rw [List.mem_singleton.mp hclose]
        exact trivial
  · intro taskSpec value _ flow hflow other hother htarget htarget'
    have hnodup : ((approvalGateway "outcome == 'approve'").flows.map
        SequenceFlow.target).Nodup := by decide
    have hsame : flow = other := List.inj_on_of_nodup_map hnodup hflow hother
      ((truthy_eq_some.mp htarget).1.trans (truthy_eq_some.mp htarget').1.symm)
    rw [hsame]

theorem approval_selects :
    Select approvalEval (approvalGateway "outcome == 'approve'")
      (buttonsForTask approvalParser (approvalRows "outcome == 'approve'") "t1".toList 1) := by
  have hgateway : gatewayAfter approvalParser (approvalRows "outcome == 'approve'") "t1".toList 1 =
      some (approvalGateway "outcome == 'approve'") := by decide +kernel
  exact (outcomes_select_iff approvalEval_plain hgateway).mpr (Or.inr selecting_approvalGateway)

/-- The button that is labelled `Approve` has the text between the outer quotes for its value,
which none of the comparisons is true of, so that the gateway takes the flow of `Reject`. -/
theorem compound_condition :
    gatewayAfter approvalParser (approvalRows "outcome == 'approve' or outcome == 'accept'")
        "t1".toList 1 =
      some (approvalGateway "outcome == 'approve' or outcome == 'accept'") ∧
    outcomesForTask approvalParser
        (approvalRows "outcome == 'approve' or outcome == 'accept'") "t1".toList 1 =
      [("approve' or outcome == 'accept".toList, "Approve".toList),
        ("Reject".toList, "Reject".toList)] ∧
    ¬ Select approvalEval (approvalGateway "outcome == 'approve' or outcome == 'accept'")
      (buttonsForTask approvalParser
        (approvalRows "outcome == 'approve' or outcome == 'accept'") "t1".toList 1) := by
  have hgateway : gatewayAfter approvalParser
      (approvalRows "outcome == 'approve' or outcome == 'accept'") "t1".toList 1 =
        some (approvalGateway "outcome == 'approve' or outcome == 'accept'") := by decide +kernel
  have hbuttons : buttonsForTask approvalParser
      (approvalRows "outcome == 'approve' or outcome == 'accept'") "t1".toList 1 =
        [⟨"approve' or outcome == 'accept".toList, "Approve".toList, .conditional 0⟩,
          ⟨"Reject".toList, "Reject".toList, .default⟩] := by
    unfold buttonsForTask
    rw [hgateway]
    decide +kernel
  refine ⟨hgateway, ?_, ?_⟩
  · unfold outcomesForTask
    rw [hbuttons]
    rfl
  · intro h
    have htakes := h.takes ⟨"approve' or outcome == 'accept".toList, "Approve".toList,
      .conditional 0⟩ (by rw [hbuttons]; exact List.mem_cons_self)
    exact absurd htakes (by decide +kernel)

end M8flow.Workflow.Outcomes
