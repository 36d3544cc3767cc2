import M8flow.Workflow.Outcomes
import Mathlib.Data.List.TakeWhile

/-!
# The gateway after a task

A button sets the variable `outcome`, and the gateway then evaluates its conditions.  An
exclusive gateway takes the first flow whose condition is true, an inclusive one every such
flow, and both take the default flow if there is none.

- `plainLiteral`: the conditions that Python reads as a comparison of `outcome` with one
  literal that stands for itself; `parse_of_plain` says that the regular expression reads them
  in the same way.
- `takes_conditional` and `takes_default`: when a gateway takes one flow alone.
-/

namespace M8flow.Workflow.Outcomes

open M8flow.Lib

/-! ## Plain comparisons -/

def isBlank (c : Char) : Bool := c = ' ' ∨ c = '\t'

def skipBlanks (s : Text) : Text := s.dropWhile isBlank

/-- A character that stands for itself in a literal between such quotes. -/
def plainChar (quote c : Char) : Bool :=
  c ≠ quote ∧ c ≠ '\\' ∧ c ≠ '\n' ∧ c ≠ '\r' ∧ c.toNat ≠ 0

/-- A literal of plain characters, and what follows it. -/
def stringToken (s : Text) : Option (Text × Text) :=
  match s with
  | [] => none
  | quote :: s =>
      match s.dropWhile (plainChar quote) with
      | [] => none
      | c :: rest =>
          if isQuote quote ∧ c = quote then some (s.takeWhile (plainChar quote), rest) else none

/-- What follows a token and the blanks before it. -/
def afterToken (token s : Text) : Option Text :=
  let s := skipBlanks s
  if token.isPrefixOf s then some (s.drop token.length) else none

/-- `outcome == '...'`. -/
def plainLeft (condition : Text) : Option Text := do
  let s ← afterToken "outcome".toList condition
  let s ← afterToken "==".toList s
  let (literal, rest) ← stringToken (skipBlanks s)
  if skipBlanks rest = [] then some literal else none

/-- `'...' == outcome`. -/
def plainRight (condition : Text) : Option Text := do
  let (literal, rest) ← stringToken (skipBlanks condition)
  let s ← afterToken "==".toList rest
  let s ← afterToken "outcome".toList s
  if skipBlanks s = [] then some literal else none

/-- The literal of a condition that compares `outcome` with one. -/
def plainLiteral (condition : Text) : Option Text := (plainLeft condition).or (plainRight condition)

theorem isSpace_of_isBlank {c : Char} (h : isBlank c) : Text.isSpace c := by
  have hcases : c = ' ' ∨ c = '\t' := of_decide_eq_true h
  cases hcases with
  | inl hspace =>
      rw [hspace]
      decide
  | inr htab =>
      rw [htab]
      decide

/-- Blanks before something that is no space are all the spaces before it. -/
theorem skipSpaces_eq {s rest : Text} {c : Char} (h : skipBlanks s = c :: rest)
    (hc : ¬ Text.isSpace c) : skipSpaces s = c :: rest := by
  induction s with
  | nil => cases h
  | cons d s ih =>
      unfold skipBlanks at h
      unfold skipSpaces
      by_cases hblank : isBlank d
      · rw [List.dropWhile_cons_of_pos hblank] at h
        rw [List.dropWhile_cons_of_pos (isSpace_of_isBlank hblank)]
        exact ih h
      · rw [List.dropWhile_cons_of_neg hblank] at h
        cases h
        rw [List.dropWhile_cons_of_neg hc]

theorem all_isSpace_of_blanks {s : Text} (h : skipBlanks s = []) : s.all Text.isSpace := by
  refine List.all_eq_true.mpr fun c hmem => isSpace_of_isBlank ?_
  exact List.dropWhile_eq_nil_iff.mp h c hmem

/-- A token that starts with no space stands after the spaces. -/
theorem afterToken_eq_some {token s rest : Text} {c : Char} {tail : Text}
    (h : afterToken token s = some rest) (htoken : token = c :: tail) (hc : ¬ Text.isSpace c) :
    skipSpaces s = token ++ rest := by
  unfold afterToken at h
  dsimp only at h
  split at h
  · rename_i hstart
    obtain ⟨after, hafter⟩ := List.isPrefixOf_iff_prefix.mp hstart
    rw [← hafter, List.drop_left] at h
    cases h
    rw [htoken, List.cons_append] at hafter
    rw [skipSpaces_eq hafter.symm hc, htoken, List.cons_append]
  · cases h

/-- What the token reader has read. -/
theorem stringToken_eq_some {s literal rest : Text} (h : stringToken s = some (literal, rest)) :
    ∃ quote, isQuote quote ∧ s = quote :: (literal ++ quote :: rest) ∧
      ∀ c ∈ literal, plainChar quote c := by
  unfold stringToken at h
  split at h
  · cases h
  · rename_i quote s
    split at h
    · cases h
    · rename_i c tail hdrop
      split at h
      · rename_i hquote
        obtain ⟨hisQuote, hsame⟩ := hquote
        cases h
        refine ⟨quote, hisQuote, ?_, fun c hmem => List.mem_takeWhile_imp hmem⟩
        rw [← hsame] at hdrop
        rw [← hsame, ← hdrop, List.takeWhile_append_dropWhile]
      · cases h

/-- A literal without its own quote ends where its quote stands again. -/
theorem lazyLiteral_append {quote : Char} {rest : Text → Bool} {literal tail : Text}
    (hplain : ∀ c ∈ literal, plainChar quote c) (htail : rest tail) :
    lazyLiteral quote rest (literal ++ quote :: tail) = some literal := by
  induction literal with
  | nil => exact if_pos ⟨rfl, htail⟩
  | cons c literal ih =>
      have hchar := of_decide_eq_true (hplain c List.mem_cons_self)
      rw [List.cons_append, lazyLiteral, if_neg fun h => hchar.1 h.1, if_neg hchar.2.2.1,
        ih fun d hmem => hplain d (List.mem_cons_of_mem _ hmem)]
      rfl

theorem not_isSpace_of_isQuote {c : Char} (h : isQuote c) : ¬ Text.isSpace c := by
  have hcases : c = '\'' ∨ c = '"' := of_decide_eq_true h
  cases hcases with
  | inl hsingle =>
      rw [hsingle]
      decide
  | inr hdouble =>
      rw [hdouble]
      decide

theorem afterEquals_eq_some {s rest : Text} (h : skipSpaces s = "==".toList ++ rest) :
    afterEquals s = some (skipSpaces rest) := by
  unfold afterEquals
  dsimp only
  rw [h, if_pos (List.isPrefixOf_iff_prefix.mpr (List.prefix_append _ _))]
  rfl

theorem leftLiteral_of_plain {condition literal : Text} (h : plainLeft condition = some literal) :
    leftLiteral (skipSpaces condition) = some literal := by
  obtain ⟨afterName, hname, h⟩ := Option.bind_eq_some_iff.mp h
  obtain ⟨afterSign, hsign, h⟩ := Option.bind_eq_some_iff.mp h
  obtain ⟨token, htoken, h⟩ := Option.bind_eq_some_iff.mp h
  obtain ⟨quote, hquote, hrest, hplain⟩ := stringToken_eq_some htoken
  dsimp only at h
  split at h
  · rename_i hend
    cases h
    have hstart := afterToken_eq_some hname rfl (by decide)
    have hequals := afterEquals_eq_some (afterToken_eq_some hsign rfl (by decide))
    rw [skipSpaces_eq hrest (not_isSpace_of_isQuote hquote)] at hequals
    unfold leftLiteral
    rw [hstart, if_pos (List.isPrefixOf_iff_prefix.mpr (List.prefix_append _ _))]
    have hdrop : ("outcome".toList ++ afterName).drop 7 = afterName := rfl
    rw [hdrop, hequals]
    dsimp only
    rw [if_pos hquote]
    exact lazyLiteral_append hplain (all_isSpace_of_blanks hend)
  · cases h

theorem rightLiteral_of_plain {condition literal : Text}
    (h : plainRight condition = some literal) :
    rightLiteral (skipSpaces condition) = some literal := by
  obtain ⟨token, htoken, h⟩ := Option.bind_eq_some_iff.mp h
  obtain ⟨quote, hquote, hrest, hplain⟩ := stringToken_eq_some htoken
  dsimp only at h
  obtain ⟨afterSign, hsign, h⟩ := Option.bind_eq_some_iff.mp h
  obtain ⟨afterName, hname, h⟩ := Option.bind_eq_some_iff.mp h
  split at h
  · rename_i hend
    cases h
    have hequals := afterEquals_eq_some (afterToken_eq_some hsign rfl (by decide))
    rw [afterToken_eq_some hname rfl (by decide)] at hequals
    have hdrop : ("outcome".toList ++ afterName).drop 7 = afterName := rfl
    have hends : endsWithOutcome token.2 = true := by
      unfold endsWithOutcome
      rw [hequals]
      dsimp only
      rw [hdrop, List.isPrefixOf_iff_prefix.mpr (List.prefix_append _ _), Bool.true_and]
      exact all_isSpace_of_blanks hend
    rw [skipSpaces_eq hrest (not_isSpace_of_isQuote hquote)]
    unfold rightLiteral
    dsimp only
    rw [if_pos hquote]
    exact lazyLiteral_append hplain hends
  · cases h

/-- A quote is not the name. -/
theorem leftLiteral_quote {quote : Char} (h : isQuote quote) (s : Text) :
    leftLiteral (quote :: s) = none := by
  have hcases : quote = '\'' ∨ quote = '"' := of_decide_eq_true h
  cases hcases with
  | inl hsingle =>
      rw [hsingle]
      rfl
  | inr hdouble =>
      rw [hdouble]
      rfl

/-- The regular expression reads a plain comparison as Python does. -/
theorem parse_of_plain {condition literal : Text} (h : plainLiteral condition = some literal) :
    parseOutcomeLiteral condition = some literal := by
  unfold parseOutcomeLiteral
  dsimp only
  cases Option.or_eq_some_iff.mp h with
  | inl hleft => rw [leftLiteral_of_plain hleft, Option.some_or]
  | inr hright =>
      obtain ⟨token, htoken, -⟩ := Option.bind_eq_some_iff.mp hright.2
      obtain ⟨quote, hquote, hrest, -⟩ := stringToken_eq_some htoken
      rw [rightLiteral_of_plain hright.2, skipSpaces_eq hrest (not_isSpace_of_isQuote hquote),
        leftLiteral_quote hquote, Option.none_or]

/-! ## The gateway -/

/-- Python's evaluation of a condition with `outcome` set to a text: its truth value, or none
if it raises. -/
abbrev Evaluator := Text → Text → Option Bool

/-- What Python says of plain comparisons. -/
def ReadsPlain (eval : Evaluator) : Prop :=
  ∀ condition literal outcome, plainLiteral condition = some literal →
    eval condition outcome = some (decide (outcome = literal))

/-- A flow without a condition is not taken for one. -/
def CondTaskSpec.holds (eval : Evaluator) (entry : CondTaskSpec) (outcome : Text) : Option Bool :=
  match entry.condition with
  | none => some false
  | some condition => eval condition outcome

/-- The first flow with a true condition, of the flows from a position on. -/
def firstTrue (eval : Evaluator) (outcome : Text) : List CondTaskSpec → Nat → Option (List Flow)
  | [], _ => some []
  | entry :: entries, position =>
      match entry.holds eval outcome with
      | none => none
      | some true => some [.conditional position]
      | some false => firstTrue eval outcome entries (position + 1)

/-- The flows with true conditions, of the flows from a position on. -/
def allTrue (eval : Evaluator) (outcome : Text) : List CondTaskSpec → Nat → Option (List Flow)
  | [], _ => some []
  | entry :: entries, position =>
      match entry.holds eval outcome with
      | none => none
      | some true =>
          (allTrue eval outcome entries (position + 1)).map (.conditional position :: ·)
      | some false => allTrue eval outcome entries (position + 1)

/-- The flows that a gateway takes by their conditions. -/
def Gateway.conditionals (eval : Evaluator) (gateway : Gateway) (outcome : Text) :
    Option (List Flow) :=
  match gateway.typename with
  | .exclusive => firstTrue eval outcome gateway.condTaskSpecs 0
  | .inclusive => allTrue eval outcome gateway.condTaskSpecs 0

/-- The flows that a gateway takes, or none if it fails. -/
def Gateway.takes (eval : Evaluator) (gateway : Gateway) (outcome : Text) : Option (List Flow) :=
  match gateway.conditionals eval outcome with
  | none => none
  | some [] => (truthy gateway.defaultTaskSpec).map fun _ => [.default]
  | some (flow :: flows) => some (flow :: flows)

section Taking

variable {eval : Evaluator} {outcome : Text}

theorem firstTrue_eq_nil {entries : List CondTaskSpec} {position : Nat} :
    firstTrue eval outcome entries position = some [] ↔
      ∀ entry ∈ entries, entry.holds eval outcome = some false := by
  induction entries generalizing position with
  | nil => exact ⟨fun _ _ h => absurd h List.not_mem_nil, fun _ => rfl⟩
  | cons entry entries ih =>
      rw [List.forall_mem_cons]
      unfold firstTrue
      cases hholds : entry.holds eval outcome with
      | none => exact ⟨fun h => absurd h (by simp), fun h => absurd h.1 (by decide)⟩
      | some b =>
          cases b with
          | true => exact ⟨fun h => absurd h (by simp), fun h => absurd h.1 (by decide)⟩
          | false => exact ⟨fun h => ⟨rfl, ih.mp h⟩, fun h => ih.mpr h.2⟩

theorem allTrue_eq_nil {entries : List CondTaskSpec} {position : Nat} :
    allTrue eval outcome entries position = some [] ↔
      ∀ entry ∈ entries, entry.holds eval outcome = some false := by
  induction entries generalizing position with
  | nil => exact ⟨fun _ _ h => absurd h List.not_mem_nil, fun _ => rfl⟩
  | cons entry entries ih =>
      rw [List.forall_mem_cons]
      unfold allTrue
      cases hholds : entry.holds eval outcome with
      | none => exact ⟨fun h => absurd h (by simp), fun h => absurd h.1 (by decide)⟩
      | some b =>
          cases b with
          | true =>
              refine ⟨fun h => ?_, fun h => absurd h.1 (by decide)⟩
              obtain ⟨flows, -, hflows⟩ := Option.map_eq_some_iff.mp h
              cases hflows
          | false => exact ⟨fun h => ⟨rfl, ih.mp h⟩, fun h => ih.mpr h.2⟩

/-- Only positions from the first one on are taken. -/
theorem mem_firstTrue {entries : List CondTaskSpec} {position : Nat} {flows : List Flow}
    (h : firstTrue eval outcome entries position = some flows) :
    ∀ flow ∈ flows, ∃ taken, position ≤ taken ∧ flow = .conditional taken := by
  induction entries generalizing position with
  | nil =>
      cases h
      exact fun _ hmem => absurd hmem List.not_mem_nil
  | cons entry entries ih =>
      unfold firstTrue at h
      split at h
      · cases h
      · cases h
        intro flow hmem
        exact ⟨position, Nat.le_refl _, List.mem_singleton.mp hmem⟩
      · intro flow hmem
        obtain ⟨taken, hle, hflow⟩ := ih h flow hmem
        exact ⟨taken, Nat.le_of_succ_le hle, hflow⟩

theorem mem_allTrue {entries : List CondTaskSpec} {position : Nat} {flows : List Flow}
    (h : allTrue eval outcome entries position = some flows) :
    ∀ flow ∈ flows, ∃ taken, position ≤ taken ∧ flow = .conditional taken := by
  induction entries generalizing position flows with
  | nil =>
      cases h
      exact fun _ hmem => absurd hmem List.not_mem_nil
  | cons entry entries ih =>
      unfold allTrue at h
      split at h
      · cases h
      · obtain ⟨others, hothers, hflows⟩ := Option.map_eq_some_iff.mp h
        rw [← hflows]
        intro flow hmem
        cases List.mem_cons.mp hmem with
        | inl hhere => exact ⟨position, Nat.le_refl _, hhere⟩
        | inr hlater =>
            obtain ⟨taken, hle, hflow⟩ := ih hothers flow hlater
            exact ⟨taken, Nat.le_of_succ_le hle, hflow⟩
      · intro flow hmem
        obtain ⟨taken, hle, hflow⟩ := ih h flow hmem
        exact ⟨taken, Nat.le_of_succ_le hle, hflow⟩

/-- An exclusive gateway takes a flow if its condition is true and none before it is. -/
theorem firstTrue_eq_singleton {before after : List CondTaskSpec} {entry : CondTaskSpec} :
    ∀ {position : Nat}, firstTrue eval outcome (before ++ entry :: after) position =
        some [.conditional (position + before.length)] ↔
      (∀ other ∈ before, other.holds eval outcome = some false) ∧
        entry.holds eval outcome = some true := by
  induction before with
  | nil =>
      intro position
      refine Iff.trans ?_ (and_iff_right fun _ h => absurd h List.not_mem_nil).symm
      rw [List.nil_append]
      unfold firstTrue
      cases hholds : entry.holds eval outcome with
      | none => exact ⟨fun h => absurd h (by simp), fun h => absurd h (by decide)⟩
      | some b =>
          cases b with
          | true => exact ⟨fun _ => rfl, fun _ => rfl⟩
          | false =>
              refine ⟨fun h => ?_, fun h => absurd h (by decide)⟩
              obtain ⟨taken, hle, hflow⟩ := mem_firstTrue h _ List.mem_cons_self
              cases hflow
              exact absurd hle (Nat.not_succ_le_self _)
  | cons first before ih =>
      intro position
      rw [List.forall_mem_cons, List.cons_append]
      unfold firstTrue
      have hlength : position + (first :: before).length = position + 1 + before.length := by
        rw [List.length_cons]
        omega
      cases hholds : first.holds eval outcome with
      | none => exact ⟨fun h => absurd h (by simp), fun h => absurd h.1.1 (by decide)⟩
      | some b =>
          cases b with
          | true =>
              refine ⟨fun h => ?_, fun h => absurd h.1.1 (by decide)⟩
              rw [hlength] at h
              have hsame : position = position + 1 + before.length := by
                simpa using h
              omega
          | false =>
              rw [hlength]
              exact ⟨fun h => ⟨⟨rfl, (ih.mp h).1⟩, (ih.mp h).2⟩,
                fun h => ih.mpr ⟨h.1.2, h.2⟩⟩

/-- An inclusive gateway takes one flow alone if no other condition is true. -/
theorem allTrue_eq_singleton {before after : List CondTaskSpec} {entry : CondTaskSpec} :
    ∀ {position : Nat}, allTrue eval outcome (before ++ entry :: after) position =
        some [.conditional (position + before.length)] ↔
      (∀ other ∈ before ++ after, other.holds eval outcome = some false) ∧
        entry.holds eval outcome = some true := by
  induction before with
  | nil =>
      intro position
      rw [List.nil_append, List.nil_append]
      unfold allTrue
      cases hholds : entry.holds eval outcome with
      | none => exact ⟨fun h => absurd h (by simp), fun h => absurd h.2 (by decide)⟩
      | some b =>
          cases b with
          | true =>
              refine Iff.trans ?_ (and_iff_left rfl).symm
              have hnil : allTrue eval outcome after (position + 1) = some [] ↔ _ :=
                allTrue_eq_nil
              rw [← hnil]
              constructor
              · intro h
                obtain ⟨flows, hflows, heq⟩ := Option.map_eq_some_iff.mp h
                rw [hflows, (List.cons.inj heq).2]
              · intro h
                dsimp only
                rw [h]
                rfl
          | false =>
              refine ⟨fun h => ?_, fun h => absurd h.2 (by decide)⟩
              obtain ⟨taken, hle, hflow⟩ := mem_allTrue h _ List.mem_cons_self
              cases hflow
              exact absurd hle (Nat.not_succ_le_self _)
  | cons first before ih =>
      intro position
      rw [List.cons_append, List.cons_append, List.forall_mem_cons]
      unfold allTrue
      have hlength : position + (first :: before).length = position + 1 + before.length := by
        rw [List.length_cons]
        omega
      cases hholds : first.holds eval outcome with
      | none => exact ⟨fun h => absurd h (by simp), fun h => absurd h.1.1 (by decide)⟩
      | some b =>
          cases b with
          | true =>
              refine ⟨fun h => ?_, fun h => absurd h.1.1 (by decide)⟩
              rw [hlength] at h
              obtain ⟨flows, -, heq⟩ := Option.map_eq_some_iff.mp h
              have hsame := Flow.conditional.inj (List.cons.inj heq).1
              omega
          | false =>
              rw [hlength]
              exact ⟨fun h => ⟨⟨rfl, (ih.mp h).1⟩, (ih.mp h).2⟩,
                fun h => ih.mpr ⟨h.1.2, h.2⟩⟩

/-- The flows whose conditions a flow competes with. -/
def Gateway.rivals (gateway : Gateway) (before after : List CondTaskSpec) : List CondTaskSpec :=
  match gateway.typename with
  | .exclusive => before
  | .inclusive => before ++ after

variable {gateway : Gateway}

theorem conditionals_eq_nil : gateway.conditionals eval outcome = some [] ↔
    ∀ entry ∈ gateway.condTaskSpecs, entry.holds eval outcome = some false := by
  unfold Gateway.conditionals
  cases gateway.typename with
  | exclusive => exact firstTrue_eq_nil
  | inclusive => exact allTrue_eq_nil

theorem mem_conditionals {flows : List Flow}
    (h : gateway.conditionals eval outcome = some flows) :
    ∀ flow ∈ flows, ∃ taken, flow = .conditional taken := by
  intro flow hmem
  unfold Gateway.conditionals at h
  cases htype : gateway.typename with
  | exclusive =>
      rw [htype] at h
      obtain ⟨taken, -, hflow⟩ := mem_firstTrue h flow hmem
      exact ⟨taken, hflow⟩
  | inclusive =>
      rw [htype] at h
      obtain ⟨taken, -, hflow⟩ := mem_allTrue h flow hmem
      exact ⟨taken, hflow⟩

theorem takes_conditional {before after : List CondTaskSpec} {entry : CondTaskSpec}
    (hsplit : gateway.condTaskSpecs = before ++ entry :: after) :
    gateway.takes eval outcome = some [.conditional before.length] ↔
      (∀ other ∈ gateway.rivals before after, other.holds eval outcome = some false) ∧
        entry.holds eval outcome = some true := by
  have hconditionals : gateway.conditionals eval outcome = some [.conditional before.length] ↔
      (∀ other ∈ gateway.rivals before after, other.holds eval outcome = some false) ∧
        entry.holds eval outcome = some true := by
    unfold Gateway.conditionals Gateway.rivals
    rw [hsplit, ← Nat.zero_add before.length]
    cases gateway.typename with
    | exclusive => exact firstTrue_eq_singleton
    | inclusive => exact allTrue_eq_singleton
  rw [← hconditionals]
  unfold Gateway.takes
  cases gateway.conditionals eval outcome with
  | none => exact Iff.rfl
  | some flows =>
      cases flows with
      | nil =>
          cases truthy gateway.defaultTaskSpec with
          | none => simp
          | some taskSpec => simp
      | cons flow flows => exact Iff.rfl

theorem takes_default :
    gateway.takes eval outcome = some [.default] ↔
      (truthy gateway.defaultTaskSpec).isSome ∧
        ∀ entry ∈ gateway.condTaskSpecs, entry.holds eval outcome = some false := by
  rw [← conditionals_eq_nil]
  unfold Gateway.takes
  cases hflows : gateway.conditionals eval outcome with
  | none => simp
  | some flows =>
      cases flows with
      | nil =>
          cases truthy gateway.defaultTaskSpec with
          | none => simp
          | some taskSpec => simp
      | cons flow flows =>
          refine ⟨fun h => ?_, fun h => absurd h.2 (by simp)⟩
          obtain ⟨taken, htaken⟩ := mem_conditionals hflows flow List.mem_cons_self
          rw [htaken] at h
          cases h

end Taking

end M8flow.Workflow.Outcomes
