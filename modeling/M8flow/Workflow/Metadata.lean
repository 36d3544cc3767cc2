import M8flow.Lib.PyLiteral

/-!
# Metadata values

`_stringify_metadata_value` of `workflow/__init__.py` writes a submitted value into a row of
`process_instance_metadata`, for `complete` as for `start`.  Core reads the row back with
`ast.literal_eval`, and takes the text as it stands where that fails.

- `stringifyMetadataValue` is the writer, `readMetadataValue` the reader.
- `Literal` values are those that the writer writes as literals: at the top, `null`, `true` and
  `false` are written as JSON, and so is a float that is not finite.
- `survives_iff`: a value whose text fits is read back if and only if it is one of these.

The limits of the interpreter, on nested brackets and on the digits of an integer, are out of
reach of a text of 255 characters.
-/

namespace M8flow.Workflow.Metadata

open M8flow.Lib M8flow.Lib.PyLiteral

variable {φ ω : Type}

/-- `_METADATA_VALUE_MAX_LENGTH`: the width of the column in core. -/
def metadataValueMaxLength : Nat := 255

section Store

variable (format : FloatFormat φ) (isPrintable : Char → Bool)

/-- The text of a value before it is cut. -/
def metadataText : Value φ → Text
  | .str s => s
  | .list items => repr format isPrintable (.list items)
  | .dict entries => repr format isPrintable (.dict entries)
  -- `json.dumps` of what is left
  | .null => "null".toList
  | .bool true => "true".toList
  | .bool false => "false".toList
  | .int n => intText n
  | .float x => format.json x

/-- `_stringify_metadata_value`. -/
def stringifyMetadataValue (value : Value φ) : Text :=
  (metadataText format isPrintable value).take metadataValueMaxLength

/-- What core makes of a row. -/
def readMetadataValue (beyond : Text → Option ω) (s : Text) : Literal φ ω :=
  (literalEval format beyond s).getD (.value (.str s))

/-- A value that the writer writes as a literal. -/
structure WrittenAsLiteral (value : Value φ) : Prop where
  not_null : value ≠ .null
  not_bool : ∀ b, value ≠ .bool b
  finite : value.Every (Value.Finite format)

/-- Core reads the value that was submitted. -/
def Survives (beyond : Text → Option ω) (value : Value φ) : Prop :=
  readMetadataValue format beyond (stringifyMetadataValue format isPrintable value) = .value value

end Store

section Words

variable (format : FloatFormat φ) (beyond : Text → Option ω)

/-- The words of JSON are names to Python. -/
theorem literalEval_null : literalEval format beyond "null".toList = none :=
  literalEval_name format beyond (by decide) (by decide) (by decide) (by decide)

theorem literalEval_true : literalEval format beyond "true".toList = none :=
  literalEval_name format beyond (by decide) (by decide) (by decide) (by decide)

theorem literalEval_false : literalEval format beyond "false".toList = none :=
  literalEval_name format beyond (by decide) (by decide) (by decide) (by decide)

end Words

section Reading

variable (format : FloatFormat φ) (isPrintable : Char → Bool) (beyond : Text → Option ω)
  {value : Value φ}

/-- A text that fits is not cut. -/
theorem stringify_of_fits
    (h : (metadataText format isPrintable value).length ≤ metadataValueMaxLength) :
    stringifyMetadataValue format isPrintable value = metadataText format isPrintable value :=
  List.take_of_length_le h

/-- Numbers, lists and dictionaries are written as `repr` writes them. -/
theorem metadataText_eq_repr (h : WrittenAsLiteral format value) (hstr : ∀ s, value ≠ .str s) :
    metadataText format isPrintable value = repr format isPrintable value := by
  cases value with
  | null => exact absurd rfl h.not_null
  | bool b => exact absurd rfl (h.not_bool b)
  | int n => rfl
  | float x => exact format.json_of_finite x h.finite
  | str s => exact absurd rfl (hstr s)
  | list items => rfl
  | dict entries => rfl

theorem read_of_written (hkeys : value.Every Value.DistinctKeys)
    (hstr : ∀ s, value = .str s → literalEval format beyond s = none)
    (h : WrittenAsLiteral format value) :
    readMetadataValue format beyond (metadataText format isPrintable value) = .value value := by
  by_cases htext : ∃ s, value = .str s
  · obtain ⟨s, hs⟩ := htext
    rw [hs]
    show (literalEval format beyond s).getD (.value (.str s)) = _
    rw [hstr s hs, Option.getD_none]
  · have hrepr := metadataText_eq_repr format isPrintable h fun s hs => htext ⟨s, hs⟩
    rw [readMetadataValue, hrepr, literalEval_repr format isPrintable beyond hkeys h.finite,
      Option.getD_some]

theorem written_of_read
    (h : readMetadataValue format beyond (metadataText format isPrintable value) = .value value) :
    WrittenAsLiteral format value := by
  have hword : ∀ s, literalEval format beyond s = none →
      readMetadataValue format beyond s = .value (.str s) := by
    intro s hs
    rw [readMetadataValue, hs, Option.getD_none]
  refine ⟨?_, ?_, ?_⟩
  · intro hnull
    rw [hnull, metadataText, hword _ (literalEval_null format beyond)] at h
    cases h
  · intro b hbool
    cases b with
    | true =>
        rw [hbool, metadataText, hword _ (literalEval_true format beyond)] at h
        cases h
    | false =>
        rw [hbool, metadataText, hword _ (literalEval_false format beyond)] at h
        cases h
  · unfold readMetadataValue at h
    cases heval : literalEval format beyond (metadataText format isPrintable value) with
    | none =>
        rw [heval, Option.getD_none] at h
        rw [← Literal.value.inj h]
        exact trivial
    | some literal =>
        rw [heval, Option.getD_some] at h
        rw [h] at heval
        exact literalEval_finite format beyond heval

end Reading

/-- A value whose text fits the column is read back if and only if it is written as a literal;
a text is submitted that is none. -/
theorem survives_iff (format : FloatFormat φ) (isPrintable : Char → Bool)
    (beyond : Text → Option ω) {value : Value φ} (hkeys : value.Every Value.DistinctKeys)
    (hstr : ∀ s, value = .str s → literalEval format beyond s = none)
    (hfits : (metadataText format isPrintable value).length ≤ metadataValueMaxLength) :
    Survives format isPrintable beyond value ↔ WrittenAsLiteral format value := by
  unfold Survives
  rw [stringify_of_fits format isPrintable hfits]
  exact ⟨written_of_read format isPrintable beyond,
    read_of_written format isPrintable beyond hkeys hstr⟩

section Halves

/-- The floats 1.5 and -1.5. -/
def halves : FloatFormat Bool where
  repr positive := if positive then "1.5".toList else "-1.5".toList
  json positive := if positive then "1.5".toList else "-1.5".toList
  isFinite _ := true
  ofLiteral literal := if literal = "1.5".toList then some true else none
  neg positive := !positive
  json_of_finite _ _ := rfl
  literal_chars literal x h := by
    by_cases hliteral : literal = "1.5".toList
    · rw [hliteral]
      decide
    · rw [if_neg hliteral] at h
      cases h
  literal_finite _ _ _ := rfl
  neg_finite _ := rfl
  reads_repr x _ := by
    cases x with
    | true => exact Or.inl rfl
    | false => exact Or.inr ⟨"1.5".toList, true, rfl, rfl, rfl⟩

/-- A form with nested answers, as it is read by the next task. -/
def answers : Value Bool :=
  .dict [("it's".toList, .list [.bool true, .null, .float false, .int (-7)]),
    ("note\n".toList, .str "say \"no\"".toList)]

theorem survives_answers :
    Survives halves (fun _ => false) (fun _ => (none : Option Unit)) answers ↔
      WrittenAsLiteral halves answers :=
  survives_iff halves (fun _ => false) (fun _ => none)
    (by simp [answers, Value.Every, Value.EveryItem, Value.EveryEntry, Value.DistinctKeys])
    (fun s hs => by cases hs) (by decide)

/-- `true` comes back as a text. -/
theorem true_becomes_text :
    ¬ ∀ value : Value Bool, value.Every Value.DistinctKeys →
      (∀ s, value = .str s → literalEval halves (fun _ => (none : Option Unit)) s = none) →
      (metadataText halves (fun _ => false) value).length ≤ metadataValueMaxLength →
      Survives halves (fun _ => false) (fun _ => (none : Option Unit)) value := by
  intro h
  have hsurvives := h (.bool true) trivial (fun s hs => by cases hs) (by decide)
  have hread : readMetadataValue halves (fun _ => (none : Option Unit)) "true".toList =
      .value (.str "true".toList) := by
    rw [readMetadataValue, literalEval_true, Option.getD_none]
  have hstored : stringifyMetadataValue halves (fun _ => false) (.bool true) = "true".toList := rfl
  unfold Survives at hsurvives
  rw [hstored, hread] at hsurvives
  cases hsurvives

end Halves

end M8flow.Workflow.Metadata
