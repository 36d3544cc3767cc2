import M8flow.Lib.Text

/-!
# Percent encoding

`urllib.parse.quote` of a text: its UTF-8 bytes, each as it is if it is safe, and else as
`%` with two hexadecimal digits.

- `unquoteBytes_quote` reads the bytes back, so that `quote_inj` holds;
- `mem_quote` says which characters the result has.
-/

namespace M8flow.Lib.Percent

/-- `_ALWAYS_SAFE`, and the characters of the argument. -/
def IsSafe (safe : List Char) (c : Char) : Bool :=
  c.isAlphanum || ['_', '.', '-', '~'].contains c || safe.contains c

/-- An upper case hexadecimal digit. -/
def hexDigit (n : Nat) : Char := Char.ofNat (if n < 10 then 48 + n else 55 + n)

/-- The value of an upper case hexadecimal digit. -/
def hexValue (c : Char) : Nat := if c.toNat < 65 then c.toNat - 48 else c.toNat - 55

def quoteByte (safe : List Char) (b : UInt8) : Text :=
  if b.toNat < 128 ∧ IsSafe safe (Char.ofNat b.toNat) then [Char.ofNat b.toNat]
  else ['%', hexDigit (b.toNat / 16), hexDigit (b.toNat % 16)]

/-- The UTF-8 bytes of a text. -/
def utf8 (s : Text) : List UInt8 := (String.ofList s).toByteArray.data.toList

/-- `quote(s, safe=safe)`. -/
def quote (safe : List Char) (s : Text) : Text := (utf8 s).flatMap (quoteByte safe)

/-- The bytes that a quoted text stands for. -/
def unquoteBytes : Text → List Nat
  | '%' :: high :: low :: rest => (16 * hexValue high + hexValue low) :: unquoteBytes rest
  | c :: rest => c.toNat :: unquoteBytes rest
  | [] => []

theorem utf8_inj {s t : Text} (h : utf8 s = utf8 t) : s = t := by
  have harray : (String.ofList s).toByteArray = (String.ofList t).toByteArray :=
    ByteArray.ext (Array.toList_inj.mp h)
  exact String.ofList_injective (String.toByteArray_inj.mp harray)

theorem hexValue_hexDigit : ∀ n < 16, hexValue (hexDigit n) = n := by decide

theorem toNat_ofNat : ∀ n < 128, (Char.ofNat n).toNat = n := by decide

/-- A character other than the percent sign stands for itself. -/
theorem unquoteBytes_cons {c : Char} (hc : c ≠ '%') (rest : Text) :
    unquoteBytes (c :: rest) = c.toNat :: unquoteBytes rest := by
  rw [unquoteBytes]
  intro high low tail heq
  exact absurd heq hc

theorem unquoteBytes_quoteByte {safe : List Char} (hsafe : '%' ∉ safe) (b : UInt8)
    (rest : Text) :
    unquoteBytes (quoteByte safe b ++ rest) = b.toNat :: unquoteBytes rest := by
  have hb := b.toNat_lt
  unfold quoteByte
  split
  · rename_i h
    have hne : Char.ofNat b.toNat ≠ '%' := by
      intro heq
      have hpercent := h.2
      rw [heq] at hpercent
      simp [IsSafe, hsafe] at hpercent
    show unquoteBytes (Char.ofNat b.toNat :: rest) = _
    rw [unquoteBytes_cons hne, toNat_ofNat _ h.1]
  · have hhigh : b.toNat / 16 < 16 := by omega
    have hlow : b.toNat % 16 < 16 := by omega
    show (16 * hexValue (hexDigit (b.toNat / 16)) + hexValue (hexDigit (b.toNat % 16))) ::
      unquoteBytes rest = _
    rw [hexValue_hexDigit _ hhigh, hexValue_hexDigit _ hlow, Nat.div_add_mod]

/-- The bytes are read back. -/
theorem unquoteBytes_quote {safe : List Char} (hsafe : '%' ∉ safe) (s : Text) :
    unquoteBytes (quote safe s) = (utf8 s).map UInt8.toNat := by
  unfold quote
  induction utf8 s with
  | nil => rfl
  | cons b bytes ih =>
      rw [List.flatMap_cons, unquoteBytes_quoteByte hsafe, ih, List.map_cons]

theorem quote_inj {safe : List Char} (hsafe : '%' ∉ safe) {s t : Text}
    (h : quote safe s = quote safe t) : s = t := by
  have hbytes : (utf8 s).map UInt8.toNat = (utf8 t).map UInt8.toNat := by
    rw [← unquoteBytes_quote hsafe, h, unquoteBytes_quote hsafe]
  exact utf8_inj (List.map_injective_iff.mpr (fun _ _ => UInt8.toNat_inj.mp) hbytes)

theorem isAlphanum_hexDigit : ∀ n < 16, (hexDigit n).isAlphanum = true := by decide

/-- A quoted text has safe characters and percent signs only. -/
theorem mem_quote {safe : List Char} {s : Text} {c : Char} (h : c ∈ quote safe s) :
    c = '%' ∨ IsSafe safe c := by
  obtain ⟨b, _, hc⟩ := List.mem_flatMap.mp h
  have hb := b.toNat_lt
  have hdigit : ∀ n < 16, IsSafe safe (hexDigit n) := by
    intro n hn
    unfold IsSafe
    rw [isAlphanum_hexDigit n hn, Bool.true_or, Bool.true_or]
  unfold quoteByte at hc
  split at hc
  · rename_i hsafe
    rw [List.mem_singleton.mp hc]
    exact .inr hsafe.2
  · simp only [List.mem_cons, List.not_mem_nil, or_false] at hc
    obtain rfl | rfl | rfl := hc
    · exact .inl rfl
    · exact .inr (hdigit _ (by omega))
    · exact .inr (hdigit _ (by omega))

/-- Only the empty text is quoted as nothing. -/
theorem quote_ne_nil {safe : List Char} (hsafe : '%' ∉ safe) {s : Text} (hs : s ≠ []) :
    quote safe s ≠ [] := by
  intro hnil
  have hempty : quote safe s = quote safe [] := by rw [hnil]; rfl
  exact hs (quote_inj hsafe hempty)

theorem toNat_lt_of_isAlphanum {c : Char} (h : c.isAlphanum = true) : c.toNat < 128 := by
  delta Char.isAlphanum Char.isAlpha Char.isUpper Char.isLower Char.isDigit at h
  simp only [Bool.or_eq_true, Bool.and_eq_true, decide_eq_true_eq, ge_iff_le,
    UInt32.le_iff_toNat_le] at h
  have hval : c.toNat = c.val.toNat := rfl
  have hupper : 'Z'.val.toNat = 90 := rfl
  have hlower : 'z'.val.toNat = 122 := rfl
  have hdigits : '9'.val.toNat = 57 := rfl
  omega

theorem not_isSpace_of_isAlphanum {c : Char} (h : c.isAlphanum = true) :
    Text.isSpace c = false := by
  have hrange : (48 ≤ c.toNat ∧ c.toNat ≤ 57) ∨ (65 ≤ c.toNat ∧ c.toNat ≤ 90) ∨
      (97 ≤ c.toNat ∧ c.toNat ≤ 122) := by
    delta Char.isAlphanum Char.isAlpha Char.isUpper Char.isLower Char.isDigit at h
    simp only [Bool.or_eq_true, Bool.and_eq_true, decide_eq_true_eq, ge_iff_le,
      UInt32.le_iff_toNat_le] at h
    have hval : c.toNat = c.val.toNat := rfl
    have hupper : 'A'.val.toNat = 65 ∧ 'Z'.val.toNat = 90 := ⟨rfl, rfl⟩
    have hlower : 'a'.val.toNat = 97 ∧ 'z'.val.toNat = 122 := ⟨rfl, rfl⟩
    have hdigits : '0'.val.toNat = 48 ∧ '9'.val.toNat = 57 := ⟨rfl, rfl⟩
    omega
  unfold Text.isSpace
  simp only [Bool.or_eq_false_iff, Bool.and_eq_false_iff, decide_eq_false_iff_not,
    beq_eq_false_iff_ne]
  omega

/-- A quoted text has no white space, if no safe character is one. -/
theorem not_isSpace_of_mem_quote {safe : List Char}
    (hsafe : ∀ c ∈ safe, Text.isSpace c = false) {s : Text} {c : Char} (h : c ∈ quote safe s) :
    Text.isSpace c = false := by
  rcases mem_quote h with rfl | hc
  · decide
  · unfold IsSafe at hc
    simp only [Bool.or_eq_true, List.contains_iff_mem] at hc
    rcases hc with (halnum | hmark) | hc
    · exact not_isSpace_of_isAlphanum halnum
    · simp only [List.mem_cons, List.not_mem_nil, or_false] at hmark
      obtain rfl | rfl | rfl | rfl := hmark <;> decide
    · exact hsafe c hc

end M8flow.Lib.Percent
