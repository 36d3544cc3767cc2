import M8flow.Lib.Text

/-!
# Python digits

`str.isdigit` accepts every code point of Unicode that is a decimal digit or
has a digit value; `int` reads only the decimal ones.  The tables are those of
Unicode 15.
-/

namespace M8flow.Lib.Text

/-- The code points of the zeros; the digits of a script are ten in a row. -/
def decimalZeros : List Nat :=
  [0x30, 0x660, 0x6f0, 0x7c0, 0x966, 0x9e6, 0xa66, 0xae6, 0xb66, 0xbe6, 0xc66, 0xce6, 0xd66,
    0xde6, 0xe50, 0xed0, 0xf20, 0x1040, 0x1090, 0x17e0, 0x1810, 0x1946, 0x19d0, 0x1a80, 0x1a90,
    0x1b50, 0x1bb0, 0x1c40, 0x1c50, 0xa620, 0xa8d0, 0xa900, 0xa9d0, 0xa9f0, 0xaa50, 0xabf0,
    0xff10, 0x104a0, 0x10d30, 0x11066, 0x110f0, 0x11136, 0x111d0, 0x112f0, 0x11450, 0x114d0,
    0x11650, 0x116c0, 0x11730, 0x118e0, 0x11950, 0x11c50, 0x11d50, 0x11da0, 0x11f50, 0x16a60,
    0x16ac0, 0x16b50, 0x1d7ce, 0x1d7d8, 0x1d7e2, 0x1d7ec, 0x1d7f6, 0x1e140, 0x1e2f0, 0x1e4f0,
    0x1e950, 0x1fbf0]

/-- The code points that have a digit value and are not decimal: superscripts,
circled digits and the like. -/
def otherDigits : List (Nat × Nat) :=
  [(0xb2, 0xb3), (0xb9, 0xb9), (0x1369, 0x1371), (0x19da, 0x19da), (0x2070, 0x2070),
    (0x2074, 0x2079), (0x2080, 0x2089), (0x2460, 0x2468), (0x2474, 0x247c), (0x2488, 0x2490),
    (0x24ea, 0x24ea), (0x24f5, 0x24fd), (0x24ff, 0x24ff), (0x2776, 0x277e), (0x2780, 0x2788),
    (0x278a, 0x2792), (0x10a40, 0x10a43), (0x10e60, 0x10e68), (0x11052, 0x1105a),
    (0x1f100, 0x1f10a)]

/-- The value of a decimal digit. -/
def decimalValue (c : Char) : Option Nat :=
  (decimalZeros.find? fun first => first ≤ c.toNat ∧ c.toNat < first + 10).map fun first =>
    c.toNat - first

/-- `str.isdecimal` of one character, which is `\d` of a pattern. -/
def isDecimal (c : Char) : Bool := (decimalValue c).isSome

/-- `str.isdigit` of one character. -/
def isDigitChar (c : Char) : Bool :=
  isDecimal c || otherDigits.any fun range => range.1 ≤ c.toNat && c.toNat ≤ range.2

/-- `s.isdigit()`. -/
def isdigit (s : Text) : Bool := s ≠ [] && s.all isDigitChar

/-- The number of digits that `int` refuses to go beyond. -/
def intMaxStrDigits : Nat := 4300

/-- The decimal digits of a text, read from the left. -/
def digitsValue : Text → Nat → Option Nat
  | [], value => some value
  | c :: rest, value => (decimalValue c).bind fun digit => digitsValue rest (10 * value + digit)

/-- `int(s)` where `s.isdigit()`: nothing stands for the `ValueError`. -/
def intOfDigits (s : Text) : Option Nat :=
  if s.length ≤ intMaxStrDigits then digitsValue s 0 else none

/-- `f"{n}"`. -/
def ofNat (n : Nat) : Text := Nat.toDigits 10 n

example : intOfDigits "027".toList = some 27 := by decide

/-- A superscript two counts as a digit and is no integer. -/
example : isdigit "²".toList ∧ intOfDigits "²".toList = none := by decide

/-! ## Decimal digits -/

/-- The digits of ASCII come first in the table. -/
theorem decimalValue_of_isDigit {c : Char} (h : c.isDigit = true) :
    decimalValue c = some (c.toNat - 48) := by
  rw [Char.isDigit_iff_toNat] at h
  have hrange : 48 ≤ c.toNat ∧ c.toNat < 48 + 10 := ⟨h.1, Nat.lt_succ_of_le h.2⟩
  have hfirst : decimalZeros = 48 :: decimalZeros.tail := rfl
  unfold decimalValue
  rw [hfirst, List.find?_cons, decide_eq_true hrange]
  rfl

theorem digitsValue_eq {digits : Text} (h : ∀ c ∈ digits, c.isDigit = true) (value : Nat) :
    digitsValue digits value = some (Nat.ofDigitChars 10 digits value) := by
  induction digits generalizing value with
  | nil => rw [digitsValue, Nat.ofDigitChars_nil]
  | cons c digits ih =>
      rw [digitsValue, decimalValue_of_isDigit (h c List.mem_cons_self), Option.bind_some,
        ih fun d hd => h d (List.mem_cons_of_mem _ hd), Nat.ofDigitChars_cons]
      rfl

theorem isDigit_of_mem_ofNat {n : Nat} {c : Char} (h : c ∈ ofNat n) : c.isDigit = true :=
  Nat.isDigit_of_mem_toDigits (by decide) (by decide) h

theorem ofNat_ne_nil (n : Nat) : ofNat n ≠ [] := Nat.toDigits_ne_nil

/-- An integer is read back from its digits, unless they are too many. -/
theorem intOfDigits_ofNat {n : Nat} (h : (ofNat n).length ≤ intMaxStrDigits) :
    intOfDigits (ofNat n) = some n := by
  unfold intOfDigits
  rw [if_pos h, digitsValue_eq fun c hc => isDigit_of_mem_ofNat hc]
  exact congrArg some Nat.ofDigitChars_ten_toDigits

theorem isdigit_ofNat (n : Nat) : isdigit (ofNat n) = true := by
  unfold isdigit
  rw [decide_eq_true (ofNat_ne_nil n), Bool.true_and, List.all_eq_true]
  intro c hc
  unfold isDigitChar isDecimal
  rw [decimalValue_of_isDigit (isDigit_of_mem_ofNat hc)]
  rfl

/-- A smaller integer has no more digits. -/
theorem length_ofNat_mono {m n : Nat} (h : m ≤ n) : (ofNat m).length ≤ (ofNat n).length := by
  have hpos : 0 < (ofNat n).length := List.length_pos_iff.mpr (ofNat_ne_nil n)
  have hn := (Nat.length_toDigits_le_iff (by decide) hpos).mp (Nat.le_refl (ofNat n).length)
  exact (Nat.length_toDigits_le_iff (by decide) hpos).mpr (Nat.lt_of_le_of_lt h hn)

end M8flow.Lib.Text
