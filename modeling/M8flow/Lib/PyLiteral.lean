import M8flow.Lib.Dict
import M8flow.Lib.JsonText
import Mathlib.Algebra.Ring.Nat

/-!
# Python literals

`repr` of the values that JSON has, and `ast.literal_eval` of the texts that `repr` writes for
them.  Floats are a type with the laws that Python gives them, and so are the tables of
Unicode that say which characters are printable.

- `escape` and `scanString` are strings, `repr` and `readValue` values.
- `readValue_repr`: what `repr` wrote is read as the value that it wrote.
- `literalEval` reads displays, and fails on other names; what it makes of any other text is a
  parameter.
-/

namespace M8flow.Lib.PyLiteral

open JsonText

/-! ## Values -/

/-- The characters of numbers. -/
def isNumberChar (c : Char) : Bool := c.isDigit || c ∈ ['.', 'e', '+', '-']

/-- The floats: what `repr` writes for a finite one is read back. -/
structure FloatFormat (φ : Type) where
  repr : φ → Text
  /-- What `json.dumps` writes, which is `repr` where the float is finite. -/
  json : φ → Text
  isFinite : φ → Bool
  /-- The value of a literal without a sign, if the text is one that `repr` writes. -/
  ofLiteral : Text → Option φ
  neg : φ → φ
  json_of_finite : ∀ x, isFinite x = true → json x = repr x
  literal_chars : ∀ literal x, ofLiteral literal = some x →
    literal.all isNumberChar = true ∧ literal.all Char.isDigit = false ∧
      literal.head?.any Char.isDigit = true
  literal_finite : ∀ literal x, ofLiteral literal = some x → isFinite x = true
  neg_finite : ∀ x, isFinite (neg x) = isFinite x
  reads_repr : ∀ x, isFinite x = true → ofLiteral (repr x) = some x ∨
    ∃ literal y, repr x = '-' :: literal ∧ ofLiteral literal = some y ∧ neg y = x

/-- A value. -/
inductive Value (φ : Type) where
  | null
  | bool (b : Bool)
  | int (n : Int)
  | float (x : φ)
  | str (s : Text)
  | list (items : List (Value φ))
  | dict (entries : List (Text × Value φ))

variable {φ : Type}

namespace Value

/-- Induction on a value: a list or a dictionary comes after what is in it. -/
theorem induct {P : Value φ → Prop} (null : P .null) (bool : ∀ b, P (.bool b))
    (int : ∀ n, P (.int n)) (float : ∀ x, P (.float x)) (str : ∀ s, P (.str s))
    (list : ∀ items, (∀ item ∈ items, P item) → P (.list items))
    (dict : ∀ entries, (∀ entry ∈ entries, P entry.2) → P (.dict entries)) (value : Value φ) :
    P value :=
  @Value.rec φ P (fun items => ∀ item ∈ items, P item) (fun entries => ∀ entry ∈ entries, P entry.2)
    (fun entry => P entry.2) null bool int float str list dict
    (fun _ hmem => absurd hmem List.not_mem_nil)
    (fun _ _ hfirst hrest => List.forall_mem_cons.mpr ⟨hfirst, hrest⟩)
    (fun _ hmem => absurd hmem List.not_mem_nil)
    (fun _ _ hfirst hrest => List.forall_mem_cons.mpr ⟨hfirst, hrest⟩)
    (fun _ _ hvalue => hvalue) value

mutual

/-- The value and all that is in it have a property. -/
def Every (p : Value φ → Prop) : Value φ → Prop
  | list items => p (list items) ∧ EveryItem p items
  | dict entries => p (dict entries) ∧ EveryEntry p entries
  | value => p value

def EveryItem (p : Value φ → Prop) : List (Value φ) → Prop
  | [] => True
  | value :: rest => Every p value ∧ EveryItem p rest

def EveryEntry (p : Value φ → Prop) : List (Text × Value φ) → Prop
  | [] => True
  | (_, value) :: rest => Every p value ∧ EveryEntry p rest

end

/-- A dictionary has an entry for each of its keys. -/
def DistinctKeys : Value φ → Prop
  | dict entries => (entries.map Prod.fst).Nodup
  | _ => True

/-- A float is finite. -/
def Finite (format : FloatFormat φ) : Value φ → Prop
  | float x => format.isFinite x = true
  | _ => True

theorem everyEntry_iff {p : Value φ → Prop} {entries : List (Text × Value φ)} :
    EveryEntry p entries ↔ ∀ entry ∈ entries, Every p entry.2 := by
  induction entries with
  | nil => simp [EveryEntry]
  | cons entry entries ih =>
      obtain ⟨key, value⟩ := entry
      rw [EveryEntry, ih, List.forall_mem_cons]

end Value

/-! ## Writing -/

/-- The last hexadecimal digits of a number. -/
def hexText : (digits : Nat) → Nat → Text
  | 0, _ => []
  | digits + 1, n => hexText digits (n / 16) ++ [hexDigit (n % 16)]

section Writing

variable (format : FloatFormat φ) (isPrintable : Char → Bool)

/-- A character of a string in quotes; `isPrintable` is asked of what is not ASCII. -/
def escape (quote c : Char) : Text :=
  if c = quote ∨ c = '\\' then ['\\', c]
  else if c = '\t' then ['\\', 't']
  else if c = '\n' then ['\\', 'n']
  else if c = '\r' then ['\\', 'r']
  else if c.toNat < 32 ∨ c.toNat = 127 then '\\' :: 'x' :: hexText 2 c.toNat
  else if c.toNat < 127 ∨ isPrintable c then [c]
  else if c.toNat < 0x100 then '\\' :: 'x' :: hexText 2 c.toNat
  else if c.toNat < 0x10000 then '\\' :: 'u' :: hexText 4 c.toNat
  else '\\' :: 'U' :: hexText 8 c.toNat

/-- The quote that `repr` takes. -/
def quoteOf (s : Text) : Char := if '\'' ∈ s ∧ '"' ∉ s then '"' else '\''

def reprStr (s : Text) : Text :=
  quoteOf s :: (s.flatMap (escape isPrintable (quoteOf s)) ++ [quoteOf s])

/-- `str(n)`. -/
def intText : Int → Text
  | .ofNat n => Nat.toDigits 10 n
  | .negSucc n => '-' :: Nat.toDigits 10 (n + 1)

mutual

/-- `repr(value)`. -/
def repr : Value φ → Text
  | .null => "None".toList
  | .bool true => "True".toList
  | .bool false => "False".toList
  | .int n => intText n
  | .float x => format.repr x
  | .str s => reprStr isPrintable s
  | .list [] => "[]".toList
  | .list (value :: rest) => '[' :: (repr value ++ reprItems rest ++ [']'])
  | .dict [] => ['\x7b', '\x7d']
  | .dict ((key, value) :: rest) =>
      '\x7b' :: (reprStr isPrintable key ++ ": ".toList ++ repr value ++ reprEntries rest ++
        ['\x7d'])

/-- The items after the first one. -/
def reprItems : List (Value φ) → Text
  | [] => []
  | value :: rest => ", ".toList ++ repr value ++ reprItems rest

def reprEntries : List (Text × Value φ) → Text
  | [] => []
  | (key, value) :: rest =>
      ", ".toList ++ reprStr isPrintable key ++ ": ".toList ++ repr value ++ reprEntries rest

end

end Writing

/-! ## Reading -/

/-- The value of hexadecimal digits. -/
def hexTextValue : Text → Nat → Option Nat
  | [], value => some value
  | c :: rest, value => (hexDigitValue c).bind fun digit => hexTextValue rest (16 * value + digit)

/-- The character of some hexadecimal digits. -/
def readHex (digits : Nat) (s : Text) : Option (Char × Text) :=
  if s.length < digits then none
  else
    (hexTextValue (s.take digits) 0).bind fun n =>
      if n.isValidChar then some (Char.ofNat n, s.drop digits) else none

/-- What stands behind a backslash, of the escapes that `repr` writes. -/
def scanEscape : Text → Option (Char × Text)
  | [] => none
  | c :: rest =>
      if c = 'x' then readHex 2 rest
      else if c = 'u' then readHex 4 rest
      else if c = 'U' then readHex 8 rest
      else
        ([('\\', '\\'), ('\'', '\''), ('"', '"'), ('t', '\t'), ('n', '\n'), ('r', '\r')].lookup
          c).map fun escaped => (escaped, rest)

/-- A string up to its closing quote; a line cannot end in it. -/
def scanString (quote : Char) : (fuel : Nat) → Text → Option (Text × Text)
  | 0, _ => none
  | _ + 1, [] => none
  | fuel + 1, c :: rest =>
      if c = quote then some ([], rest)
      else if c = '\\' then
        (scanEscape rest).bind fun p =>
          (scanString quote fuel p.2).map fun tail => (p.1 :: tail.1, tail.2)
      else if c ∈ ['\n', '\r', '\x00'] then none
      else (scanString quote fuel rest).map fun tail => (c :: tail.1, tail.2)

/-- A string with its quotes. -/
def readString : Text → Option (Text × Text)
  | [] => none
  | c :: rest => if c = '\'' ∨ c = '"' then scanString c (rest.length + 1) rest else none

section Reading

variable (format : FloatFormat φ)

/-- A number without a sign: an integer as `str` writes it, or a float. -/
def unsigned (literal : Text) : Option (Value φ) :=
  let n := Nat.ofDigitChars 10 literal 0
  if literal.all Char.isDigit then
    if Nat.toDigits 10 n = literal then some (.int (.ofNat n)) else none
  else (format.ofLiteral literal).map .float

def negate : Value φ → Value φ
  | .int n => .int (-n)
  | .float x => .float (format.neg x)
  | value => value

def readNumber (literal : Text) : Option (Value φ) :=
  match expect '-' literal with
  | some literal => (unsigned format literal).map (negate format)
  | none => unsigned format literal

/-- The names that are literals. -/
def words : List (String × Value φ) :=
  [("None", .null), ("True", .bool true), ("False", .bool false)]

/-- A word or a number. -/
def readAtom (s : Text) : Option (Value φ × Text) :=
  match words.find? fun word => word.1.toList.isPrefixOf s with
  | some word => some (word.2, s.drop word.1.toList.length)
  | none =>
      (readNumber format (s.takeWhile isNumberChar)).map fun value =>
        (value, s.dropWhile isNumberChar)

/-- `, ` or `: `. -/
def expectPair (c : Char) (s : Text) : Option Text := (expect c s).bind (expect ' ')

mutual

/-- Read a value. -/
def readValue : (fuel : Nat) → Text → Option (Value φ × Text)
  | 0, _ => none
  | _ + 1, [] => none
  | fuel + 1, c :: rest =>
      if c = '[' then
        match expect ']' rest with
        | some rest => some (.list [], rest)
        | none =>
            (readValue fuel rest).bind fun value =>
              (readItems fuel value.2).map fun items => (.list (value.1 :: items.1), items.2)
      else if c = '\x7b' then
        match expect '\x7d' rest with
        | some rest => some (.dict [], rest)
        | none =>
            (readString rest).bind fun key =>
              (expectPair ':' key.2).bind fun rest =>
                (readValue fuel rest).bind fun value =>
                  (readEntries fuel value.2).map fun entries =>
                    (.dict (Dict.ofEntries ((key.1, value.1) :: entries.1)).entries, entries.2)
      else if c = '\'' ∨ c = '"' then (readString (c :: rest)).map fun p => (.str p.1, p.2)
      else readAtom format (c :: rest)

/-- The items of a list after the first one, up to the closing bracket. -/
def readItems : (fuel : Nat) → Text → Option (List (Value φ) × Text)
  | 0, _ => none
  | fuel + 1, s =>
      match expect ']' s with
      | some rest => some ([], rest)
      | none =>
          (expectPair ',' s).bind fun rest =>
            (readValue fuel rest).bind fun value =>
              (readItems fuel value.2).map fun items => (value.1 :: items.1, items.2)

/-- The entries of a dictionary after the first one, up to the closing brace. -/
def readEntries : (fuel : Nat) → Text → Option (List (Text × Value φ) × Text)
  | 0, _ => none
  | fuel + 1, s =>
      match expect '\x7d' s with
      | some rest => some ([], rest)
      | none =>
          (expectPair ',' s).bind fun rest =>
            (readString rest).bind fun key =>
              (expectPair ':' key.2).bind fun rest =>
                (readValue fuel rest).bind fun value =>
                  (readEntries fuel value.2).map fun entries =>
                    ((key.1, value.1) :: entries.1, entries.2)

end

/-- A name of ASCII characters. -/
def isName (s : Text) : Bool :=
  s.head?.any (fun c => c.isAlpha || c = '_') && s.all fun c => c.isAlphanum || c = '_'

/-- What a literal is: a value, or another object. -/
inductive Literal (φ ω : Type) where
  | value (value : Value φ)
  | other (object : ω)

/-- `ast.literal_eval`, which raises on a name; `beyond` is what it makes of texts that are
neither a name nor written as `repr` writes values. -/
def literalEval {ω : Type} (beyond : Text → Option ω) (s : Text) : Option (Literal φ ω) :=
  match readValue format (s.length + 1) s with
  | some (value, []) => some (.value value)
  | _ => if isName s then none else (beyond s).map .other

end Reading

/-! ## Strings are read back -/

section Strings

theorem length_hexText (digits n : Nat) : (hexText digits n).length = digits := by
  induction digits generalizing n with
  | zero => rfl
  | succ digits ih => rw [hexText, List.length_append, ih, List.length_singleton]

theorem hexTextValue_append (s t : Text) (value : Nat) :
    hexTextValue (s ++ t) value = (hexTextValue s value).bind (hexTextValue t) := by
  induction s generalizing value with
  | nil => rfl
  | cons c s ih =>
      rw [List.cons_append, hexTextValue, hexTextValue]
      cases hexDigitValue c with
      | none => rfl
      | some digit => exact ih _

theorem hexTextValue_hexText {digits n : Nat} (h : n < 16 ^ digits) :
    hexTextValue (hexText digits n) 0 = some n := by
  induction digits generalizing n with
  | zero =>
      rw [Nat.pow_zero, Nat.lt_one_iff] at h
      rw [h]
      rfl
  | succ digits ih =>
      have hhigh : n / 16 < 16 ^ digits := by
        rw [Nat.pow_succ] at h
        omega
      have hlow : n % 16 < 16 := Nat.mod_lt n (by decide)
      rw [hexText, hexTextValue_append, ih hhigh, Option.bind_some, hexTextValue,
        hexDigitValue_hexDigit hlow, Option.bind_some, hexTextValue, Nat.div_add_mod]

theorem readHex_hexText {digits : Nat} {c : Char} (h : c.toNat < 16 ^ digits) (rest : Text) :
    readHex digits (hexText digits c.toNat ++ rest) = some (c, rest) := by
  have hlength := length_hexText digits c.toNat
  have hvalid : c.toNat.isValidChar := c.valid
  have hlong : ¬ (hexText digits c.toNat ++ rest).length < digits := by
    rw [List.length_append]
    omega
  rw [readHex, if_neg hlong, List.take_left' hlength, List.drop_left' hlength,
    hexTextValue_hexText h, Option.bind_some, if_pos hvalid, Char.ofNat_toNat]

/-- A quote that a string can have. -/
def IsQuote (quote : Char) : Prop := quote = '\'' ∨ quote = '"'

theorem IsQuote.ne_backslash {quote : Char} (h : IsQuote quote) : '\\' ≠ quote := by
  rcases h with h | h
  · rw [h]
    decide
  · rw [h]
    decide

theorem isQuote_quoteOf (s : Text) : IsQuote (quoteOf s) := by
  unfold quoteOf
  split
  · exact Or.inr rfl
  · exact Or.inl rfl

/-- An escape stands for its character. -/
theorem scanString_backslash {quote c : Char} (h : IsQuote quote) {escaped rest : Text}
    (hscan : scanEscape (escaped ++ rest) = some (c, rest)) (fuel : Nat) :
    scanString quote (fuel + 1) ('\\' :: escaped ++ rest) =
      (scanString quote fuel rest).map fun tail => (c :: tail.1, tail.2) := by
  rw [List.cons_append, scanString, if_neg h.ne_backslash, if_pos rfl, hscan, Option.bind_some]

/-- Hexadecimal digits stand for their character. -/
theorem scanString_hex {quote kind : Char} (h : IsQuote quote) {digits : Nat}
    (hkind : (kind, digits) ∈ [('x', 2), ('u', 4), ('U', 8)]) {c : Char}
    (hc : c.toNat < 16 ^ digits) (fuel : Nat) (rest : Text) :
    scanString quote (fuel + 1) ('\\' :: (kind :: hexText digits c.toNat) ++ rest) =
      (scanString quote fuel rest).map fun tail => (c :: tail.1, tail.2) := by
  apply scanString_backslash h
  have hread := readHex_hexText hc rest
  have hscan : scanEscape (kind :: (hexText digits c.toNat ++ rest)) =
      readHex digits (hexText digits c.toNat ++ rest) := by
    simp only [List.mem_cons, List.not_mem_nil, or_false, Prod.mk.injEq] at hkind
    rcases hkind with ⟨hx, hdigits⟩ | ⟨hu, hdigits⟩ | ⟨hU, hdigits⟩
    · rw [hx, hdigits]
      rfl
    · rw [hu, hdigits]
      rfl
    · rw [hU, hdigits]
      rfl
  rw [List.cons_append, hscan, hread]

/-- The escape of a character is read as the character. -/
theorem scanString_escape {quote : Char} (h : IsQuote quote) (isPrintable : Char → Bool) (c : Char)
    (fuel : Nat) (rest : Text) :
    scanString quote (fuel + 1) (escape isPrintable quote c ++ rest) =
      (scanString quote fuel rest).map fun tail => (c :: tail.1, tail.2) := by
  have hbounds : c.toNat < 0x110000 := by
    have hvalid := c.valid
    have hsame : c.toNat = c.val.toNat := rfl
    unfold UInt32.isValidChar Nat.isValidChar at hvalid
    omega
  unfold escape
  split
  · -- the quote and the backslash
    rename_i hspecial
    apply scanString_backslash h
    rcases hspecial with hquote | hbackslash
    · rcases h with h | h
      · rw [hquote, h]
        rfl
      · rw [hquote, h]
        rfl
    · rw [hbackslash]
      rfl
  rename_i hplain
  rw [not_or] at hplain
  split
  · rename_i htab
    rw [htab]
    exact scanString_backslash h rfl fuel
  split
  · rename_i hnewline
    rw [hnewline]
    exact scanString_backslash h rfl fuel
  split
  · rename_i hreturn
    rw [hreturn]
    exact scanString_backslash h rfl fuel
  rename_i hnewline hreturn
  split
  · rename_i hcontrol
    have hbyte : c.toNat < 16 ^ 2 := by omega
    exact scanString_hex h (by decide) hbyte fuel rest
  split
  · -- a character that stands for itself
    rename_i hvisible _
    have hend : c ∉ ['\n', '\r', '\x00'] := by
      intro hmem
      rcases List.mem_cons.mp hmem with hsame | hmem
      · exact hnewline hsame
      rcases List.mem_cons.mp hmem with hsame | hmem
      · exact hreturn hsame
      · rw [List.mem_singleton.mp hmem] at hvisible
        exact hvisible (by decide)
    rw [List.singleton_append, scanString, if_neg hplain.1, if_neg hplain.2, if_neg hend]
  split
  · rename_i hbyte
    exact scanString_hex h (by decide) hbyte fuel rest
  split
  · rename_i hshort
    exact scanString_hex h (by decide) hshort fuel rest
  · have hlong : c.toNat < 16 ^ 8 := by omega
    exact scanString_hex h (by decide) hlong fuel rest

/-- A string is read up to its closing quote. -/
theorem scanString_quoted {quote : Char} (h : IsQuote quote) (isPrintable : Char → Bool)
    (s rest : Text) {fuel : Nat} (hfuel : s.length + 1 ≤ fuel) :
    scanString quote fuel (s.flatMap (escape isPrintable quote) ++ quote :: rest) =
      some (s, rest) := by
  induction s generalizing fuel with
  | nil =>
      obtain ⟨less, hsame⟩ : ∃ less, fuel = less + 1 := ⟨fuel - 1, by simp at hfuel; omega⟩
      rw [hsame, List.flatMap_nil, List.nil_append, scanString, if_pos rfl]
  | cons c s ih =>
      rw [List.length_cons] at hfuel
      obtain ⟨less, hsame⟩ : ∃ less, fuel = less + 1 := ⟨fuel - 1, by omega⟩
      rw [hsame, List.flatMap_cons, List.append_assoc, scanString_escape h, ih (by omega)]
      rfl

theorem length_le_escaped (isPrintable : Char → Bool) (quote : Char) (s : Text) :
    s.length ≤ (s.flatMap (escape isPrintable quote)).length := by
  have hone : ∀ c, 1 ≤ (escape isPrintable quote c).length := by
    intro c
    unfold escape
    grind
  induction s with
  | nil => exact Nat.le_refl 0
  | cons c s ih =>
      rw [List.flatMap_cons, List.length_append, List.length_cons]
      have := hone c
      omega

/-- A string in quotes is read as the string. -/
theorem readString_reprStr (isPrintable : Char → Bool) (s rest : Text) :
    readString (reprStr isPrintable s ++ rest) = some (s, rest) := by
  have hquote : quoteOf s = '\'' ∨ quoteOf s = '"' := isQuote_quoteOf s
  have hlength := length_le_escaped isPrintable (quoteOf s) s
  rw [reprStr, List.cons_append, readString, if_pos hquote, List.append_assoc,
    List.singleton_append]
  apply scanString_quoted hquote
  rw [List.length_append]
  omega

end Strings

/-! ## Values are read back -/

/-- A text at which a number ends. -/
def Stops (s : Text) : Prop := s.head?.any isNumberChar = false

section Numbers

variable (format : FloatFormat φ)

theorem isNumberChar_of_isDigit {c : Char} (h : c.isDigit = true) : isNumberChar c = true := by
  rw [isNumberChar, h, Bool.true_or]

theorem unsigned_toDigits (n : Nat) :
    unsigned format (Nat.toDigits 10 n) = some (.int (.ofNat n)) := by
  have hdigits : (Nat.toDigits 10 n).all Char.isDigit = true := by
    rw [List.all_eq_true]
    intro c hc
    exact Nat.isDigit_of_mem_toDigits (by decide) (by decide) hc
  rw [unsigned, if_pos hdigits, Nat.ofDigitChars_ten_toDigits, if_pos rfl]

theorem unsigned_float {literal : Text} {x : φ} (h : format.ofLiteral literal = some x) :
    unsigned format literal = some (.float x) := by
  have hchars := format.literal_chars literal x h
  rw [unsigned, hchars.2.1, if_neg Bool.false_ne_true, h, Option.map_some]

/-- A text that starts with a digit has no sign. -/
theorem readNumber_of_digit {literal : Text} (h : literal.head?.any Char.isDigit = true) :
    readNumber format literal = unsigned format literal := by
  cases literal with
  | nil => rfl
  | cons c literal =>
      have hne : c ≠ '-' := by
        intro hminus
        rw [hminus] at h
        exact Bool.false_ne_true h
      rw [readNumber, expect_cons_of_ne literal hne]

theorem readNumber_minus {literal : Text} {value : Value φ}
    (h : unsigned format literal = some value) :
    readNumber format ('-' :: literal) = some (negate format value) := by
  rw [readNumber, expect_cons_self]
  show (unsigned format literal).map (negate format) = _
  rw [h, Option.map_some]

theorem head_toDigits (n : Nat) : (Nat.toDigits 10 n).head?.any Char.isDigit = true := by
  cases hdigits : Nat.toDigits 10 n with
  | nil => exact absurd hdigits Nat.toDigits_ne_nil
  | cons c rest =>
      have hc : c ∈ Nat.toDigits 10 n := by
        rw [hdigits]
        exact List.mem_cons_self
      exact Nat.isDigit_of_mem_toDigits (by decide) (by decide) hc

/-- A text of number characters that is read as the value. -/
structure Spells (text : Text) (value : Value φ) : Prop where
  chars : text.all isNumberChar = true
  not_empty : text ≠ []
  reads : readNumber format text = some value

theorem Spells.minus {text : Text} {value : Value φ} (hchars : text.all isNumberChar = true)
    (h : unsigned format text = some value) : Spells format ('-' :: text) (negate format value) where
  chars := by
    rw [List.all_cons, hchars]
    rfl
  not_empty := List.cons_ne_nil _ _
  reads := readNumber_minus format h

theorem spells_toDigits (n : Nat) : Spells format (Nat.toDigits 10 n) (.int (.ofNat n)) where
  chars := by
    rw [List.all_eq_true]
    intro c hc
    exact isNumberChar_of_isDigit (Nat.isDigit_of_mem_toDigits (by decide) (by decide) hc)
  not_empty := Nat.toDigits_ne_nil
  reads := (readNumber_of_digit format (head_toDigits n)).trans (unsigned_toDigits format n)

theorem spells_int (n : Int) : Spells format (intText n) (.int n) := by
  cases n with
  | ofNat n => exact spells_toDigits format n
  | negSucc n =>
      exact Spells.minus format (spells_toDigits format (n + 1)).chars
        (unsigned_toDigits format (n + 1))

theorem spells_float {x : φ} (h : format.isFinite x = true) :
    Spells format (format.repr x) (.float x) := by
  rcases format.reads_repr x h with hplain | ⟨literal, y, hrepr, hliteral, hneg⟩
  · have hchars := format.literal_chars _ x hplain
    refine ⟨hchars.1, ?_, ?_⟩
    · intro hnil
      rw [hnil] at hchars
      exact Bool.false_ne_true hchars.2.2
    · rw [readNumber_of_digit format hchars.2.2]
      exact unsigned_float format hplain
  · have hminus := Spells.minus format (format.literal_chars literal y hliteral).1
      (unsigned_float format hliteral)
    rw [hrepr, ← hneg]
    exact hminus

/-- The words start with their letters. -/
theorem find_word_eq_none {c : Char} (h : c ∉ ['N', 'T', 'F']) (s : Text) :
    ((words : List (String × Value φ)).find? fun word => word.1.toList.isPrefixOf (c :: s)) =
      none := by
  have hfirst : ∀ word ∈ (words : List (String × Value φ)),
      ∃ d ∈ ['N', 'T', 'F'], ∃ rest, word.1.toList = d :: rest := by
    intro word hmem
    simp only [words, List.mem_cons, List.not_mem_nil, or_false] at hmem
    rcases hmem with hnone | htrue | hfalse
    · rw [hnone]
      exact ⟨'N', by decide, "one".toList, by simp⟩
    · rw [htrue]
      exact ⟨'T', by decide, "rue".toList, by simp⟩
    · rw [hfalse]
      exact ⟨'F', by decide, "alse".toList, by simp⟩
  rw [List.find?_eq_none]
  intro word hmem hstart
  obtain ⟨d, hd, rest, hrest⟩ := hfirst word hmem
  rw [hrest, List.isPrefixOf_cons_cons, Bool.and_eq_true, beq_iff_eq] at hstart
  exact h (hstart.1 ▸ hd)

/-- A number is read up to its end. -/
theorem readAtom_number {text : Text} {value : Value φ} (h : Spells format text value) {rest : Text}
    (hrest : Stops rest) : readAtom format (text ++ rest) = some (value, rest) := by
  have hall : ∀ c ∈ text, isNumberChar c = true := List.all_eq_true.mp h.chars
  have htake : (text ++ rest).takeWhile isNumberChar = text ∧
      (text ++ rest).dropWhile isNumberChar = rest := by
    rw [List.takeWhile_append_of_pos hall, List.dropWhile_append_of_pos hall]
    cases rest with
    | nil => exact ⟨List.append_nil text, rfl⟩
    | cons c rest =>
        have hc : ¬ isNumberChar c = true := by
          rw [show isNumberChar c = false from hrest]
          exact Bool.false_ne_true
        rw [List.takeWhile_cons_of_neg hc, List.dropWhile_cons_of_neg hc]
        exact ⟨List.append_nil text, rfl⟩
  obtain ⟨c, tail, htext⟩ := List.exists_cons_of_ne_nil h.not_empty
  have hc : isNumberChar c = true := hall c (htext ▸ List.mem_cons_self)
  have hletter : c ∉ ['N', 'T', 'F'] := by
    intro hmem
    have hletters : (['N', 'T', 'F'].all fun d => !isNumberChar d) = true := by decide
    have hno := List.all_eq_true.mp hletters c hmem
    rw [hc] at hno
    exact Bool.false_ne_true hno
  have hword := find_word_eq_none (φ := φ) hletter (tail ++ rest)
  rw [← List.cons_append, ← htext] at hword
  rw [readAtom, hword]
  dsimp only
  rw [htake.1, htake.2, h.reads, Option.map_some]

/-- A text that is no string, list or dictionary. -/
theorem readValue_atom {text : Text} {value : Value φ} (h : Spells format text value) {rest : Text}
    (hrest : Stops rest) (fuel : Nat) :
    readValue format (fuel + 1) (text ++ rest) = some (value, rest) := by
  have hread := readAtom_number format h hrest
  obtain ⟨c, tail, htext⟩ := List.exists_cons_of_ne_nil h.not_empty
  have hc : isNumberChar c = true := List.all_eq_true.mp h.chars c (htext ▸ List.mem_cons_self)
  have hne : ∀ d, isNumberChar d = false → c ≠ d := by
    intro d hd hsame
    rw [hsame, hd] at hc
    exact Bool.false_ne_true hc
  have hquote : ¬ (c = '\'' ∨ c = '"') :=
    not_or.mpr ⟨hne _ (by decide), hne _ (by decide)⟩
  rw [htext, List.cons_append] at hread ⊢
  rw [readValue, if_neg (hne _ (by decide)), if_neg (hne _ (by decide)), if_neg hquote, hread]

end Numbers

section Values

variable (format : FloatFormat φ) (isPrintable : Char → Bool)

theorem stops_reprItems (items : List (Value φ)) (rest : Text) :
    Stops (reprItems format isPrintable items ++ ']' :: rest) := by
  cases items with
  | nil => rfl
  | cons value items =>
      rw [reprItems, List.append_assoc, List.append_assoc]
      rfl

theorem stops_reprEntries (entries : List (Text × Value φ)) (rest : Text) :
    Stops (reprEntries format isPrintable entries ++ '\x7d' :: rest) := by
  cases entries with
  | nil => rfl
  | cons entry entries =>
      rw [reprEntries, List.append_assoc, List.append_assoc, List.append_assoc, List.append_assoc]
      rfl

/-- No value starts with a bracket that closes a list. -/
theorem expect_repr {value : Value φ} (h : value.Every (Value.Finite format)) (rest : Text) :
    expect ']' (repr format isPrintable value ++ rest) = none := by
  have hnumber : ∀ text (w : Value φ), Spells format text w → expect ']' (text ++ rest) = none := by
    intro text w hspells
    obtain ⟨c, tail, htext⟩ := List.exists_cons_of_ne_nil hspells.not_empty
    have hc := List.all_eq_true.mp hspells.chars c (htext ▸ List.mem_cons_self)
    rw [htext]
    apply expect_cons_of_ne
    intro hsame
    rw [hsame] at hc
    exact absurd hc (by decide)
  cases value with
  | null => rfl
  | bool b =>
      cases b with
      | true => rfl
      | false => rfl
  | int n => exact hnumber _ _ (spells_int format n)
  | float x => exact hnumber _ _ (spells_float format h)
  | str s =>
      apply expect_cons_of_ne
      rcases isQuote_quoteOf s with hquote | hquote
      · rw [hquote]
        decide
      · rw [hquote]
        decide
  | list items =>
      cases items with
      | nil => rfl
      | cons value items => rfl
  | dict entries =>
      cases entries with
      | nil => rfl
      | cons entry entries => rfl

theorem expectPair_append (c : Char) (rest : Text) : expectPair c (c :: ' ' :: rest) = some rest := by
  rw [expectPair, expect_cons_self, Option.bind_some, expect_cons_self]

theorem readValue_reprStr (s rest : Text) (fuel : Nat) :
    readValue format (fuel + 1) (reprStr isPrintable s ++ rest) = some (.str s, rest) := by
  have hread := readString_reprStr isPrintable s rest
  rw [reprStr, List.cons_append] at hread ⊢
  rcases isQuote_quoteOf s with hquote | hquote
  · rw [hquote] at hread ⊢
    rw [readValue, if_neg (by decide), if_neg (by decide), if_pos (by decide), hread,
      Option.map_some]
  · rw [hquote] at hread ⊢
    rw [readValue, if_neg (by decide), if_neg (by decide), if_pos (by decide), hread,
      Option.map_some]

end Values

section RoundTrip

variable (format : FloatFormat φ) (isPrintable : Char → Bool)

theorem readItems_end (fuel : Nat) (rest : Text) :
    readItems format (fuel + 1) (']' :: rest) = some ([], rest) := by
  rw [readItems, expect_cons_self]

theorem readEntries_end (fuel : Nat) (rest : Text) :
    readEntries format (fuel + 1) ('\x7d' :: rest) = some ([], rest) := by
  rw [readEntries, expect_cons_self]

/-- A value whose text is read as the value; the fuel counts the characters of the text. -/
def Reads (value : Value φ) : Prop :=
  value.Every Value.DistinctKeys → value.Every (Value.Finite format) →
    ∀ (fuel : Nat) (rest : Text), (repr format isPrintable value).length ≤ fuel → Stops rest →
      readValue format fuel (repr format isPrintable value ++ rest) = some (value, rest)

def ReadsItems (items : List (Value φ)) : Prop :=
  Value.EveryItem Value.DistinctKeys items → Value.EveryItem (Value.Finite format) items →
    ∀ (fuel : Nat) (rest : Text), (reprItems format isPrintable items).length < fuel →
      readItems format fuel (reprItems format isPrintable items ++ ']' :: rest) =
        some (items, rest)

def ReadsEntries (entries : List (Text × Value φ)) : Prop :=
  Value.EveryEntry Value.DistinctKeys entries → Value.EveryEntry (Value.Finite format) entries →
    ∀ (fuel : Nat) (rest : Text), (reprEntries format isPrintable entries).length < fuel →
      readEntries format fuel (reprEntries format isPrintable entries ++ '\x7d' :: rest) =
        some (entries, rest)

theorem exists_succ {text : Text} (hne : text ≠ []) {fuel : Nat} (h : text.length ≤ fuel) :
    ∃ less, fuel = less + 1 := by
  have := List.length_pos_iff.mpr hne
  exact ⟨fuel - 1, by omega⟩

theorem reads_spelled {value : Value φ}
    (h : value.Every (Value.Finite format) → Spells format (repr format isPrintable value) value) :
    Reads format isPrintable value := by
  intro _ hfinite fuel rest hfuel hrest
  have hspells := h hfinite
  obtain ⟨less, hless⟩ := exists_succ hspells.not_empty hfuel
  rw [hless]
  exact readValue_atom format hspells hrest less

/-- A word is read as what it stands for. -/
theorem reads_word {value : Value φ} (hne : repr format isPrintable value ≠ [])
    (h : ∀ fuel rest, readValue format (fuel + 1) (repr format isPrintable value ++ rest) =
      some (value, rest)) : Reads format isPrintable value := by
  intro _ _ fuel rest hfuel _
  obtain ⟨less, hless⟩ := exists_succ hne hfuel
  rw [hless]
  exact h less rest

theorem readsItems_cons {value : Value φ} {items : List (Value φ)}
    (hvalue : Reads format isPrintable value) (hitems : ReadsItems format isPrintable items) :
    ReadsItems format isPrintable (value :: items) := by
  intro hkeys hfinite fuel more hfuel
  have hcomma : ", ".toList = [',', ' '] := rfl
  have htwo : ", ".toList.length = 2 := rfl
  rw [reprItems, List.length_append, List.length_append, htwo] at hfuel
  obtain ⟨less, hless⟩ : ∃ less, fuel = less + 1 := ⟨fuel - 1, by omega⟩
  rw [hless, reprItems, hcomma, List.append_assoc, List.append_assoc, List.cons_append,
    List.cons_append, List.nil_append, readItems, expect_cons_of_ne _ (by decide)]
  dsimp only
  rw [expectPair_append, Option.bind_some,
    hvalue hkeys.1 hfinite.1 less _ (by omega) (stops_reprItems format isPrintable _ _),
    Option.bind_some]
  dsimp only
  rw [hitems hkeys.2 hfinite.2 less more (by omega), Option.map_some]

theorem readsItems_nil : ReadsItems format isPrintable [] := by
  intro _ _ fuel more hfuel
  obtain ⟨less, hless⟩ : ∃ less, fuel = less + 1 := ⟨fuel - 1, by omega⟩
  rw [hless]
  exact readItems_end format less more

theorem readsEntries_cons {key : Text} {value : Value φ} {entries : List (Text × Value φ)}
    (hvalue : Reads format isPrintable value) (hentries : ReadsEntries format isPrintable entries) :
    ReadsEntries format isPrintable ((key, value) :: entries) := by
  intro hkeys hfinite fuel more hfuel
  have hcomma : ", ".toList = [',', ' '] := rfl
  have hcolon : ": ".toList = [':', ' '] := rfl
  have htwo : ", ".toList.length = 2 := rfl
  rw [reprEntries, List.length_append, List.length_append, List.length_append,
    List.length_append, htwo] at hfuel
  obtain ⟨less, hless⟩ : ∃ less, fuel = less + 1 := ⟨fuel - 1, by omega⟩
  rw [hless, reprEntries, hcomma, hcolon]
  simp only [List.append_assoc]
  rw [List.cons_append, List.cons_append, List.nil_append, readEntries,
    expect_cons_of_ne _ (by decide)]
  dsimp only
  rw [expectPair_append, Option.bind_some, readString_reprStr, Option.bind_some, List.cons_append,
    List.cons_append, List.nil_append, expectPair_append, Option.bind_some,
    hvalue hkeys.1 hfinite.1 less _ (by omega) (stops_reprEntries format isPrintable _ _),
    Option.bind_some]
  dsimp only
  rw [hentries hkeys.2 hfinite.2 less more (by omega), Option.map_some]

theorem readsEntries_nil : ReadsEntries format isPrintable [] := by
  intro _ _ fuel more hfuel
  obtain ⟨less, hless⟩ : ∃ less, fuel = less + 1 := ⟨fuel - 1, by omega⟩
  rw [hless]
  exact readEntries_end format less more

theorem readsItems_of_forall {items : List (Value φ)}
    (h : ∀ item ∈ items, Reads format isPrintable item) : ReadsItems format isPrintable items := by
  induction items with
  | nil => exact readsItems_nil format isPrintable
  | cons item items ih =>
      obtain ⟨hitem, hrest⟩ := List.forall_mem_cons.mp h
      exact readsItems_cons format isPrintable hitem (ih hrest)

theorem readsEntries_of_forall {entries : List (Text × Value φ)}
    (h : ∀ entry ∈ entries, Reads format isPrintable entry.2) :
    ReadsEntries format isPrintable entries := by
  induction entries with
  | nil => exact readsEntries_nil format isPrintable
  | cons entry entries ih =>
      obtain ⟨hentry, hrest⟩ := List.forall_mem_cons.mp h
      exact readsEntries_cons format isPrintable hentry (ih hrest)

/-- A text that starts like no other value is an atom. -/
theorem readValue_letter {c : Char} (h : c.isAlpha = true) (fuel : Nat) (s : Text) :
    readValue format (fuel + 1) (c :: s) = readAtom format (c :: s) := by
  have hne : ∀ d, d.isAlpha = false → c ≠ d := by
    intro d hd hsame
    rw [hsame, hd] at h
    exact Bool.false_ne_true h
  have hquote : ¬ (c = '\'' ∨ c = '"') := not_or.mpr ⟨hne _ (by decide), hne _ (by decide)⟩
  rw [readValue, if_neg (hne _ (by decide)), if_neg (hne _ (by decide)), if_neg hquote]

theorem readAtom_none (rest : Text) :
    readAtom format ("None".toList ++ rest) = some (.null, rest) := by
  simp [readAtom, words]

theorem readAtom_true (rest : Text) :
    readAtom format ("True".toList ++ rest) = some (.bool true, rest) := by
  simp [readAtom, words]

theorem readAtom_false (rest : Text) :
    readAtom format ("False".toList ++ rest) = some (.bool false, rest) := by
  simp [readAtom, words]

theorem reads_list {items : List (Value φ)}
    (h : ∀ item ∈ items, Reads format isPrintable item) :
    Reads format isPrintable (.list items) := by
  intro hkeys hfinite fuel more hfuel _
  cases items with
  | nil =>
      obtain ⟨less, hless⟩ := exists_succ (List.cons_ne_nil _ _) hfuel
      rw [hless]
      rfl
  | cons value items =>
      obtain ⟨hvalue, hrest⟩ := List.forall_mem_cons.mp h
      have hitems := readsItems_of_forall format isPrintable hrest
      have hvalueFinite := hfinite.2.1
      rw [repr, List.length_cons, List.length_append, List.length_append,
        List.length_singleton] at hfuel
      obtain ⟨less, hless⟩ : ∃ less, fuel = less + 1 := ⟨fuel - 1, by omega⟩
      rw [hless, repr, List.cons_append, readValue, if_pos rfl, List.append_assoc,
        List.append_assoc, expect_repr format isPrintable hvalueFinite]
      dsimp only
      rw [List.singleton_append,
        hvalue hkeys.2.1 hvalueFinite less _ (by omega) (stops_reprItems format isPrintable _ _),
        Option.bind_some]
      dsimp only
      rw [hitems hkeys.2.2 hfinite.2.2 less more (by omega), Option.map_some]

theorem reads_dict {entries : List (Text × Value φ)}
    (h : ∀ entry ∈ entries, Reads format isPrintable entry.2) :
    Reads format isPrintable (.dict entries) := by
  intro hkeys hfinite fuel more hfuel _
  cases entries with
  | nil =>
      obtain ⟨less, hless⟩ := exists_succ (List.cons_ne_nil _ _) hfuel
      rw [hless]
      rfl
  | cons entry entries =>
      obtain ⟨key, value⟩ := entry
      obtain ⟨hvalue, hrest⟩ := List.forall_mem_cons.mp h
      dsimp only at hvalue
      have hentries := readsEntries_of_forall format isPrintable hrest
      have hcolon : ": ".toList = [':', ' '] := rfl
      have hopen : ∀ tail, expect '\x7d' (reprStr isPrintable key ++ tail) = none := by
        intro tail
        apply expect_cons_of_ne
        rcases isQuote_quoteOf key with hquote | hquote
        · rw [hquote]
          decide
        · rw [hquote]
          decide
      rw [repr, hcolon, List.length_cons, List.length_append, List.length_append,
        List.length_append, List.length_append, List.length_singleton] at hfuel
      obtain ⟨less, hless⟩ : ∃ less, fuel = less + 1 := ⟨fuel - 1, by omega⟩
      rw [hless, repr, hcolon, List.cons_append, readValue, if_neg (by decide), if_pos rfl]
      simp only [List.append_assoc]
      rw [hopen]
      dsimp only
      rw [readString_reprStr, Option.bind_some, List.cons_append, List.cons_append,
        List.nil_append, expectPair_append, Option.bind_some, List.singleton_append,
        hvalue hkeys.2.1 hfinite.2.1 less _ (by omega) (stops_reprEntries format isPrintable _ _),
        Option.bind_some]
      dsimp only
      rw [hentries hkeys.2.2 hfinite.2.2 less more (by omega), Option.map_some,
        Dict.entries_ofEntries hkeys.1]

/-- What `repr` wrote of a value is read as the value, up to where it ends. -/
theorem readValue_repr (value : Value φ) : Reads format isPrintable value := by
  induction value using Value.induct with
  | null => exact reads_word format isPrintable (List.cons_ne_nil _ _) fun fuel rest =>
      (readValue_letter format (by decide) fuel _).trans (readAtom_none format rest)
  | bool b =>
      cases b with
      | true =>
          exact reads_word format isPrintable (List.cons_ne_nil _ _) fun fuel rest =>
            (readValue_letter format (by decide) fuel _).trans (readAtom_true format rest)
      | false =>
          exact reads_word format isPrintable (List.cons_ne_nil _ _) fun fuel rest =>
            (readValue_letter format (by decide) fuel _).trans (readAtom_false format rest)
  | int n => exact reads_spelled format isPrintable fun _ => spells_int format n
  | float x => exact reads_spelled format isPrintable fun h => spells_float format h
  | str s =>
      exact reads_word format isPrintable (List.cons_ne_nil _ _) fun fuel rest =>
        readValue_reprStr format isPrintable s rest fuel
  | list items ih => exact reads_list format isPrintable ih
  | dict entries ih => exact reads_dict format isPrintable ih

end RoundTrip

/-! ## What is read is finite -/

section Finite

variable (format : FloatFormat φ)

theorem unsigned_finite {literal : Text} {value : Value φ}
    (h : unsigned format literal = some value) : value.Every (Value.Finite format) := by
  unfold unsigned at h
  dsimp only at h
  split at h
  · split at h
    · cases h
      exact trivial
    · cases h
  · obtain ⟨x, hx, hsame⟩ := Option.map_eq_some_iff.mp h
    rw [← hsame]
    exact format.literal_finite literal x hx

theorem negate_finite {value : Value φ} (h : value.Every (Value.Finite format)) :
    (negate format value).Every (Value.Finite format) := by
  cases value with
  | int n => exact trivial
  | float x => exact (format.neg_finite x).trans h
  | null => exact h
  | bool b => exact h
  | str s => exact h
  | list items => exact h
  | dict entries => exact h

theorem readNumber_finite {literal : Text} {value : Value φ}
    (h : readNumber format literal = some value) : value.Every (Value.Finite format) := by
  unfold readNumber at h
  split at h
  · obtain ⟨number, hnumber, hsame⟩ := Option.map_eq_some_iff.mp h
    rw [← hsame]
    exact negate_finite format (unsigned_finite format hnumber)
  · exact unsigned_finite format h

theorem readAtom_finite {s rest : Text} {value : Value φ}
    (h : readAtom format s = some (value, rest)) : value.Every (Value.Finite format) := by
  unfold readAtom at h
  split at h
  · rename_i word hword
    have hmem := List.mem_of_find?_eq_some hword
    cases h
    simp only [words, List.mem_cons, List.not_mem_nil, or_false] at hmem
    rcases hmem with hnull | htrue | hfalse
    · rw [hnull]
      exact trivial
    · rw [htrue]
      exact trivial
    · rw [hfalse]
      exact trivial
  · obtain ⟨number, hnumber, hsame⟩ := Option.map_eq_some_iff.mp h
    cases hsame
    exact readNumber_finite format hnumber

/-- All floats of what is read are finite. -/
theorem readValue_finite (fuel : Nat) :
    (∀ s value rest, readValue format fuel s = some (value, rest) →
      value.Every (Value.Finite format)) ∧
    (∀ s items rest, readItems format fuel s = some (items, rest) →
      Value.EveryItem (Value.Finite format) items) ∧
    (∀ s entries rest, readEntries format fuel s = some (entries, rest) →
      Value.EveryEntry (Value.Finite format) entries) := by
  induction fuel with
  | zero =>
      refine ⟨?_, ?_, ?_⟩
      · intro s value rest h
        cases h
      · intro s items rest h
        cases h
      · intro s entries rest h
        cases h
  | succ fuel ih =>
      obtain ⟨hvalues, hitems, hentries⟩ := ih
      refine ⟨?_, ?_, ?_⟩
      · intro s value rest h
        cases s with
        | nil => cases h
        | cons c s =>
            rw [readValue] at h
            split at h
            · -- a list
              split at h
              · cases h
                exact ⟨trivial, trivial⟩
              · simp only [Option.bind_eq_some_iff, Option.map_eq_some_iff, Prod.exists] at h
                obtain ⟨first, tail, hfirst, items, end', hrest, hsame⟩ := h
                cases hsame
                exact ⟨trivial, hvalues _ _ _ hfirst, hitems _ _ _ hrest⟩
            split at h
            · -- a dictionary
              split at h
              · cases h
                exact ⟨trivial, trivial⟩
              · simp only [Option.bind_eq_some_iff, Option.map_eq_some_iff, Prod.exists] at h
                obtain ⟨key, _, _, _, _, first, tail, hfirst, entries, end', hrest, hsame⟩ := h
                cases hsame
                refine ⟨trivial, Value.everyEntry_iff.mpr ?_⟩
                intro entry hentry
                rcases List.mem_cons.mp (Dict.mem_of_mem_entries_ofEntries hentry) with hnew | hold
                · rw [hnew]
                  exact hvalues _ _ _ hfirst
                · exact Value.everyEntry_iff.mp (hentries _ _ _ hrest) entry hold
            split at h
            · obtain ⟨text, _, hsame⟩ := Option.map_eq_some_iff.mp h
              cases hsame
              exact trivial
            · exact readAtom_finite format h
      · intro s items rest h
        rw [readItems] at h
        split at h
        · cases h
          exact trivial
        · simp only [Option.bind_eq_some_iff, Option.map_eq_some_iff, Prod.exists] at h
          obtain ⟨_, _, value, tail, hvalue, items', end', hrest, hsame⟩ := h
          cases hsame
          exact ⟨hvalues _ _ _ hvalue, hitems _ _ _ hrest⟩
      · intro s entries rest h
        rw [readEntries] at h
        split at h
        · cases h
          exact trivial
        · simp only [Option.bind_eq_some_iff, Option.map_eq_some_iff, Prod.exists] at h
          obtain ⟨_, _, key, _, _, _, _, value, tail, hvalue, entries', end', hrest, hsame⟩ := h
          cases hsame
          exact ⟨hvalues _ _ _ hvalue, hentries _ _ _ hrest⟩

end Finite

section Eval

variable (format : FloatFormat φ) (isPrintable : Char → Bool) {ω : Type}
  (beyond : Text → Option ω)

/-- A value is read back from what `repr` wrote. -/
theorem literalEval_repr {value : Value φ} (hkeys : value.Every Value.DistinctKeys)
    (hfinite : value.Every (Value.Finite format)) :
    literalEval format beyond (repr format isPrintable value) = some (.value value) := by
  have hread := readValue_repr format isPrintable value hkeys hfinite
    ((repr format isPrintable value).length + 1) [] (Nat.le_succ _) rfl
  rw [List.append_nil] at hread
  rw [literalEval, hread]

theorem readNumber_nil : readNumber format [] = none := by
  have hne : Nat.toDigits 10 (Nat.ofDigitChars 10 [] 0) ≠ [] := Nat.toDigits_ne_nil
  show unsigned format [] = none
  rw [unsigned, if_pos List.all_nil, if_neg hne]

/-- A name is no literal, but for the three words. -/
theorem literalEval_name {c : Char} {s : Text} (hname : isName (c :: s) = true)
    (halpha : c.isAlpha = true) (hnumber : isNumberChar c = false) (hletter : c ∉ ['N', 'T', 'F']) :
    literalEval format beyond (c :: s) = none := by
  have hatom : readAtom format (c :: s) = none := by
    rw [readAtom, find_word_eq_none hletter,
      List.takeWhile_cons_of_neg (by rw [hnumber]; exact Bool.false_ne_true), readNumber_nil]
    rfl
  rw [literalEval, readValue_letter format halpha, hatom]
  dsimp only
  rw [if_pos hname]

/-- All floats of a value that a text stands for are finite. -/
theorem literalEval_finite {s : Text} {value : Value φ}
    (h : literalEval format beyond s = some (.value value)) :
    value.Every (Value.Finite format) := by
  unfold literalEval at h
  split at h
  · rename_i hread
    cases h
    exact (readValue_finite format _).1 _ _ _ hread
  · split at h
    · cases h
    · obtain ⟨object, _, hsame⟩ := Option.map_eq_some_iff.mp h
      cases hsame

end Eval

end M8flow.Lib.PyLiteral
