import M8flow.Lib.Text
import Mathlib.Data.Char
import Mathlib.Data.List.Lex
import Mathlib.Data.List.Nodup
import Mathlib.Data.List.Sort

/-!
# JSON texts

`json.loads` and, for a dictionary of texts, `json.dumps(fields, indent=2,
sort_keys=True)`.  Of what a text says only the texts and the dictionaries of texts
are kept; any other value is `other`.

- `scanString` reads a string as code points, in which a surrogate pair is still
  two; `joinSurrogates` makes them characters.
- `loads_dumps`: a dictionary of texts is read back, with its keys in order.
- `return_not_mem_dumps`: what is written has no line ends that a reader translates.

Left out are the depth at which the parser of the interpreter gives up, and lone
surrogates, for which the replacement character stands.
-/

namespace M8flow.Lib.JsonText

/-! ## Strings -/

/-- The value of a hexadecimal digit. -/
def hexDigitValue (c : Char) : Option Nat :=
  if '0' ≤ c ∧ c ≤ '9' then some (c.toNat - 48)
  else if 'a' ≤ c ∧ c ≤ 'f' then some (c.toNat - 87)
  else if 'A' ≤ c ∧ c ≤ 'F' then some (c.toNat - 55)
  else none

/-- The code point of four hexadecimal digits. -/
def hexValue (a b c d : Char) : Option Nat := do
  let a ← hexDigitValue a
  let b ← hexDigitValue b
  let c ← hexDigitValue c
  let d ← hexDigitValue d
  some (((a * 16 + b) * 16 + c) * 16 + d)

/-- The code point of an escape of one letter. -/
def escapeValue (c : Char) : Option Nat :=
  ([('"', 34), ('\\', 92), ('/', 47), ('b', 8), ('f', 12), ('n', 10), ('r', 13), ('t', 9)].lookup c)

/-- The code points of a string up to its closing quote, and what follows. -/
def scanString : Text → Option (List Nat × Text)
  | [] => none
  | '"' :: rest => some ([], rest)
  | '\\' :: 'u' :: a :: b :: c :: d :: rest =>
      (hexValue a b c d).bind fun n => (scanString rest).map fun p => (n :: p.1, p.2)
  | '\\' :: c :: rest =>
      (escapeValue c).bind fun n => (scanString rest).map fun p => (n :: p.1, p.2)
  | c :: rest =>
      if c = '\\' ∨ c.toNat < 32 then none
      else (scanString rest).map fun p => (c.toNat :: p.1, p.2)

def isHighSurrogate (n : Nat) : Bool := 0xd800 ≤ n && n < 0xdc00

def isLowSurrogate (n : Nat) : Bool := 0xdc00 ≤ n && n < 0xe000

/-- The character of a code point. -/
def charOf (n : Nat) : Char := if n.isValidChar then Char.ofNat n else '\ufffd'

/-- The characters of code points, a surrogate pair being one. -/
def joinSurrogates : List Nat → Text
  | [] => []
  | [n] => [charOf n]
  | high :: low :: rest =>
      if isHighSurrogate high && isLowSurrogate low then
        charOf (0x10000 + (high - 0xd800) * 1024 + (low - 0xdc00)) :: joinSurrogates rest
      else charOf high :: joinSurrogates (low :: rest)

/-- The hexadecimal digit of a value below sixteen. -/
def hexDigit (n : Nat) : Char := if n < 10 then Char.ofNat (48 + n) else Char.ofNat (87 + n)

/-- `\uXXXX`. -/
def unicodeEscape (n : Nat) : Text :=
  ['\\', 'u', hexDigit (n / 4096), hexDigit (n / 256 % 16), hexDigit (n / 16 % 16),
    hexDigit (n % 16)]

/-- A character in a string, with everything escaped that is not printable ASCII. -/
def escapeChar (c : Char) : Text :=
  if c = '"' then ['\\', '"']
  else if c = '\\' then ['\\', '\\']
  else if c = '\n' then ['\\', 'n']
  else if c = '\r' then ['\\', 'r']
  else if c = '\t' then ['\\', 't']
  else if c.toNat = 12 then ['\\', 'f']
  else if c.toNat = 8 then ['\\', 'b']
  else if 32 ≤ c.toNat ∧ c.toNat < 127 then [c]
  else if c.toNat < 0x10000 then unicodeEscape c.toNat
  else
    unicodeEscape (0xd800 + (c.toNat - 0x10000) / 1024) ++
      unicodeEscape (0xdc00 + (c.toNat - 0x10000) % 1024)

/-- A string with its quotes. -/
def quote (s : Text) : Text := '"' :: (s.flatMap escapeChar ++ ['"'])

/-! ## Values -/

/-- What is kept of a value. -/
inductive Value where
  | str (s : Text)
  | dict (fields : List (Text × Option Text))
  | other
  deriving Repr, DecidableEq

/-- The text of a value, if it is one. -/
def Value.text : Value → Option Text
  | .str s => some s
  | _ => none

/-- Pass over white space. -/
def skipSpace (s : Text) : Text := s.dropWhile fun c => c = ' ' || c = '\t' || c = '\n' || c = '\r'

def isAsciiDigit (c : Char) : Bool := '0' ≤ c && c ≤ '9'

/-- Pass over digits, if there are some. -/
def skipDigits (s : Text) : Option Text :=
  if (s.takeWhile isAsciiDigit) = [] then none else some (s.dropWhile isAsciiDigit)

/-- Pass over the fraction and the exponent of a number, where they are complete; the flag
says whether there is one of them. -/
def skipFraction (s : Text) : Bool × Text :=
  let fraction :=
    match s with
    | '.' :: rest => (skipDigits rest).map fun rest => (true, rest)
    | _ => none
  let (seen, s) := fraction.getD (false, s)
  let exponent :=
    match s with
    | 'e' :: '+' :: rest | 'e' :: '-' :: rest | 'E' :: '+' :: rest | 'E' :: '-' :: rest
    | 'e' :: rest | 'E' :: rest => (skipDigits rest).map fun rest => (true, rest)
    | _ => none
  exponent.getD (seen, s)

/-- Pass over a number; an integer has at most as many digits as `int` accepts. -/
def skipNumber (s : Text) : Option Text :=
  let body := if ['-'].isPrefixOf s then s.drop 1 else s
  let digits := if ['0'].isPrefixOf body then ['0'] else body.takeWhile isAsciiDigit
  if digits = [] then none
  else
    let (seen, rest) := skipFraction (body.drop digits.length)
    if seen || digits.length ≤ 4300 then some rest else none

/-- Pass over a value that is no string, dictionary or list. -/
def skipLiteral (s : Text) : Option Text :=
  match ["null", "true", "false", "NaN", "Infinity", "-Infinity"].find? fun word =>
      word.toList.isPrefixOf s with
  | some word => some (s.drop word.length)
  | none => skipNumber s

/-- Pass over one character. -/
def expect (c : Char) : Text → Option Text
  | [] => none
  | d :: rest => if d = c then some rest else none

mutual

/-- Read a value. -/
def parseValue : (fuel : Nat) → Text → Option (Value × Text)
  | 0, _ => none
  | fuel + 1, s =>
      match expect '"' s with
      | some rest => (scanString rest).map fun p => (.str (joinSurrogates p.1), p.2)
      | none =>
          match expect '\x7b' s with
          | some rest =>
              match expect '\x7d' (skipSpace rest) with
              | some rest => some (.dict [], rest)
              | none => (parseMembers fuel (skipSpace rest)).map fun p => (.dict p.1, p.2)
          | none =>
              match expect '[' s with
              | some rest =>
                  match expect ']' (skipSpace rest) with
                  | some rest => some (.other, rest)
                  | none => (parseElements fuel (skipSpace rest)).map fun rest => (.other, rest)
              | none => (skipLiteral s).map fun rest => (.other, rest)

/-- Read the members of a dictionary, up to its closing brace. -/
def parseMembers : (fuel : Nat) → Text → Option (List (Text × Option Text) × Text)
  | 0, _ => none
  | fuel + 1, s =>
      (expect '"' s).bind fun rest =>
        (scanString rest).bind fun key =>
          (expect ':' (skipSpace key.2)).bind fun rest =>
            (parseValue fuel (skipSpace rest)).bind fun value =>
              let member := (joinSurrogates key.1, value.1.text)
              match expect '\x7d' (skipSpace value.2) with
              | some rest => some ([member], rest)
              | none =>
                  (expect ',' (skipSpace value.2)).bind fun rest =>
                    (parseMembers fuel (skipSpace rest)).map fun p => (member :: p.1, p.2)

/-- Pass over the elements of a list, up to its closing bracket. -/
def parseElements : (fuel : Nat) → Text → Option Text
  | 0, _ => none
  | fuel + 1, s =>
      (parseValue fuel s).bind fun value =>
        match expect ']' (skipSpace value.2) with
        | some rest => some rest
        | none =>
            (expect ',' (skipSpace value.2)).bind fun rest =>
              parseElements fuel (skipSpace rest)

end

/-- `json.loads`: nothing stands for the `ValueError`. -/
def loads (s : Text) : Option Value :=
  (parseValue (s.length + 1) (skipSpace s)).bind fun p =>
    if skipSpace p.2 = [] then some p.1 else none

/-- `dict.get(key)` where it is a text; the last of the fields with the key is the one. -/
def get (fields : List (Text × Option Text)) (key : Text) : Option Text :=
  (fields.reverse.lookup key).bind id

/-! ## Writing -/

/-- The members of a dictionary with at least one, up to the closing brace. -/
def renderMembers : List (Text × Text) → Text
  | [] => []
  | [field] => quote field.1 ++ ": ".toList ++ quote field.2 ++ "\n\x7d".toList
  | field :: fields =>
      quote field.1 ++ ": ".toList ++ quote field.2 ++ ",\n  ".toList ++ renderMembers fields

/-- `json.dumps(fields, indent=2)`. -/
def render (fields : List (Text × Text)) : Text :=
  if fields = [] then "\x7b\x7d".toList else "\x7b\n  ".toList ++ renderMembers fields

/-- `json.dumps(fields, indent=2, sort_keys=True)`. -/
def dumps (fields : List (Text × Text)) : Text :=
  render (fields.insertionSort fun field other => field.1 ≤ other.1)

example : loads "\x7b\"status\": \"draft\"\x7d".toList =
    some (.dict [("status".toList, some "draft".toList)]) := by decide +kernel

/-! ## Reading what was written -/

section Strings

theorem hexDigitValue_hexDigit {n : Nat} (h : n < 16) : hexDigitValue (hexDigit n) = some n := by
  have hall : ∀ n < 16, hexDigitValue (hexDigit n) = some n := by decide
  exact hall n h

/-- The escape of a code point is read back. -/
theorem scanString_unicodeEscape {n : Nat} (h : n < 0x10000) (rest : Text) :
    scanString (unicodeEscape n ++ rest) = (scanString rest).map fun p => (n :: p.1, p.2) := by
  have hvalue : hexValue (hexDigit (n / 4096)) (hexDigit (n / 256 % 16)) (hexDigit (n / 16 % 16))
      (hexDigit (n % 16)) = some n := by
    unfold hexValue
    rw [hexDigitValue_hexDigit (by omega), hexDigitValue_hexDigit (by omega),
      hexDigitValue_hexDigit (by omega), hexDigitValue_hexDigit (by omega)]
    show some _ = some n
    congr 1
    omega
  show scanString ('\\' :: 'u' :: hexDigit (n / 4096) :: hexDigit (n / 256 % 16) ::
    hexDigit (n / 16 % 16) :: hexDigit (n % 16) :: rest) = _
  rw [scanString, hvalue, Option.bind_some]

/-- The code points of a character: itself, or a surrogate pair. -/
def unitsOf (c : Char) : List Nat :=
  if c.toNat < 0x10000 then [c.toNat]
  else [0xd800 + (c.toNat - 0x10000) / 1024, 0xdc00 + (c.toNat - 0x10000) % 1024]

theorem char_bounds (c : Char) :
    c.toNat < 0xd800 ∨ (0xdfff < c.toNat ∧ c.toNat < 0x110000) := c.valid

/-- An escaped character is read back. -/
theorem scanString_escapeChar (c : Char) (rest : Text) :
    scanString (escapeChar c ++ rest) =
      (scanString rest).map fun p => (unitsOf c ++ p.1, p.2) := by
  unfold escapeChar
  by_cases hquote : c = '"'
  · rw [if_pos hquote, hquote]
    rfl
  rw [if_neg hquote]
  by_cases hbackslash : c = '\\'
  · rw [if_pos hbackslash, hbackslash]
    rfl
  rw [if_neg hbackslash]
  by_cases hnewline : c = '\n'
  · rw [if_pos hnewline, hnewline]
    rfl
  rw [if_neg hnewline]
  by_cases hreturn : c = '\r'
  · rw [if_pos hreturn, hreturn]
    rfl
  rw [if_neg hreturn]
  by_cases htab : c = '\t'
  · rw [if_pos htab, htab]
    rfl
  rw [if_neg htab]
  by_cases hfeed : c.toNat = 12
  · have hunits : unitsOf c = [12] := by rw [unitsOf, hfeed, if_pos (by omega)]
    rw [if_pos hfeed, hunits]
    rfl
  rw [if_neg hfeed]
  by_cases hback : c.toNat = 8
  · have hunits : unitsOf c = [8] := by rw [unitsOf, hback, if_pos (by omega)]
    rw [if_pos hback, hunits]
    rfl
  rw [if_neg hback]
  by_cases hprintable : 32 ≤ c.toNat ∧ c.toNat < 127
  · have hunits : unitsOf c = [c.toNat] := if_pos (by omega)
    have hplain : ¬ (c = '\\' ∨ c.toNat < 32) := by
      intro h
      rcases h with hslash | hcontrol
      · exact hbackslash hslash
      · omega
    rw [if_pos hprintable, hunits, List.singleton_append]
    rw [scanString]
    · rw [if_neg hplain]
      rfl
    · exact hquote
    · exact fun a b c d rest hslash => absurd hslash hbackslash
    · exact fun c rest hslash => absurd hslash hbackslash
  rw [if_neg hprintable]
  have hbounds := char_bounds c
  by_cases hshort : c.toNat < 0x10000
  · rw [if_pos hshort, unitsOf, if_pos hshort, scanString_unicodeEscape hshort]
    rfl
  · have hunits : unitsOf c = [0xd800 + (c.toNat - 0x10000) / 1024,
        0xdc00 + (c.toNat - 0x10000) % 1024] := if_neg hshort
    rw [if_neg hshort, hunits, List.append_assoc, scanString_unicodeEscape (by omega),
      scanString_unicodeEscape (by omega)]
    cases scanString rest with
    | none => rfl
    | some p => rfl

/-- A quoted string is read back as the code points of its characters. -/
theorem scanString_quoted (s rest : Text) :
    scanString (s.flatMap escapeChar ++ '"' :: rest) = some (s.flatMap unitsOf, rest) := by
  induction s with
  | nil => rfl
  | cons c s ih =>
      rw [List.flatMap_cons, List.append_assoc, scanString_escapeChar, ih, Option.map_some,
        List.flatMap_cons]

theorem charOf_toNat (c : Char) : charOf c.toNat = c := by
  have hvalid : c.toNat.isValidChar := c.valid
  rw [charOf, if_pos hvalid, Char.ofNat_toNat]

/-- The code points of a character are joined to it. -/
theorem joinSurrogates_unitsOf (c : Char) (rest : List Nat) :
    joinSurrogates (unitsOf c ++ rest) = c :: joinSurrogates rest := by
  have hbounds := char_bounds c
  unfold unitsOf
  by_cases hshort : c.toNat < 0x10000
  · rw [if_pos hshort, List.singleton_append]
    have hlone : isHighSurrogate c.toNat = false := by
      unfold isHighSurrogate
      rw [Bool.and_eq_false_iff, decide_eq_false_iff_not, decide_eq_false_iff_not]
      omega
    cases rest with
    | nil =>
        show [charOf c.toNat] = [c]
        rw [charOf_toNat]
    | cons low rest =>
        rw [joinSurrogates, hlone, Bool.false_and, if_neg Bool.false_ne_true, charOf_toNat]
  · rw [if_neg hshort]
    show joinSurrogates (_ :: _ :: rest) = _
    have hhigh : isHighSurrogate (0xd800 + (c.toNat - 0x10000) / 1024) = true := by
      unfold isHighSurrogate
      rw [Bool.and_eq_true, decide_eq_true_eq, decide_eq_true_eq]
      omega
    have hlow : isLowSurrogate (0xdc00 + (c.toNat - 0x10000) % 1024) = true := by
      unfold isLowSurrogate
      rw [Bool.and_eq_true, decide_eq_true_eq, decide_eq_true_eq]
      omega
    have hjoin : 0x10000 + (0xd800 + (c.toNat - 0x10000) / 1024 - 0xd800) * 1024 +
        (0xdc00 + (c.toNat - 0x10000) % 1024 - 0xdc00) = c.toNat := by
      omega
    rw [joinSurrogates, hhigh, hlow, Bool.and_self, if_pos rfl, hjoin, charOf_toNat]

theorem joinSurrogates_flatMap (s : Text) : joinSurrogates (s.flatMap unitsOf) = s := by
  induction s with
  | nil => rfl
  | cons c s ih => rw [List.flatMap_cons, joinSurrogates_unitsOf, ih]

end Strings

section Members

theorem expect_cons_self (c : Char) (rest : Text) : expect c (c :: rest) = some rest := if_pos rfl

theorem expect_cons_of_ne {c d : Char} (rest : Text) (h : d ≠ c) : expect c (d :: rest) = none :=
  if_neg h

theorem skipSpace_cons {c : Char} (rest : Text)
    (h : (c = ' ' || c = '\t' || c = '\n' || c = '\r') = false) :
    skipSpace (c :: rest) = c :: rest :=
  List.dropWhile_cons_of_neg (by rw [h]; exact Bool.false_ne_true)

theorem quote_append (s rest : Text) :
    quote s ++ rest = '"' :: (s.flatMap escapeChar ++ '"' :: rest) := by
  simp [quote]

theorem parseValue_quote (fuel : Nat) (s rest : Text) :
    parseValue (fuel + 1) (quote s ++ rest) = some (.str s, rest) := by
  rw [quote_append, parseValue, expect_cons_self]
  dsimp only
  rw [scanString_quoted, Option.map_some, joinSurrogates_flatMap]

/-- One member is read, and the rest where a comma follows. -/
theorem parseMembers_member (fuel : Nat) (field : Text × Text) (tail : Text) :
    parseMembers (fuel + 1 + 1) (quote field.1 ++ (": ".toList ++ (quote field.2 ++ tail))) =
      match expect '\x7d' (skipSpace tail) with
      | some rest => some ([(field.1, some field.2)], rest)
      | none =>
          (expect ',' (skipSpace tail)).bind fun rest =>
            (parseMembers (fuel + 1) (skipSpace rest)).map fun p =>
              ((field.1, some field.2) :: p.1, p.2) := by
  have hcolon : skipSpace (": ".toList ++ (quote field.2 ++ tail)) =
      ':' :: ' ' :: (quote field.2 ++ tail) := skipSpace_cons _ (by decide)
  have hvalue : skipSpace (' ' :: (quote field.2 ++ tail)) = quote field.2 ++ tail := by
    rw [quote_append]
    rfl
  rw [quote_append, parseMembers, expect_cons_self, Option.bind_some, scanString_quoted,
    Option.bind_some]
  dsimp only
  rw [hcolon, expect_cons_self, Option.bind_some, hvalue, parseValue_quote, Option.bind_some,
    joinSurrogates_flatMap]
  rfl

/-- The members of a dictionary are read back. -/
theorem parseMembers_renderMembers {fields : List (Text × Text)} (hne : fields ≠ []) {fuel : Nat}
    (hfuel : fields.length < fuel) (rest : Text) :
    parseMembers fuel (renderMembers fields ++ rest) =
      some (fields.map fun field => (field.1, some field.2), rest) := by
  induction fields generalizing fuel with
  | nil => exact absurd rfl hne
  | cons field fields ih =>
      rw [List.length_cons] at hfuel
      obtain ⟨less, hsame⟩ : ∃ less, fuel = less + 1 + 1 := ⟨fuel - 2, by omega⟩
      rw [hsame]
      cases fields with
      | nil =>
          have hmembers : renderMembers [field] ++ rest =
              quote field.1 ++ (": ".toList ++ (quote field.2 ++ ('\n' :: '\x7d' :: rest))) := by
            simp [renderMembers]
          have hspace : skipSpace ('\n' :: '\x7d' :: rest) = '\x7d' :: rest := rfl
          rw [hmembers, parseMembers_member, hspace, expect_cons_self]
          rfl
      | cons other fields =>
          have hmembers : renderMembers (field :: other :: fields) ++ rest =
              quote field.1 ++ (": ".toList ++ (quote field.2 ++
                (',' :: '\n' :: ' ' :: ' ' :: (renderMembers (other :: fields) ++ rest)))) := by
            simp [renderMembers]
          have hopen : ∃ tail, renderMembers (other :: fields) ++ rest = '"' :: tail := by
            cases fields with
            | nil => exact ⟨_, rfl⟩
            | cons last fields => exact ⟨_, rfl⟩
          have hspace : skipSpace ('\n' :: ' ' :: ' ' :: (renderMembers (other :: fields) ++ rest)) =
              renderMembers (other :: fields) ++ rest := by
            obtain ⟨tail, htail⟩ := hopen
            rw [htail]
            rfl
          have hfuel' : (other :: fields).length < less + 1 := by omega
          rw [hmembers, parseMembers_member, skipSpace_cons _ (by decide),
            expect_cons_of_ne _ (by decide), expect_cons_self]
          dsimp only
          rw [Option.bind_some, hspace, ih (List.cons_ne_nil _ _) hfuel']
          rfl

theorem length_le_renderMembers (fields : List (Text × Text)) :
    fields.length ≤ (renderMembers fields).length := by
  induction fields with
  | nil => exact Nat.le_refl 0
  | cons field fields ih =>
      cases fields with
      | nil => simp [renderMembers, quote]
      | cons other fields =>
          have hquote : 0 < (quote field.1).length := by simp [quote]
          simp only [renderMembers, List.length_append, List.length_cons] at ih ⊢
          omega

/-- A dictionary of texts is read back. -/
theorem loads_render (fields : List (Text × Text)) :
    loads (render fields) = some (.dict (fields.map fun field => (field.1, some field.2))) := by
  by_cases hne : fields = []
  · rw [hne]
    rfl
  · have hrender : render fields = '\x7b' :: '\n' :: ' ' :: ' ' :: renderMembers fields := if_neg hne
    have hopen : ∃ tail, renderMembers fields = '"' :: tail := by
      cases fields with
      | nil => exact absurd rfl hne
      | cons field fields =>
          cases fields with
          | nil => exact ⟨_, rfl⟩
          | cons other fields => exact ⟨_, rfl⟩
    obtain ⟨tail, htail⟩ := hopen
    have hspace : skipSpace ('\n' :: ' ' :: ' ' :: renderMembers fields) = renderMembers fields := by
      rw [htail]
      rfl
    have hlength : fields.length < (render fields).length := by
      have hle := length_le_renderMembers fields
      rw [hrender]
      simp only [List.length_cons]
      omega
    have hmembers := parseMembers_renderMembers hne hlength []
    rw [List.append_nil] at hmembers
    unfold loads
    rw [show skipSpace (render fields) = render fields by rw [hrender]; rfl, parseValue]
    rw [show expect '"' (render fields) = none by rw [hrender]; rfl,
      show expect '\x7b' (render fields) = some ('\n' :: ' ' :: ' ' :: renderMembers fields) by
        rw [hrender]; rfl]
    dsimp only
    rw [hspace, show expect '\x7d' (renderMembers fields) = none by rw [htail]; rfl]
    dsimp only
    rw [hmembers]
    rfl

/-- The fields of a dictionary, in the order of their keys, are read back. -/
theorem loads_dumps (fields : List (Text × Text)) :
    loads (dumps fields) = some (.dict
      ((fields.insertionSort fun field other => field.1 ≤ other.1).map fun field =>
        (field.1, some field.2))) :=
  loads_render _

end Members

section LineEnds

theorem return_not_mem_unicodeEscape {n : Nat} (h : n < 0x10000) : '\r' ∉ unicodeEscape n := by
  have hdigit : ∀ n < 16, hexDigit n ≠ '\r' := by decide
  have hfirst := hdigit (n / 4096) (by omega)
  have hsecond := hdigit (n / 256 % 16) (by omega)
  have hthird := hdigit (n / 16 % 16) (by omega)
  have hlast := hdigit (n % 16) (by omega)
  unfold unicodeEscape
  simp [hfirst.symm, hsecond.symm, hthird.symm, hlast.symm]

theorem return_not_mem_escapeChar (c : Char) : '\r' ∉ escapeChar c := by
  have hbounds := char_bounds c
  unfold escapeChar
  split_ifs with hquote hslash hline hreturn htab hfeed hback hplain hshort
  · simp
  · simp
  · simp
  · simp
  · simp
  · simp
  · simp
  · have hne : '\r' ≠ c := Ne.symm hreturn
    simp [hne]
  · exact return_not_mem_unicodeEscape hshort
  · rw [List.mem_append, not_or]
    exact ⟨return_not_mem_unicodeEscape (by omega), return_not_mem_unicodeEscape (by omega)⟩

theorem return_not_mem_quote (s : Text) : '\r' ∉ quote s := by
  have hbody : '\r' ∉ s.flatMap escapeChar := by
    intro hmem
    obtain ⟨c, -, hc⟩ := List.mem_flatMap.mp hmem
    exact return_not_mem_escapeChar c hc
  simp [quote, hbody]

/-- A written dictionary has no carriage return. -/
theorem return_not_mem_dumps (fields : List (Text × Text)) : '\r' ∉ dumps fields := by
  have hmembers : ∀ fields : List (Text × Text), '\r' ∉ renderMembers fields := by
    intro fields
    induction fields with
    | nil => simp [renderMembers]
    | cons field fields ih =>
        have hkey := return_not_mem_quote field.1
        have hvalue := return_not_mem_quote field.2
        cases fields with
        | nil => simp [renderMembers, hkey, hvalue]
        | cons other fields => simp [renderMembers, hkey, hvalue, ih]
  unfold dumps render
  split
  · decide
  · simp [hmembers]

end LineEnds

section Get

theorem lookup_eq_some_iff {β : Type*} {fields : List (Text × β)}
    (hkeys : (fields.map Prod.fst).Nodup) {key : Text} {value : β} :
    fields.lookup key = some value ↔ (key, value) ∈ fields := by
  induction fields with
  | nil => simp
  | cons field fields ih =>
      obtain ⟨hnot, hrest⟩ := List.nodup_cons.mp (List.map_cons ▸ hkeys)
      rw [List.lookup_cons, List.mem_cons]
      by_cases hsame : key = field.1
      · have habsent : (key, value) ∉ fields := by
          intro hmem
          exact hnot (hsame ▸ List.mem_map_of_mem hmem)
        rw [beq_iff_eq.mpr hsame]
        constructor
        · intro h
          exact Or.inl (Prod.ext hsame (Option.some.inj h).symm)
        · intro h
          rcases h with hhead | htail
          · rw [← hhead]
          · exact absurd htail habsent
      · rw [beq_eq_false_iff_ne.mpr hsame]
        dsimp only
        rw [ih hrest]
        constructor
        · exact Or.inr
        · intro h
          rcases h with hhead | htail
          · exact absurd (congrArg Prod.fst hhead) hsame
          · exact htail

/-- What a dictionary with distinct keys says of a key, after it was written and read. -/
theorem get_dumps {fields : List (Text × Text)} (hkeys : (fields.map Prod.fst).Nodup)
    (key : Text) :
    ∃ read, loads (dumps fields) = some (.dict read) ∧ get read key = fields.lookup key := by
  have hperm := List.perm_insertionSort (fun field other : Text × Text => field.1 ≤ other.1) fields
  refine ⟨_, loads_dumps fields, ?_⟩
  generalize fields.insertionSort (fun field other => field.1 ≤ other.1) = sorted at hperm
  have hread : ((sorted.map fun field => (field.1, some field.2)).map Prod.fst) =
      sorted.map Prod.fst := by
    rw [List.map_map]
    rfl
  have hsorted : (sorted.map Prod.fst).Nodup := (hperm.map Prod.fst).nodup_iff.mpr hkeys
  have hreverse : ((sorted.map fun field => (field.1, some field.2)).reverse.map Prod.fst).Nodup := by
    rw [List.map_reverse, List.nodup_reverse, hread]
    exact hsorted
  unfold get
  ext value
  rw [lookup_eq_some_iff hkeys, Option.bind_eq_some_iff, ← hperm.mem_iff]
  constructor
  · intro h
    obtain ⟨found, hfound, hsame⟩ := h
    rw [lookup_eq_some_iff hreverse, List.mem_reverse, List.mem_map] at hfound
    obtain ⟨field, hmem, hpair⟩ := hfound
    cases hpair
    have hvalue : field.2 = value := Option.some.inj hsame
    rw [← hvalue]
    exact hmem
  · intro hmem
    refine ⟨some value, ?_, rfl⟩
    rw [lookup_eq_some_iff hreverse, List.mem_reverse, List.mem_map]
    exact ⟨(key, value), hmem, rfl⟩

end Get

end M8flow.Lib.JsonText
