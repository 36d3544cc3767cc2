import M8flow.Lib.JsonText
import M8flow.Lib.Digits

/-!
# JSON values on the wire

`json.dumps` and `json.loads` for all values.  A string is a list of code points, which may be
surrogates; what a reader makes of two `\u` escapes that are a surrogate pair is one code
point.  Floats are of a type with a `repr` and its reader.

- `Value.sound`: the strings, the integers and the keys that a reader leaves in a value.
- `loads_render`: a sound value is read back, with any white space after the separators.
-/

namespace M8flow.Lib.JsonWire

open JsonText

/-- A text as Python has it: code points, with surrogates among them. -/
abbrev Str := List Nat

/-- The code points of a text without surrogates. -/
def codes (s : Text) : Str := s.map Char.toNat

/-! ## Strings -/

/-- The code points of the units of a string, a surrogate pair being one. -/
def joinPairs : List Nat → Str
  | [] => []
  | [n] => [n]
  | high :: low :: rest =>
      if isHighSurrogate high && isLowSurrogate low then
        (0x10000 + (high - 0xd800) * 1024 + (low - 0xdc00)) :: joinPairs rest
      else high :: joinPairs (low :: rest)

/-- The units that a code point is written with. -/
def units (n : Nat) : List Nat :=
  if n < 0x10000 then [n] else [0xd800 + (n - 0x10000) / 1024, 0xdc00 + (n - 0x10000) % 1024]

/-- A code point in a string, with everything escaped that is not printable ASCII. -/
def escapeCode (n : Nat) : Text :=
  if n.isValidChar then escapeChar (Char.ofNat n) else unicodeEscape n

/-- A string with its quotes. -/
def quoteStr (s : Str) : Text := '"' :: (s.flatMap escapeCode ++ ['"'])

/-- Code points, none of which joins the one after it. -/
def joined : Str → Bool
  | [] => true
  | [n] => n < 0x110000
  | n :: m :: rest =>
      n < 0x110000 && !(isHighSurrogate n && isLowSurrogate m) && joined (m :: rest)

theorem toNat_ofNat {n : Nat} (h : n.isValidChar) : (Char.ofNat n).toNat = n := by
  unfold Char.ofNat
  rw [dif_pos h]
  rfl

theorem scanString_escapeCode {n : Nat} (h : n < 0x110000) (rest : Text) :
    scanString (escapeCode n ++ rest) = (scanString rest).map fun p => (units n ++ p.1, p.2) := by
  unfold escapeCode
  by_cases hvalid : n.isValidChar
  · have hcode : (Char.ofNat n).toNat = n := toNat_ofNat hvalid
    have hunits : unitsOf (Char.ofNat n) = units n := by
      unfold unitsOf units
      rw [hcode]
    rw [if_pos hvalid, scanString_escapeChar, hunits]
  · have hsmall : n < 0x10000 := by
      unfold Nat.isValidChar at hvalid
      omega
    have hunits : units n = [n] := if_pos hsmall
    rw [if_neg hvalid, scanString_unicodeEscape hsmall, hunits]
    rfl

/-- A quoted string is read as the units of its code points. -/
theorem scanString_quoteStr {s : Str} (h : ∀ n ∈ s, n < 0x110000) (rest : Text) :
    scanString (s.flatMap escapeCode ++ '"' :: rest) = some (s.flatMap units, rest) := by
  induction s with
  | nil => rfl
  | cons n s ih =>
      rw [List.flatMap_cons, List.append_assoc, scanString_escapeCode (h n List.mem_cons_self),
        ih fun m hmem => h m (List.mem_cons_of_mem _ hmem), Option.map_some, List.flatMap_cons]

theorem joined_cons {n : Nat} {s : Str} (h : joined (n :: s)) :
    n < 0x110000 ∧ joined s ∧ ∀ m ∈ s.head?, ¬ (isHighSurrogate n && isLowSurrogate m) := by
  cases s with
  | nil =>
      refine ⟨of_decide_eq_true h, rfl, ?_⟩
      intro m hmem
      cases hmem
  | cons m s =>
      unfold joined at h
      rw [Bool.and_eq_true, Bool.and_eq_true, decide_eq_true_eq] at h
      refine ⟨h.1.1, h.2, fun other hmem => ?_⟩
      rw [← Option.some.inj hmem]
      intro hpair
      rw [hpair] at h
      exact absurd h.1.2 Bool.false_ne_true

theorem lt_of_joined {s : Str} (h : joined s) : ∀ n ∈ s, n < 0x110000 := by
  induction s with
  | nil => exact fun _ hmem => absurd hmem List.not_mem_nil
  | cons n s ih =>
      obtain ⟨hn, hs, -⟩ := joined_cons h
      exact List.forall_mem_cons.mpr ⟨hn, ih hs⟩

/-- The first unit of a code point joins nothing that the code point does not join. -/
theorem joinPairs_units {n : Nat} (hn : n < 0x110000) {rest : List Nat}
    (h : ∀ m ∈ rest.head?, ¬ (isHighSurrogate n && isLowSurrogate m)) :
    joinPairs (units n ++ rest) = n :: joinPairs rest := by
  unfold units
  by_cases hshort : n < 0x10000
  · rw [if_pos hshort, List.singleton_append]
    cases rest with
    | nil => rfl
    | cons m rest => rw [joinPairs, if_neg (h m rfl)]
  · rw [if_neg hshort]
    show joinPairs (_ :: _ :: rest) = _
    have hhigh : isHighSurrogate (0xd800 + (n - 0x10000) / 1024) = true := by
      unfold isHighSurrogate
      rw [Bool.and_eq_true, decide_eq_true_eq, decide_eq_true_eq]
      omega
    have hlow : isLowSurrogate (0xdc00 + (n - 0x10000) % 1024) = true := by
      unfold isLowSurrogate
      rw [Bool.and_eq_true, decide_eq_true_eq, decide_eq_true_eq]
      omega
    have hjoin : 0x10000 + (0xd800 + (n - 0x10000) / 1024 - 0xd800) * 1024 +
        (0xdc00 + (n - 0x10000) % 1024 - 0xdc00) = n := by
      omega
    rw [joinPairs, hhigh, hlow, Bool.and_self, if_pos rfl, hjoin]

/-- The first unit of a code point is low only if the code point is. -/
theorem head_units {n m : Nat} {rest : List Nat} (hn : n < 0x110000)
    (h : m ∈ (units n ++ rest).head?) (hlow : isLowSurrogate m) : m = n := by
  unfold units at h
  by_cases hshort : n < 0x10000
  · rw [if_pos hshort] at h
    exact (Option.some.inj h).symm
  · rw [if_neg hshort] at h
    rw [← Option.some.inj h] at hlow
    unfold isLowSurrogate at hlow
    rw [Bool.and_eq_true, decide_eq_true_eq, decide_eq_true_eq] at hlow
    -- the first unit is a high surrogate
    omega

theorem joinPairs_flatMap {s : Str} (h : joined s) : joinPairs (s.flatMap units) = s := by
  induction s with
  | nil => rfl
  | cons n s ih =>
      obtain ⟨hn, hs, hapart⟩ := joined_cons h
      rw [List.flatMap_cons, joinPairs_units hn ?_, ih hs]
      intro m hmem hpair
      rw [Bool.and_eq_true] at hpair
      cases s with
      | nil => cases hmem
      | cons k s =>
          rw [List.flatMap_cons] at hmem
          have hsame := head_units (joined_cons hs).1 hmem hpair.2
          rw [hsame] at hpair
          exact hapart k rfl (Bool.and_eq_true _ _ ▸ hpair)

/-! ## Numbers -/

/-- One or more digits. -/
def Digits (s : Text) : Prop := s ≠ [] ∧ ∀ c ∈ s, isAsciiDigit c

/-- A fraction and an exponent, of which at least one is there. -/
inductive Tail : Text → Prop where
  | fraction {digits : Text} (h : Digits digits) : Tail ('.' :: digits)
  | exponent {sign digits : Text} (hsign : sign = [] ∨ sign = ['+'] ∨ sign = ['-'])
      (h : Digits digits) : Tail ('e' :: (sign ++ digits))
  | both {digits sign exponent : Text} (h : Digits digits)
      (hsign : sign = [] ∨ sign = ['+'] ∨ sign = ['-']) (hexponent : Digits exponent) :
      Tail ('.' :: (digits ++ 'e' :: (sign ++ exponent)))

/-- The digits before the fraction. -/
def Whole (s : Text) : Prop := Digits s ∧ (s = ['0'] ∨ s.head? ≠ some '0')

/-- A finite float as `repr` writes it. -/
inductive Spelled : Text → Prop where
  | plain {whole tail : Text} (h : Whole whole) (htail : Tail tail) : Spelled (whole ++ tail)
  | minus {whole tail : Text} (h : Whole whole) (htail : Tail tail) :
      Spelled ('-' :: (whole ++ tail))

/-- The floats: `float.__repr__` as JSON has it, and `float` of a number with a fraction or an
exponent. -/
structure FloatFormat (φ : Type) where
  repr : φ → Text
  read : Text → φ
  nan : φ
  infinity : φ
  minusInfinity : φ
  reads : ∀ x, (repr x = "NaN".toList ∧ x = nan) ∨ (repr x = "Infinity".toList ∧ x = infinity) ∨
    (repr x = "-Infinity".toList ∧ x = minusInfinity) ∨ (Spelled (repr x) ∧ read (repr x) = x)

/-! ## Values -/

/-- A JSON value; an object is a dictionary in its order. -/
inductive Value (φ : Type) where
  | null
  | bool (b : Bool)
  | int (n : Int)
  | float (x : φ)
  | str (s : Str)
  | arr (items : List (Value φ))
  | obj (fields : List (Str × Value φ))

variable {φ : Type}

/-- Induction on a value, on the elements of a list and on the members of an object. -/
theorem Value.induct {P : Value φ → Prop} {Q : List (Value φ) → Prop}
    {R : List (Str × Value φ) → Prop}
    (null : P .null) (bool : ∀ b, P (.bool b)) (int : ∀ n, P (.int n))
    (float : ∀ x, P (.float x)) (str : ∀ s, P (.str s))
    (arr : ∀ items, Q items → P (.arr items)) (obj : ∀ fields, R fields → P (.obj fields))
    (nilItems : Q []) (consItem : ∀ item items, P item → Q items → Q (item :: items))
    (nilFields : R [])
    (consField : ∀ key value fields, P value → R fields → R ((key, value) :: fields)) :
    (∀ value, P value) ∧ (∀ items, Q items) ∧ ∀ fields, R fields := by
  have hvalue : ∀ value, P value := fun value =>
    @Value.rec φ P Q R (fun field => P field.2) null bool int float str arr obj nilItems
      consItem nilFields (fun field fields => consField field.1 field.2 fields)
      (fun _ _ hvalue => hvalue) value
  refine ⟨hvalue, ?_, ?_⟩
  · intro items
    induction items with
    | nil => exact nilItems
    | cons item items ih => exact consItem item items (hvalue item) ih
  · intro fields
    induction fields with
    | nil => exact nilFields
    | cons field fields ih => exact consField field.1 field.2 fields (hvalue field.2) ih

/-! ## Writing -/

/-- `int.__repr__`. -/
def intRepr : Int → Text
  | .ofNat n => Text.ofNat n
  | .negSucc n => '-' :: Text.ofNat (n + 1)

section Writing

variable (format : FloatFormat φ) (gap : Text)

mutual

/-- `json.dumps(value, separators=("," + gap, ":" + gap))`. -/
def render : Value φ → Text
  | .null => "null".toList
  | .bool true => "true".toList
  | .bool false => "false".toList
  | .int n => intRepr n
  | .float x => format.repr x
  | .str s => quoteStr s
  | .arr [] => "[]".toList
  | .arr (item :: items) => '[' :: (render item ++ renderItems items)
  | .obj [] => "\x7b\x7d".toList
  | .obj ((key, value) :: fields) =>
      '\x7b' :: (quoteStr key ++ ':' :: (gap ++ (render value ++ renderFields fields)))

/-- The elements after the first one, and the closing bracket. -/
def renderItems : List (Value φ) → Text
  | [] => "]".toList
  | item :: items => ',' :: (gap ++ (render item ++ renderItems items))

/-- The members after the first one, and the closing brace. -/
def renderFields : List (Str × Value φ) → Text
  | [] => "\x7d".toList
  | (key, value) :: fields =>
      ',' :: (gap ++ (quoteStr key ++ ':' :: (gap ++ (render value ++ renderFields fields))))

end

end Writing

/-! ## Reading -/

/-- `d[key] = value`: a key keeps the place where it came first. -/
def setField (fields : List (Str × Value φ)) (field : Str × Value φ) : List (Str × Value φ) :=
  if fields.any fun entry => entry.1 = field.1 then
    fields.map fun entry => if entry.1 = field.1 then field else entry
  else fields ++ [field]

/-- The dictionary of members. -/
def dictOf (members : List (Str × Value φ)) : List (Str × Value φ) := members.foldl setField []

/-- The integer of a sign and digits. -/
def intOf (negative : Bool) (digits : Text) : Int :=
  if negative then -(Nat.ofDigitChars 10 digits 0 : Int) else Nat.ofDigitChars 10 digits 0

section Reading

variable (format : FloatFormat φ)

/-- Read a number; an integer has at most as many digits as `int` accepts. -/
def parseNumber (s : Text) : Option (Value φ × Text) :=
  let negative := ['-'].isPrefixOf s
  let body := if negative then s.drop 1 else s
  let digits := if ['0'].isPrefixOf body then ['0'] else body.takeWhile isAsciiDigit
  if digits = [] then none
  else
    let (seen, rest) := skipFraction (body.drop digits.length)
    if seen then some (.float (format.read (s.take (s.length - rest.length))), rest)
    else if digits.length ≤ Text.intMaxStrDigits then some (.int (intOf negative digits), rest)
    else none

/-- The words and their values. -/
def words : List (String × Value φ) :=
  [("null", .null), ("true", .bool true), ("false", .bool false), ("NaN", .float format.nan),
    ("Infinity", .float format.infinity), ("-Infinity", .float format.minusInfinity)]

/-- A value that is no string, object or list. -/
def parseLiteral (s : Text) : Option (Value φ × Text) :=
  match (words format).find? fun word => word.1.toList.isPrefixOf s with
  | some word => some (word.2, s.drop word.1.length)
  | none => parseNumber format s

mutual

/-- Read a value. -/
def parseValue : (fuel : Nat) → Text → Option (Value φ × Text)
  | 0, _ => none
  | fuel + 1, s =>
      match expect '"' s with
      | some rest => (scanString rest).map fun p => (.str (joinPairs p.1), p.2)
      | none =>
          match expect '\x7b' s with
          | some rest =>
              match expect '\x7d' (skipSpace rest) with
              | some rest => some (.obj [], rest)
              | none => (parseMembers fuel (skipSpace rest)).map fun p => (.obj (dictOf p.1), p.2)
          | none =>
              match expect '[' s with
              | some rest =>
                  match expect ']' (skipSpace rest) with
                  | some rest => some (.arr [], rest)
                  | none => (parseItems fuel (skipSpace rest)).map fun p => (.arr p.1, p.2)
              | none => parseLiteral format s

/-- Read the members of an object, up to its closing brace. -/
def parseMembers : (fuel : Nat) → Text → Option (List (Str × Value φ) × Text)
  | 0, _ => none
  | fuel + 1, s =>
      (expect '"' s).bind fun rest =>
        (scanString rest).bind fun key =>
          (expect ':' (skipSpace key.2)).bind fun rest =>
            (parseValue fuel (skipSpace rest)).bind fun value =>
              match expect '\x7d' (skipSpace value.2) with
              | some rest => some ([(joinPairs key.1, value.1)], rest)
              | none =>
                  (expect ',' (skipSpace value.2)).bind fun rest =>
                    (parseMembers fuel (skipSpace rest)).map fun p =>
                      ((joinPairs key.1, value.1) :: p.1, p.2)

/-- Read the elements of a list, up to its closing bracket. -/
def parseItems : (fuel : Nat) → Text → Option (List (Value φ) × Text)
  | 0, _ => none
  | fuel + 1, s =>
      (parseValue fuel s).bind fun value =>
        match expect ']' (skipSpace value.2) with
        | some rest => some ([value.1], rest)
        | none =>
            (expect ',' (skipSpace value.2)).bind fun rest =>
              (parseItems fuel (skipSpace rest)).map fun p => (value.1 :: p.1, p.2)

end

/-- `json.loads`: nothing stands for the `ValueError`. -/
def loads (s : Text) : Option (Value φ) :=
  (parseValue format (s.length + 1) (skipSpace s)).bind fun p =>
    if skipSpace p.2 = [] then some p.1 else none

end Reading

/-! ## Sound values -/

mutual

/-- What a reader leaves: joined strings, integers that `int` accepts, and keys that differ. -/
def Value.sound : Value φ → Bool
  | .null => true
  | .bool _ => true
  | .int n => (Text.ofNat n.natAbs).length ≤ Text.intMaxStrDigits
  | .float _ => true
  | .str s => joined s
  | .arr items => soundItems items
  | .obj fields => soundFields fields && (fields.map Prod.fst).Nodup

def soundItems : List (Value φ) → Bool
  | [] => true
  | item :: items => item.sound && soundItems items

def soundFields : List (Str × Value φ) → Bool
  | [] => true
  | (key, value) :: fields => joined key && value.sound && soundFields fields

end

/-! ## Reading numbers back -/

/-- A character at which a number is over. -/
def stops (c : Char) : Bool := !isAsciiDigit c && c ≠ '.' && c ≠ 'e' && c ≠ 'E'

/-- The text does not go on with a number. -/
def Stops (rest : Text) : Prop := ∀ c ∈ rest.head?, stops c

section Numbers

variable {format : FloatFormat φ} {rest : Text}

theorem stops_nil : Stops [] := by
  intro c hmem
  cases hmem

theorem stops_cons {c : Char} (h : stops c) (rest : Text) : Stops (c :: rest) := by
  intro d hmem
  rw [← Option.some.inj hmem]
  exact h

theorem not_digit_of_stops (h : Stops rest) : ∀ c ∈ rest.head?, ¬ isAsciiDigit c := by
  intro c hmem hdigit
  have hstops := h c hmem
  unfold stops at hstops
  rw [hdigit] at hstops
  exact absurd hstops (by simp)

theorem takeWhile_digits {s : Text} (hs : ∀ c ∈ s, isAsciiDigit c)
    (hrest : ∀ c ∈ rest.head?, ¬ isAsciiDigit c) :
    (s ++ rest).takeWhile isAsciiDigit = s ∧ (s ++ rest).dropWhile isAsciiDigit = rest := by
  rw [List.takeWhile_append_of_pos hs, List.dropWhile_append_of_pos hs]
  cases rest with
  | nil => exact ⟨by simp, rfl⟩
  | cons c rest =>
      have hc := hrest c rfl
      exact ⟨by rw [List.takeWhile_cons_of_neg hc, List.append_nil],
        List.dropWhile_cons_of_neg hc⟩

theorem skipDigits_append {s : Text} (hs : Digits s)
    (hrest : ∀ c ∈ rest.head?, ¬ isAsciiDigit c) : skipDigits (s ++ rest) = some rest := by
  obtain ⟨htake, hdrop⟩ := takeWhile_digits hs.2 hrest
  unfold skipDigits
  rw [htake, hdrop, if_neg hs.1]

/-- The fraction alone. -/
def fractionOf (s : Text) : Bool × Text :=
  (match s with
    | '.' :: rest => (skipDigits rest).map fun rest => (true, rest)
    | _ => none).getD (false, s)

/-- The exponent alone. -/
def exponentOf (s : Text) : Option (Bool × Text) :=
  match s with
  | 'e' :: '+' :: rest | 'e' :: '-' :: rest | 'E' :: '+' :: rest | 'E' :: '-' :: rest
  | 'e' :: rest | 'E' :: rest => (skipDigits rest).map fun rest => (true, rest)
  | _ => none

theorem skipFraction_eq (s : Text) :
    skipFraction s = (exponentOf (fractionOf s).2).getD (fractionOf s) := rfl

theorem fractionOf_digits {digits : Text} (h : Digits digits)
    (hrest : ∀ c ∈ rest.head?, ¬ isAsciiDigit c) :
    fractionOf ('.' :: (digits ++ rest)) = (true, rest) := by
  have hskip := skipDigits_append h hrest
  show ((skipDigits (digits ++ rest)).map _).getD _ = _
  rw [hskip]
  rfl

theorem fractionOf_other {s : Text} (h : ∀ c ∈ s.head?, c ≠ '.') : fractionOf s = (false, s) := by
  unfold fractionOf
  split
  · exact absurd rfl (h '.' rfl)
  · rfl

theorem exponentOf_stops (h : Stops rest) : exponentOf rest = none := by
  have hnot : ∀ c ∈ rest.head?, c ≠ 'e' ∧ c ≠ 'E' := by
    intro c hmem
    have hc := h c hmem
    unfold stops at hc
    rw [Bool.and_eq_true, Bool.and_eq_true, decide_eq_true_eq, decide_eq_true_eq] at hc
    exact ⟨hc.1.2, hc.2⟩
  unfold exponentOf
  split
  · exact absurd rfl (hnot _ rfl).1
  · exact absurd rfl (hnot _ rfl).1
  · exact absurd rfl (hnot _ rfl).2
  · exact absurd rfl (hnot _ rfl).2
  · exact absurd rfl (hnot _ rfl).1
  · exact absurd rfl (hnot _ rfl).2
  · rfl

theorem exponentOf_digits {sign digits : Text} (hsign : sign = [] ∨ sign = ['+'] ∨ sign = ['-'])
    (h : Digits digits) (hrest : Stops rest) :
    exponentOf ('e' :: (sign ++ (digits ++ rest))) = some (true, rest) := by
  have hskip := skipDigits_append h (not_digit_of_stops hrest)
  rcases hsign with hnone | hplus | hminus
  · rw [hnone, List.nil_append]
    obtain ⟨c, tail, hdigits⟩ := List.exists_cons_of_ne_nil h.1
    have hdigit : isAsciiDigit c = true := h.2 c (by rw [hdigits]; exact List.mem_cons_self)
    rw [hdigits, List.cons_append] at hskip ⊢
    unfold exponentOf
    split
    · rename_i heq
      cases heq
      exact absurd hdigit (by decide)
    · rename_i heq
      cases heq
      exact absurd hdigit (by decide)
    · rename_i heq
      cases heq
    · rename_i heq
      cases heq
    · rename_i heq
      cases heq
      rw [hskip]
      rfl
    · rename_i heq
      cases heq
    · rename_i hother _
      exact absurd rfl (hother _)
  · rw [hplus]
    show (skipDigits (digits ++ rest)).map _ = _
    rw [hskip]
    rfl
  · rw [hminus]
    show (skipDigits (digits ++ rest)).map _ = _
    rw [hskip]
    rfl

theorem skipFraction_stops (h : Stops rest) : skipFraction rest = (false, rest) := by
  have hdot : ∀ c ∈ rest.head?, c ≠ '.' := by
    intro c hmem
    have hc := h c hmem
    unfold stops at hc
    rw [Bool.and_eq_true, Bool.and_eq_true, Bool.and_eq_true, decide_eq_true_eq] at hc
    exact hc.1.1.2
  rw [skipFraction_eq, fractionOf_other hdot, exponentOf_stops h]
  rfl

theorem skipFraction_tail {tail : Text} (h : Tail tail) (hrest : Stops rest) :
    skipFraction (tail ++ rest) = (true, rest) := by
  cases h with
  | @fraction digits hdigits =>
      rw [List.cons_append, skipFraction_eq,
        fractionOf_digits hdigits (not_digit_of_stops hrest), exponentOf_stops hrest]
      rfl
  | @exponent sign digits hsign hdigits =>
      rw [List.cons_append, List.append_assoc, skipFraction_eq, fractionOf_other (by simp),
        exponentOf_digits hsign hdigits hrest]
      rfl
  | @both digits sign exponent hdigits hsign hexponent =>
      have hassoc : ('.' :: (digits ++ 'e' :: (sign ++ exponent))) ++ rest =
          '.' :: (digits ++ 'e' :: (sign ++ (exponent ++ rest))) := by simp
      rw [hassoc, skipFraction_eq, fractionOf_digits hdigits (by simp [isAsciiDigit]),
        exponentOf_digits hsign hexponent hrest]
      rfl

end Numbers

section Numbers

variable {format : FloatFormat φ} {rest : Text}

/-- The sign of a number. -/
def signText (negative : Bool) : Text := if negative then ['-'] else []

theorem isAsciiDigit_of_isDigit {c : Char} (h : c.isDigit = true) : isAsciiDigit c = true := by
  rw [Char.isDigit_iff_toNat] at h
  unfold isAsciiDigit
  rw [Bool.and_eq_true, decide_eq_true_eq, decide_eq_true_eq]
  exact h

/-- A digit is none of the characters that are not. -/
theorem ne_of_isAsciiDigit {c d : Char} (h : isAsciiDigit c = true) (hd : isAsciiDigit d = false) :
    c ≠ d := by
  intro hsame
  rw [hsame, hd] at h
  exact Bool.false_ne_true h

theorem isPrefixOf_singleton_cons (d c : Char) (s : Text) :
    [d].isPrefixOf (c :: s) = (d == c) := by
  rw [List.isPrefixOf_cons_cons, List.isPrefixOf_nil_left, Bool.and_true]

/-- The digits that a number begins with. -/
theorem digits_whole {whole after : Text} (h : Whole whole)
    (hafter : ∀ c ∈ after.head?, ¬ isAsciiDigit c) :
    (if ['0'].isPrefixOf (whole ++ after) then ['0']
      else (whole ++ after).takeWhile isAsciiDigit) = whole := by
  obtain ⟨c, tail, hwhole⟩ := List.exists_cons_of_ne_nil h.1.1
  rw [hwhole, List.cons_append, isPrefixOf_singleton_cons, ← List.cons_append, ← hwhole]
  by_cases hzero : c = '0'
  · rcases h.2 with hone | hother
    · rw [if_pos (by rw [hzero]; rfl), hone]
    · rw [hwhole, hzero] at hother
      exact absurd rfl hother
  · rw [if_neg (by rw [beq_iff_eq]; exact fun hsame => hzero hsame.symm)]
    exact (takeWhile_digits h.1.2 hafter).1

theorem parseNumber_whole {whole after : Text} (negative seen : Bool) (h : Whole whole)
    (hafter : ∀ c ∈ after.head?, ¬ isAsciiDigit c) (hskip : skipFraction after = (seen, rest)) :
    parseNumber format (signText negative ++ (whole ++ after)) =
      if seen then
        some (.float (format.read ((signText negative ++ (whole ++ after)).take
          ((signText negative ++ (whole ++ after)).length - rest.length))), rest)
      else if whole.length ≤ Text.intMaxStrDigits then some (.int (intOf negative whole), rest)
      else none := by
  have hminus : ['-'].isPrefixOf (signText negative ++ (whole ++ after)) = negative := by
    cases negative with
    | true => rfl
    | false =>
        obtain ⟨c, tail, hwhole⟩ := List.exists_cons_of_ne_nil h.1.1
        have hc : isAsciiDigit c = true := h.1.2 c (hwhole ▸ List.mem_cons_self)
        show ['-'].isPrefixOf (whole ++ after) = false
        rw [hwhole, List.cons_append, isPrefixOf_singleton_cons, beq_eq_false_iff_ne]
        exact (ne_of_isAsciiDigit hc (by decide)).symm
  have hbody : (if negative then (signText negative ++ (whole ++ after)).drop 1
      else signText negative ++ (whole ++ after)) = whole ++ after := by
    cases negative with
    | true => rfl
    | false => rfl
  unfold parseNumber
  dsimp only
  rw [hminus, hbody, digits_whole h hafter, if_neg h.1.1, List.drop_left, hskip]

/-! ### Literals -/

/-- The words are longer than a sign, and there is no digit in them. -/
theorem word_letters {word : String × Value φ} (h : word ∈ words format) :
    2 ≤ word.1.toList.length ∧ ∀ c ∈ word.1.toList, isAsciiDigit c = false := by
  have hall : (["null", "true", "false", "NaN", "Infinity", "-Infinity"].all fun name =>
      decide (2 ≤ name.toList.length) && name.toList.all fun c => !isAsciiDigit c) = true := by
    decide
  have hword := List.all_eq_true.mp hall word.1 (List.mem_map_of_mem (f := Prod.fst) h)
  rw [Bool.and_eq_true, decide_eq_true_eq, List.all_eq_true] at hword
  refine ⟨hword.1, fun c hc => ?_⟩
  have hno := hword.2 c hc
  rwa [Bool.not_eq_true'] at hno

theorem parseLiteral_number {c : Char} (negative : Bool) (h : isAsciiDigit c = true) (s : Text) :
    parseLiteral format (signText negative ++ c :: s) =
      parseNumber format (signText negative ++ c :: s) := by
  have hnone : ((words format).find? fun word =>
      word.1.toList.isPrefixOf (signText negative ++ c :: s)) = none := by
    rw [List.find?_eq_none]
    intro word hmem hprefix
    obtain ⟨hlength, hletters⟩ := word_letters hmem
    obtain ⟨after, hafter⟩ := List.isPrefixOf_iff_prefix.mp hprefix
    have hsign : (signText negative).length < word.1.toList.length := by
      cases negative with
      | true => exact hlength
      | false => exact Nat.lt_of_lt_of_le (by decide) hlength
    have hget : (signText negative ++ c :: s)[(signText negative).length]? = some c :=
      (List.getElem?_append_right (Nat.le_refl _)).trans (by rw [Nat.sub_self]; rfl)
    rw [← hafter, List.getElem?_append_left hsign] at hget
    rw [hletters c (List.mem_of_getElem? hget)] at h
    exact Bool.false_ne_true h
  unfold parseLiteral
  rw [hnone]

theorem ne_nil_of_word {word : String × Value φ} (h : word ∈ words format) :
    word.1.toList ≠ [] := by
  intro hnil
  have hlength := (word_letters h).1
  rw [hnil] at hlength
  exact absurd hlength (by decide)

/-- The words differ in their first letters. -/
theorem parseLiteral_word {word : String × Value φ} (h : word ∈ words format) (rest : Text) :
    parseLiteral format (word.1.toList ++ rest) = some (word.2, rest) := by
  have hfirst : ((words format).map fun word => word.1.toList.head?).Nodup := by
    show ["null".toList.head?, "true".toList.head?, "false".toList.head?, "NaN".toList.head?,
      "Infinity".toList.head?, "-Infinity".toList.head?].Nodup
    decide
  have hfind : ((words format).find? fun other =>
      other.1.toList.isPrefixOf (word.1.toList ++ rest)) = some word := by
    cases hsome : (words format).find? fun other =>
        other.1.toList.isPrefixOf (word.1.toList ++ rest) with
    | none =>
        have hno := List.find?_eq_none.mp hsome word h
        exact absurd (List.isPrefixOf_iff_prefix.mpr (List.prefix_append _ _)) hno
    | some other =>
        have hmem := List.mem_of_find?_eq_some hsome
        have hprefix := List.find?_some hsome
        obtain ⟨after, hafter⟩ := List.isPrefixOf_iff_prefix.mp hprefix
        have hhead := congrArg List.head? hafter
        rw [List.head?_append_of_ne_nil _ (ne_nil_of_word hmem),
          List.head?_append_of_ne_nil _ (ne_nil_of_word h)] at hhead
        rw [List.inj_on_of_nodup_map hfirst hmem h hhead]
  unfold parseLiteral
  rw [hfind]
  show some (word.2, (word.1.toList ++ rest).drop word.1.length) = _
  rw [← String.length_toList, List.drop_left]

/-! ### Numbers and words as they are written -/

theorem head_ofNat {n : Nat} (h : 0 < n) : (Text.ofNat n).head? ≠ some '0' := by
  unfold Text.ofNat
  induction n using Nat.strongRecOn with
  | ind n ih =>
      by_cases hone : n < 10
      · have hall : ∀ n < 10, 0 < n → [n.digitChar].head? ≠ some '0' := by decide
        rw [Nat.toDigits_of_lt_base hone]
        exact hall n hone h
      · have hten : 10 ≤ n := Nat.le_of_not_lt hone
        rw [Nat.toDigits_of_base_le (by decide) hten,
          List.head?_append_of_ne_nil _ Nat.toDigits_ne_nil]
        exact ih (n / 10) (Nat.div_lt_self h (by decide)) (Nat.div_pos hten (by decide))

theorem whole_ofNat (n : Nat) : Whole (Text.ofNat n) := by
  refine ⟨⟨Nat.toDigits_ne_nil, ?_⟩, ?_⟩
  · intro c hc
    exact isAsciiDigit_of_isDigit (Nat.isDigit_of_mem_toDigits (by decide) (by decide) hc)
  · cases n with
    | zero => exact Or.inl rfl
    | succ n => exact Or.inr (head_ofNat (Nat.succ_pos n))

/-- A number with a sign is a literal. -/
theorem parseLiteral_whole {whole : Text} (negative : Bool) (h : Whole whole) (after : Text) :
    parseLiteral format (signText negative ++ (whole ++ after)) =
      parseNumber format (signText negative ++ (whole ++ after)) := by
  obtain ⟨c, tail, hwhole⟩ := List.exists_cons_of_ne_nil h.1.1
  have hc : isAsciiDigit c = true := h.1.2 c (hwhole ▸ List.mem_cons_self)
  rw [hwhole, List.cons_append]
  exact parseLiteral_number negative hc _

theorem parseLiteral_intRepr {n : Int} (h : (Text.ofNat n.natAbs).length ≤ Text.intMaxStrDigits)
    (hrest : Stops rest) : parseLiteral format (intRepr n ++ rest) = some (.int n, rest) := by
  have hsplit : ∃ negative, intRepr n = signText negative ++ Text.ofNat n.natAbs ∧
      intOf negative (Text.ofNat n.natAbs) = n := by
    cases n with
    | ofNat n =>
        refine ⟨false, rfl, ?_⟩
        show ((Nat.ofDigitChars 10 (Nat.toDigits 10 n) 0 : Nat) : Int) = _
        rw [Nat.ofDigitChars_ten_toDigits]
        rfl
    | negSucc n =>
        refine ⟨true, rfl, ?_⟩
        show -((Nat.ofDigitChars 10 (Nat.toDigits 10 (n + 1)) 0 : Nat) : Int) = _
        rw [Nat.ofDigitChars_ten_toDigits]
        rfl
  obtain ⟨negative, hrepr, hvalue⟩ := hsplit
  have hwhole := whole_ofNat n.natAbs
  rw [hrepr, List.append_assoc, parseLiteral_whole negative hwhole,
    parseNumber_whole negative false hwhole (not_digit_of_stops hrest) (skipFraction_stops hrest),
    if_neg Bool.false_ne_true, if_pos h, hvalue]

theorem head_tail {tail : Text} (h : Tail tail) (rest : Text) :
    ∀ c ∈ (tail ++ rest).head?, ¬ isAsciiDigit c := by
  have hdot : ¬ isAsciiDigit '.' := by decide
  have hletter : ¬ isAsciiDigit 'e' := by decide
  intro c hc
  cases h with
  | fraction => exact Option.some.inj hc ▸ hdot
  | exponent => exact Option.some.inj hc ▸ hletter
  | both => exact Option.some.inj hc ▸ hdot

theorem parseLiteral_spelled {text : Text} (h : Spelled text) (hrest : Stops rest) :
    parseLiteral format (text ++ rest) = some (.float (format.read text), rest) := by
  have hsigned : ∃ negative whole tail, text = signText negative ++ (whole ++ tail) ∧
      Whole whole ∧ Tail tail := by
    cases h with
    | plain hwhole htail => exact ⟨false, _, _, rfl, hwhole, htail⟩
    | minus hwhole htail => exact ⟨true, _, _, rfl, hwhole, htail⟩
  obtain ⟨negative, whole, tail, htext, hwhole, htail⟩ := hsigned
  have hassoc : text ++ rest = signText negative ++ (whole ++ (tail ++ rest)) := by
    rw [htext, List.append_assoc, List.append_assoc]
  have htake : (text ++ rest).take ((text ++ rest).length - rest.length) = text := by
    rw [List.length_append, Nat.add_sub_cancel, List.take_left]
  rw [hassoc] at htake ⊢
  rw [parseLiteral_whole negative hwhole,
    parseNumber_whole negative true hwhole (head_tail htail rest) (skipFraction_tail htail hrest),
    if_pos rfl, htake]

theorem parseLiteral_repr (x : φ) (hrest : Stops rest) :
    parseLiteral format (format.repr x ++ rest) = some (.float x, rest) := by
  rcases format.reads x with ⟨hrepr, hx⟩ | ⟨hrepr, hx⟩ | ⟨hrepr, hx⟩ | ⟨hspelled, hread⟩
  · rw [hrepr, hx]
    have hword : ("NaN", Value.float format.nan) ∈ words format := by simp [words]
    exact parseLiteral_word hword rest
  · rw [hrepr, hx]
    have hword : ("Infinity", Value.float format.infinity) ∈ words format := by simp [words]
    exact parseLiteral_word hword rest
  · rw [hrepr, hx]
    have hword : ("-Infinity", Value.float format.minusInfinity) ∈ words format := by simp [words]
    exact parseLiteral_word hword rest
  · have hliteral : parseLiteral format (format.repr x ++ rest) = _ :=
      parseLiteral_spelled hspelled hrest
    rwa [hread] at hliteral

/-- What begins with no letter of a word, no sign and no digit is no literal. -/
theorem parseLiteral_none {c : Char} (hdigit : isAsciiDigit c = false)
    (hletter : c ∉ ['n', 't', 'f', 'N', 'I', '-']) (s : Text) :
    parseLiteral format (c :: s) = none := by
  have hall : (["null", "true", "false", "NaN", "Infinity", "-Infinity"].all fun name =>
      name.toList.head?.all fun d => ['n', 't', 'f', 'N', 'I', '-'].contains d) = true := by
    decide
  have hword : ((words format).find? fun word => word.1.toList.isPrefixOf (c :: s)) = none := by
    rw [List.find?_eq_none]
    intro word hmem hprefix
    have hname := List.all_eq_true.mp hall word.1 (List.mem_map_of_mem (f := Prod.fst) hmem)
    obtain ⟨after, hafter⟩ := List.isPrefixOf_iff_prefix.mp hprefix
    have hhead := congrArg List.head? hafter
    rw [List.head?_append_of_ne_nil _ (ne_nil_of_word hmem)] at hhead
    rw [hhead] at hname
    exact hletter (List.contains_iff_mem.mp hname)
  have hminus : ['-'].isPrefixOf (c :: s) = false := by
    rw [isPrefixOf_singleton_cons, beq_eq_false_iff_ne]
    intro hsame
    rw [← hsame] at hletter
    exact hletter (by decide)
  have hzero : ['0'].isPrefixOf (c :: s) = false := by
    rw [isPrefixOf_singleton_cons, beq_eq_false_iff_ne]
    exact ne_of_isAsciiDigit (by decide) hdigit
  have htake : (c :: s).takeWhile isAsciiDigit = [] :=
    List.takeWhile_cons_of_neg (by rw [hdigit]; exact Bool.false_ne_true)
  unfold parseLiteral
  rw [hword]
  dsimp only
  unfold parseNumber
  dsimp only
  rw [hminus, if_neg Bool.false_ne_true, hzero, if_neg Bool.false_ne_true, htake, if_pos rfl]

/-- The quotes, brackets, braces and white space. -/
def marks : List Char := ['"', '\x7b', '[', ' ', '\t', '\n', '\r', ']', '\x7d']

theorem parseLiteral_mark {c : Char} (h : c ∈ marks) (s : Text) :
    parseLiteral format (c :: s) = none := by
  have hall : (marks.all fun c =>
      !isAsciiDigit c && !(['n', 't', 'f', 'N', 'I', '-'].contains c)) = true := by
    decide
  have hmark := List.all_eq_true.mp hall c h
  rw [Bool.and_eq_true, Bool.not_eq_true', Bool.not_eq_true'] at hmark
  refine parseLiteral_none hmark.1 ?_ s
  intro hmem
  rw [List.contains_iff_mem.mpr hmem] at hmark
  exact Bool.noConfusion hmark.2

/-- A literal is read as a value. -/
theorem parseValue_literal {s : Text} {p : Value φ × Text} (h : parseLiteral format s = some p)
    (fuel : Nat) : parseValue format (fuel + 1) s = some p := by
  cases s with
  | nil =>
      rw [parseValue]
      exact h
  | cons c s =>
      have hmark : ∀ d ∈ marks, c ≠ d := by
        intro d hd hsame
        rw [hsame, parseLiteral_mark hd] at h
        cases h
      rw [parseValue, expect_cons_of_ne s (hmark '"' (by decide)),
        expect_cons_of_ne s (hmark '\x7b' (by decide)), expect_cons_of_ne s (hmark '[' (by decide))]
      exact h

/-- No value begins with white space, a closing bracket or a closing brace. -/
theorem head_of_parseValue {c : Char} {s : Text} {p : Value φ × Text} {fuel : Nat}
    (h : parseValue format fuel (c :: s) = some p) :
    c ∉ [' ', '\t', '\n', '\r', ']', '\x7d'] := by
  intro hmem
  have hall : ([' ', '\t', '\n', '\r', ']', '\x7d'].all fun c =>
      marks.contains c && c ≠ '"' && c ≠ '\x7b' && c ≠ '[') = true := by
    decide
  have hother := List.all_eq_true.mp hall c hmem
  rw [Bool.and_eq_true, Bool.and_eq_true, Bool.and_eq_true, decide_eq_true_eq, decide_eq_true_eq,
    decide_eq_true_eq] at hother
  cases fuel with
  | zero => cases h
  | succ fuel =>
      rw [parseValue, expect_cons_of_ne s hother.1.1.2, expect_cons_of_ne s hother.1.2,
        expect_cons_of_ne s hother.2] at h
      dsimp only at h
      rw [parseLiteral_mark (List.contains_iff_mem.mp hother.1.1.1)] at h
      cases h

end Numbers

/-! ## Reading back what is written -/

/-- A text of white space. -/
def Spaces (gap : Text) : Prop := ∀ c ∈ gap, c ∈ [' ', '\t', '\n', '\r']

theorem skipSpace_append {gap : Text} (h : Spaces gap) (s : Text) :
    skipSpace (gap ++ s) = skipSpace s := by
  apply List.dropWhile_append_of_pos
  intro c hc
  have hall : ([' ', '\t', '\n', '\r'].all fun c =>
      c = ' ' || c = '\t' || c = '\n' || c = '\r') = true := by
    decide
  exact List.all_eq_true.mp hall c (h c hc)

/-- What is read as a value does not begin with white space. -/
theorem skipSpace_value {format : FloatFormat φ} {s : Text} {p : Value φ × Text} {fuel : Nat}
    (h : parseValue format fuel s = some p) : skipSpace s = s := by
  cases s with
  | nil => rfl
  | cons c s =>
      have hout := head_of_parseValue h
      apply skipSpace_cons
      rw [Bool.or_eq_false_iff, Bool.or_eq_false_iff, Bool.or_eq_false_iff, decide_eq_false_iff_not,
        decide_eq_false_iff_not, decide_eq_false_iff_not, decide_eq_false_iff_not]
      simp only [List.mem_cons, not_or] at hout
      exact ⟨⟨⟨hout.1, hout.2.1⟩, hout.2.2.1⟩, hout.2.2.2.1⟩

theorem foldl_setField {members fields : List (Str × Value φ)}
    (h : ((fields ++ members).map Prod.fst).Nodup) :
    members.foldl setField fields = fields ++ members := by
  induction members generalizing fields with
  | nil => exact (List.append_nil fields).symm
  | cons member members ih =>
      have hnew : (fields.any fun entry => entry.1 = member.1) = false := by
        rw [List.any_eq_false]
        intro entry hmem hsame
        rw [List.map_append, List.map_cons, List.nodup_append] at h
        exact h.2.2 entry.1 (List.mem_map_of_mem hmem) member.1 List.mem_cons_self
          (of_decide_eq_true hsame)
      have hadd : setField fields member = fields ++ [member] := by
        unfold setField
        rw [hnew, if_neg Bool.false_ne_true]
      have hassoc : fields ++ [member] ++ members = fields ++ member :: members := by
        rw [List.append_assoc, List.singleton_append]
      rw [List.foldl_cons, hadd, ih (by rw [hassoc]; exact h), hassoc]

/-- Members whose keys differ are a dictionary already. -/
theorem dictOf_eq_self {fields : List (Str × Value φ)} (h : (fields.map Prod.fst).Nodup) :
    dictOf fields = fields := by
  have hrun : fields.foldl setField [] = [] ++ fields := foldl_setField h
  exact hrun

section RoundTrip

variable {format : FloatFormat φ} {gap : Text}

theorem stops_renderItems (items : List (Value φ)) (rest : Text) :
    Stops (renderItems format gap items ++ rest) := by
  cases items with
  | nil => exact stops_cons (by decide) rest
  | cons item items => exact stops_cons (by decide) _

theorem stops_renderFields (fields : List (Str × Value φ)) (rest : Text) :
    Stops (renderFields format gap fields ++ rest) := by
  cases fields with
  | nil => exact stops_cons (by decide) rest
  | cons field fields => exact stops_cons (by decide) _

theorem renderItems_pos (items : List (Value φ)) : 0 < (renderItems format gap items).length := by
  cases items with
  | nil => exact Nat.one_pos
  | cons item items => exact Nat.succ_pos _

theorem renderFields_pos (fields : List (Str × Value φ)) :
    0 < (renderFields format gap fields).length := by
  cases fields with
  | nil => exact Nat.one_pos
  | cons field fields => exact Nat.succ_pos _

theorem quoteStr_append (s : Str) (rest : Text) :
    quoteStr s ++ rest = '"' :: (s.flatMap escapeCode ++ '"' :: rest) := by
  simp [quoteStr]

theorem parseValue_quoteStr {s : Str} (h : joined s) (fuel : Nat) (rest : Text) :
    parseValue format (fuel + 1) (quoteStr s ++ rest) = some (.str s, rest) := by
  rw [quoteStr_append, parseValue, expect_cons_self]
  dsimp only
  rw [scanString_quoteStr (lt_of_joined h), Option.map_some, joinPairs_flatMap h]

/-- A member is read, and then what comes after it. -/
theorem parseMembers_member {key : Str} (hkey : joined key) {fuel : Nat} {value : Value φ}
    {text after : Text} (hgap : Spaces gap)
    (h : parseValue format fuel (text ++ after) = some (value, after)) :
    parseMembers format (fuel + 1) (quoteStr key ++ ':' :: (gap ++ (text ++ after))) =
      match expect '\x7d' (skipSpace after) with
      | some rest => some ([(key, value)], rest)
      | none =>
          (expect ',' (skipSpace after)).bind fun rest =>
            (parseMembers format fuel (skipSpace rest)).map fun p =>
              ((key, value) :: p.1, p.2) := by
  have hcolon : skipSpace (':' :: (gap ++ (text ++ after))) = ':' :: (gap ++ (text ++ after)) :=
    skipSpace_cons _ (by decide)
  rw [quoteStr_append, parseMembers, expect_cons_self, Option.bind_some,
    scanString_quoteStr (lt_of_joined hkey), Option.bind_some]
  dsimp only
  rw [hcolon, expect_cons_self, Option.bind_some, skipSpace_append hgap, skipSpace_value h, h,
    Option.bind_some, joinPairs_flatMap hkey]

/-- Elements after one that is read. -/
def ReadsItems (format : FloatFormat φ) (gap : Text) (items : List (Value φ)) : Prop :=
  ∀ fuel value s rest, (renderItems format gap items).length ≤ fuel →
    parseValue format fuel s = some (value, renderItems format gap items ++ rest) →
    parseItems format (fuel + 1) s = some (value :: items, rest)

/-- Members after one that is read. -/
def ReadsFields (format : FloatFormat φ) (gap : Text) (fields : List (Str × Value φ)) : Prop :=
  ∀ fuel key value text rest, joined key → (renderFields format gap fields).length ≤ fuel →
    parseValue format fuel (text ++ (renderFields format gap fields ++ rest)) =
      some (value, renderFields format gap fields ++ rest) →
    parseMembers format (fuel + 1)
        (quoteStr key ++ ':' :: (gap ++ (text ++ (renderFields format gap fields ++ rest)))) =
      some ((key, value) :: fields, rest)

/-- A value is read from its text, whatever comes after it. -/
def ReadsValue (format : FloatFormat φ) (gap : Text) (value : Value φ) : Prop :=
  ∀ fuel rest, Stops rest → (render format gap value).length ≤ fuel →
    parseValue format (fuel + 1) (render format gap value ++ rest) = some (value, rest)

theorem readsItems_nil : ReadsItems format gap [] := by
  intro fuel value s rest _ hvalue
  rw [parseItems, hvalue, Option.bind_some]
  rfl

theorem readsItems_cons (hgap : Spaces gap) {item : Value φ} {items : List (Value φ)}
    (hitem : ReadsValue format gap item) (hitems : ReadsItems format gap items) :
    ReadsItems format gap (item :: items) := by
  intro fuel value s rest hlength hvalue
  have htext : renderItems format gap (item :: items) ++ rest =
      ',' :: (gap ++ (render format gap item ++ (renderItems format gap items ++ rest))) := by
    simp [renderItems]
  have hpos : 0 < (renderItems format gap items).length := renderItems_pos items
  rw [renderItems, List.length_cons, List.length_append, List.length_append] at hlength
  obtain ⟨less, hfuel⟩ : ∃ less, fuel = less + 2 := ⟨fuel - 2, by omega⟩
  have hread := hitem less (renderItems format gap items ++ rest) (stops_renderItems items rest)
    (by omega)
  rw [htext] at hvalue
  rw [hfuel] at hvalue ⊢
  rw [parseItems, hvalue, Option.bind_some]
  dsimp only
  rw [skipSpace_cons _ (by decide), expect_cons_of_ne _ (by decide), expect_cons_self]
  dsimp only
  rw [Option.bind_some, skipSpace_append hgap, skipSpace_value hread,
    hitems (less + 1) item _ rest (by omega) hread, Option.map_some]

theorem readsFields_nil (hgap : Spaces gap) : ReadsFields format gap [] := by
  intro fuel key value text rest hkey _ hvalue
  rw [parseMembers_member hkey hgap hvalue]
  rfl

theorem readsFields_cons (hgap : Spaces gap) {key : Str} {value : Value φ}
    {fields : List (Str × Value φ)} (hkey : joined key) (hvalue : ReadsValue format gap value)
    (hfields : ReadsFields format gap fields) :
    ReadsFields format gap ((key, value) :: fields) := by
  intro fuel first firstValue text rest hfirst hlength hread
  have htext : renderFields format gap ((key, value) :: fields) ++ rest =
      ',' :: (gap ++ (quoteStr key ++ ':' ::
        (gap ++ (render format gap value ++ (renderFields format gap fields ++ rest))))) := by
    simp [renderFields]
  have hpos : 0 < (renderFields format gap fields).length := renderFields_pos fields
  rw [renderFields, List.length_cons, List.length_append, List.length_append, List.length_cons,
    List.length_append, List.length_append] at hlength
  obtain ⟨less, hfuel⟩ : ∃ less, fuel = less + 2 := ⟨fuel - 2, by omega⟩
  have hmember := hvalue less (renderFields format gap fields ++ rest)
    (stops_renderFields fields rest) (by omega)
  rw [parseMembers_member hfirst hgap hread, htext, hfuel, skipSpace_cons _ (by decide),
    expect_cons_of_ne _ (by decide), expect_cons_self]
  dsimp only
  rw [Option.bind_some, skipSpace_append hgap, quoteStr_append, skipSpace_cons _ (by decide),
    ← quoteStr_append, hfields (less + 1) key value _ rest hkey (by omega) hmember,
    Option.map_some]

theorem readsValue_arr {item : Value φ} {items : List (Value φ)}
    (hitem : ReadsValue format gap item) (hitems : ReadsItems format gap items) :
    ReadsValue format gap (.arr (item :: items)) := by
  intro fuel rest _ hlength
  have htext : render format gap (.arr (item :: items)) ++ rest =
      '[' :: (render format gap item ++ (renderItems format gap items ++ rest)) := by
    simp [render]
  have hpos : 0 < (renderItems format gap items).length := renderItems_pos items
  rw [render, List.length_cons, List.length_append] at hlength
  obtain ⟨less, hfuel⟩ : ∃ less, fuel = less + 2 := ⟨fuel - 2, by omega⟩
  have hread := hitem less (renderItems format gap items ++ rest) (stops_renderItems items rest)
    (by omega)
  have hbracket : expect ']' (render format gap item ++ (renderItems format gap items ++ rest)) =
      none := by
    cases htail : render format gap item ++ (renderItems format gap items ++ rest) with
    | nil => rfl
    | cons c tail =>
        rw [htail] at hread
        apply expect_cons_of_ne
        intro hsame
        rw [hsame] at hread
        exact head_of_parseValue hread (by decide)
  rw [htext, hfuel, parseValue, expect_cons_of_ne _ (by decide), expect_cons_of_ne _ (by decide),
    expect_cons_self]
  dsimp only
  rw [skipSpace_value hread, hbracket]
  dsimp only
  rw [hitems (less + 1) item _ rest (by omega) hread, Option.map_some]

theorem readsValue_obj {key : Str} {value : Value φ} {fields : List (Str × Value φ)}
    (hkey : joined key) (hvalue : ReadsValue format gap value)
    (hfields : ReadsFields format gap fields)
    (hnodup : (((key, value) :: fields).map Prod.fst).Nodup) :
    ReadsValue format gap (.obj ((key, value) :: fields)) := by
  intro fuel rest _ hlength
  have htext : render format gap (.obj ((key, value) :: fields)) ++ rest =
      '\x7b' :: (quoteStr key ++ ':' ::
        (gap ++ (render format gap value ++ (renderFields format gap fields ++ rest)))) := by
    simp [render]
  have hpos : 0 < (renderFields format gap fields).length := renderFields_pos fields
  rw [render, List.length_cons, List.length_append, List.length_cons, List.length_append,
    List.length_append] at hlength
  obtain ⟨less, hfuel⟩ : ∃ less, fuel = less + 2 := ⟨fuel - 2, by omega⟩
  have hmember := hvalue less (renderFields format gap fields ++ rest)
    (stops_renderFields fields rest) (by omega)
  have hread := hfields (less + 1) key value _ rest hkey (by omega) hmember
  rw [htext, hfuel, parseValue, expect_cons_of_ne _ (by decide), expect_cons_self]
  dsimp only
  rw [quoteStr_append, skipSpace_cons _ (by decide), expect_cons_of_ne _ (by decide),
    ← quoteStr_append]
  dsimp only
  rw [hread, Option.map_some, dictOf_eq_self hnodup]

theorem readsValue_nil_arr : ReadsValue format gap (.arr []) := by
  intro fuel rest _ _
  rfl

theorem readsValue_nil_obj : ReadsValue format gap (.obj []) := by
  intro fuel rest _ _
  rfl

/-- A sound value is read from its text. -/
theorem reads_render (hgap : Spaces gap) :
    (∀ value : Value φ, value.sound → ReadsValue format gap value) ∧
      (∀ items : List (Value φ), soundItems items →
        ReadsItems format gap items ∧ ReadsValue format gap (.arr items)) ∧
      ∀ fields : List (Str × Value φ), soundFields fields →
        ReadsFields format gap fields ∧
          ((fields.map Prod.fst).Nodup → ReadsValue format gap (.obj fields)) := by
  apply Value.induct
  case null =>
    intro _ fuel rest _ _
    have hword : ("null", Value.null) ∈ words format := by simp [words]
    exact parseValue_literal (parseLiteral_word hword rest) fuel
  case bool =>
    intro b _ fuel rest _ _
    cases b with
    | true =>
        have hword : ("true", Value.bool true) ∈ words format := by simp [words]
        exact parseValue_literal (parseLiteral_word hword rest) fuel
    | false =>
        have hword : ("false", Value.bool false) ∈ words format := by simp [words]
        exact parseValue_literal (parseLiteral_word hword rest) fuel
  case int =>
    intro n hsound fuel rest hrest _
    exact parseValue_literal (parseLiteral_intRepr (of_decide_eq_true hsound) hrest) fuel
  case float =>
    intro x _ fuel rest hrest _
    exact parseValue_literal (parseLiteral_repr x hrest) fuel
  case str =>
    intro s hsound fuel rest _ _
    exact parseValue_quoteStr hsound fuel rest
  case arr => exact fun items ih hsound => (ih hsound).2
  case obj =>
    intro fields ih hsound
    rw [Value.sound, Bool.and_eq_true, decide_eq_true_eq] at hsound
    exact (ih hsound.1).2 hsound.2
  case nilItems => exact fun _ => ⟨readsItems_nil, readsValue_nil_arr⟩
  case consItem =>
    intro item items hitem ih hsound
    rw [soundItems, Bool.and_eq_true] at hsound
    have hfirst := hitem hsound.1
    have hitems := (ih hsound.2).1
    exact ⟨readsItems_cons hgap hfirst hitems, readsValue_arr hfirst hitems⟩
  case nilFields => exact fun _ => ⟨readsFields_nil hgap, fun _ => readsValue_nil_obj⟩
  case consField =>
    intro key value fields hvalue ih hsound
    rw [soundFields, Bool.and_eq_true, Bool.and_eq_true] at hsound
    have hfirst := hvalue hsound.1.2
    have hfields := (ih hsound.2).1
    exact ⟨readsFields_cons hgap hsound.1.1 hfirst hfields,
      readsValue_obj hsound.1.1 hfirst hfields⟩

/-- `json.loads(json.dumps(value))` is the value. -/
theorem loads_render (hgap : Spaces gap) {value : Value φ} (h : value.sound) :
    loads format (render format gap value) = some value := by
  have hread := (reads_render hgap).1 value h (render format gap value).length []
    stops_nil (Nat.le_refl _)
  rw [List.append_nil] at hread
  unfold loads
  rw [skipSpace_value hread, hread]
  rfl

/-- Sound values with one text are the same. -/
theorem render_injective (hgap : Spaces gap) {value other : Value φ} (h : value.sound)
    (hother : other.sound) (htext : render format gap value = render format gap other) :
    value = other := by
  have hread : loads format (render format gap value) = some value := loads_render hgap h
  rw [htext, loads_render hgap hother] at hread
  exact (Option.some.inj hread).symm

end RoundTrip

end M8flow.Lib.JsonWire
