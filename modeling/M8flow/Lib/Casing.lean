import M8flow.Lib.Text

/-!
# Python casing

`str.upper`, `str.lower` and `str.casefold` follow tables of the Unicode version
that the interpreter ships.  A `Casing` is such operations, with what every
version says of them: on ASCII texts they map each character by itself.
-/

namespace M8flow.Lib

/-- A text of ASCII characters. -/
def Text.isAscii (s : Text) : Bool := s.all fun c => c.toNat < 128

/-- The casing operations of one Unicode version. -/
structure Casing where
  /-- `str.upper()`. -/
  upper : Text → Text
  /-- `str.lower()`. -/
  lower : Text → Text
  /-- `str.casefold()`. -/
  casefold : Text → Text
  upper_ascii : ∀ s : Text, s.isAscii → upper s = s.map Char.toUpper
  lower_ascii : ∀ s : Text, s.isAscii → lower s = s.map Char.toLower
  casefold_ascii : ∀ s : Text, s.isAscii → casefold s = s.map Char.toLower

/-- The casing operations that leave every other character alone. -/
def Casing.ascii : Casing where
  upper s := s.map Char.toUpper
  lower s := s.map Char.toLower
  casefold s := s.map Char.toLower
  upper_ascii _ _ := rfl
  lower_ascii _ _ := rfl
  casefold_ascii _ _ := rfl

end M8flow.Lib
